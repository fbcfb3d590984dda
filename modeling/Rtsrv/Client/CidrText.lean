import Rtsrv.Client.RouteRequest

/-!
# Rtsrv.Client.CidrText — which texts `parseCidr` takes for a destination (`routing.cpp`)

A destination is an address, alone or with a slash and a decimal number behind it.  `parseCidr` gives the
address to `inet_pton` up to its first zero and what is behind the slash to `std::stoi`, so it takes some
other texts as well; `parseCidr_grammar_iff` says which.
-/

namespace Rtsrv.Client

open Lib CmdProto Server

section Cidr

variable (libc : NetLibc)

/-! ### The grammar -/

/-- An address of the family, alone or with a slash and the number of a prefix length. -/
def CidrText (text : List Char) (family : Int32) (buf : Block UInt8 16) (prefixLen : UInt8) : Prop :=
  ∃ addr, Char.ofNat 0 ∉ addr ∧ inetPtonBuf libc family addr = some buf ∧
    ((text = addr ∧ prefixLen.toNat = maxPfx family) ∨
      ∃ ds, text = addr ++ '/' :: ds ∧ IsDecimal ds ∧ decimalValue ds ≤ maxPfx family ∧
        prefixLen.toNat = decimalValue ds)

/-- `parseCidr` accepts the text exactly where the grammar does, with the length that the text says. -/
def ReadsGrammar (cidr : String) (family : Int32) : Prop :=
  ∀ buf prefixLen, parseCidr libc cidr family = .ok (buf, prefixLen) ↔
    CidrText libc cidr.toList family buf prefixLen

/-- If what stands before the first slash, up to a zero character, is an address, then there is no zero
character in it; and a number in range behind the slash has no white space and no sign in front of its
digits, and nothing behind them. -/
def PlainCidr (text : List Char) (family : Int32) : Prop :=
  match text.idxOf? '/' with
  | none => inetPtonBuf libc family text ≠ none → Char.ofNat 0 ∉ text
  | some slashPos =>
    inetPtonBuf libc family (text.take slashPos) ≠ none →
      ∀ blanks sign ds rest, Numeral (text.drop (slashPos + 1)) blanks sign ds rest →
        0 ≤ signedValue sign ds → signedValue sign ds ≤ maxPfx family →
          Char.ofNat 0 ∉ text.take slashPos ∧ blanks = [] ∧ sign = none ∧ rest = []

variable {libc}

/-! ### The texts of the grammar -/

/-- The address of an accepted text has no slash in it, in either family. -/
theorem inetPtonBuf_slash (hpton : ∀ src buf, libc.inet_pton6 src = some buf → '/' ∉ src) {family : Int32}
    {addr : List Char} {buf : Block UInt8 16} (hzero : Char.ofNat 0 ∉ addr)
    (h : inetPtonBuf libc family addr = some buf) : '/' ∉ addr := by
  unfold inetPtonBuf at h
  rw [cStr_eq_self hzero] at h
  split_ifs at h
  · obtain ⟨ip, hip, -⟩ := Option.map_eq_some_iff.mp h
    rw [inetPton_eq_some.mp hip]
    exact slash_not_mem_inetNtop ip
  · exact hpton addr buf h

theorem cidrText_bare {text : List Char} (h : '/' ∉ text) {family : Int32} {buf : Block UInt8 16}
    {prefixLen : UInt8} : CidrText libc text family buf prefixLen ↔
      Char.ofNat 0 ∉ text ∧ inetPtonBuf libc family text = some buf ∧ prefixLen.toNat = maxPfx family := by
  constructor
  · rintro ⟨addr, hzero, hbuf, ⟨rfl, hlen⟩ | ⟨ds, rfl, -⟩⟩
    · exact ⟨hzero, hbuf, hlen⟩
    · exact absurd (by simp) h
  · rintro ⟨hzero, hbuf, hlen⟩
    exact ⟨text, hzero, hbuf, .inl ⟨rfl, hlen⟩⟩

theorem cidrText_slash (hpton : ∀ src buf, libc.inet_pton6 src = some buf → '/' ∉ src) {a b : List Char}
    (ha : '/' ∉ a) {family : Int32} {buf : Block UInt8 16} {prefixLen : UInt8} :
    CidrText libc (a ++ '/' :: b) family buf prefixLen ↔
      Char.ofNat 0 ∉ a ∧ inetPtonBuf libc family a = some buf ∧ IsDecimal b ∧
        decimalValue b ≤ maxPfx family ∧ prefixLen.toNat = decimalValue b := by
  constructor
  · rintro ⟨addr, hzero, hbuf, ⟨rfl, -⟩ | ⟨ds, hcut, hds, hle, hlen⟩⟩
    · exact absurd (by simp) (inetPtonBuf_slash hpton hzero hbuf)
    · have hfirst := congrArg (List.idxOf? '/') hcut
      rw [idxOf?_append ha, idxOf?_append (inetPtonBuf_slash hpton hzero hbuf)] at hfirst
      obtain ⟨rfl, hrest⟩ := List.append_inj hcut (Option.some.inj hfirst)
      obtain ⟨-, rfl⟩ := List.cons.inj hrest
      exact ⟨hzero, hbuf, hds, hle, hlen⟩
  · rintro ⟨hzero, hbuf, hds, hle, hlen⟩
    exact ⟨a, hzero, hbuf, .inr ⟨b, rfl, hds, hle, hlen⟩⟩

/-! ### The condition -/

theorem plainCidr_bare {text : List Char} (h : '/' ∉ text) (family : Int32) :
    PlainCidr libc text family ↔ (inetPtonBuf libc family text ≠ none → Char.ofNat 0 ∉ text) := by
  rw [PlainCidr, List.idxOf?_eq_none_iff.mpr h]

theorem plainCidr_slash {a b : List Char} (ha : '/' ∉ a) (family : Int32) :
    PlainCidr libc (a ++ '/' :: b) family ↔ (inetPtonBuf libc family a ≠ none →
      ∀ blanks sign ds rest, Numeral b blanks sign ds rest →
        0 ≤ signedValue sign ds → signedValue sign ds ≤ maxPfx family →
          Char.ofNat 0 ∉ a ∧ blanks = [] ∧ sign = none ∧ rest = []) := by
  rw [PlainCidr, idxOf?_append ha]
  dsimp only
  rw [drop_behind, List.take_left]

theorem grammar_bare {cidr : String} (h : '/' ∉ cidr.toList) (family : Int32) :
    ReadsGrammar libc cidr family ↔ PlainCidr libc cidr.toList family := by
  simp only [ReadsGrammar, parseCidr_bare h, cidrText_bare h, plainCidr_bare h]
  constructor
  · intro hall haddr
    obtain ⟨buf, hbuf⟩ := Option.ne_none_iff_exists'.mp haddr
    have hlen := (toUInt8_maxPfx family (maxPfx family).toUInt8).mp rfl
    exact ((hall buf _).mp ⟨hbuf, hlen⟩).1
  · intro hplain buf prefixLen
    refine ⟨fun ⟨hbuf, hlen⟩ => ⟨hplain ?_, hbuf, hlen⟩, And.right⟩
    rw [hbuf]
    exact Option.some_ne_none buf

/-- Behind a slash the number is read as its digits say exactly when there are digits alone. -/
theorem grammar_slash (hpton : ∀ src buf, libc.inet_pton6 src = some buf → '/' ∉ src) {cidr : String}
    {a b : List Char} (hcut : cidr.toList = a ++ '/' :: b) (ha : '/' ∉ a) (family : Int32) :
    ReadsGrammar libc cidr family ↔ PlainCidr libc cidr.toList family := by
  rw [ReadsGrammar, hcut, plainCidr_slash ha]
  simp only [parseCidr_slash hcut ha, cidrText_slash hpton ha, parsePrefixLen_ok]
  have hmax := maxPfx_le family
  constructor
  · intro hall haddr blanks sign ds rest hnum hpos hle
    obtain ⟨buf, hbuf⟩ := Option.ne_none_iff_exists'.mp haddr
    have hnat := toNat_toUInt8 (n := (signedValue sign ds).toNat) (by omega)
    obtain ⟨hzero, -, hdec, -, -⟩ := (hall buf (signedValue sign ds).toNat.toUInt8).mp
      ⟨hbuf, blanks, sign, ds, rest, hnum, hle, by omega⟩
    exact ⟨hzero, numeral_of_decimal hnum hdec⟩
  · intro hplain buf prefixLen
    constructor
    · rintro ⟨hbuf, blanks, sign, ds, rest, hnum, hle, hlen⟩
      obtain ⟨hzero, rfl, rfl, rfl⟩ :=
        hplain (by rw [hbuf]; exact Option.some_ne_none buf) blanks sign ds rest hnum (by omega) hle
      have hvalue : signedValue none ds = decimalValue ds := if_neg (by simp)
      obtain rfl : b = ds := by simpa using hnum.text_eq
      exact ⟨hzero, hbuf, hnum.digits, by omega, by omega⟩
    · rintro ⟨-, hbuf, hdec, hle, hlen⟩
      have hvalue : signedValue none b = decimalValue b := if_neg (by simp)
      exact ⟨hbuf, [], none, b, [], numeral_decimal hdec, by omega, by omega⟩

/-- **`parseCidr` accepts exactly the grammar, with the length that the text says, if and only if the text
is plain.**  Of an IPv6 address only that it is written without a slash is taken for granted. -/
theorem parseCidr_grammar_iff (libc : NetLibc)
    (hpton : ∀ src buf, libc.inet_pton6 src = some buf → '/' ∉ src) (cidr : String) (family : Int32) :
    ReadsGrammar libc cidr family ↔ PlainCidr libc cidr.toList family := by
  by_cases hslash : '/' ∈ cidr.toList
  · obtain ⟨a, b, hcut, ha⟩ := List.eq_append_cons_of_mem hslash
    exact grammar_slash hpton hcut ha family
  · exact grammar_bare hslash family

end Cidr

/-! ### A network and a typing error -/

/-- A C library on a host without interfaces, whose only IPv6 address is the unspecified one. -/
def unspecifiedLibc : NetLibc where
  if_indextoname _ := none
  inet_ntop6 _ := "::"
  if_nametoindex _ := 0
  inet_pton6 src := if src = [':', ':'] then some (Block.replicate 16 0) else none

theorem unspecifiedLibc_slash (src : List Char) (buf : Block UInt8 16)
    (h : unspecifiedLibc.inet_pton6 src = some buf) : '/' ∉ src := by
  have hsrc : src = [':', ':'] := by
    by_contra hne
    cases h.symm.trans (if_neg hne)
  subst hsrc
  decide

/-- `::/64`. -/
theorem parseCidr_grammar_iff_unspecified : ReadsGrammar unspecifiedLibc "::/64" (familyInt AF_INET6) := by
  refine (parseCidr_grammar_iff unspecifiedLibc unspecifiedLibc_slash "::/64" (familyInt AF_INET6)).mpr ?_
  have hcut : "::/64".toList = [':', ':'] ++ '/' :: ['6', '4'] := by decide
  rw [hcut, plainCidr_slash (by decide)]
  intro _ blanks sign ds rest hnum _ _
  exact ⟨by decide, numeral_of_decimal hnum (by decide)⟩

/-- A letter behind the number is not noticed. -/
theorem parseCidr_takes_letter : ¬ReadsGrammar unspecifiedLibc "10.0.0.0/8x" (familyInt AF_INET) := by
  intro h
  have hcut : "10.0.0.0/8x".toList = "10.0.0.0".toList ++ '/' :: ['8', 'x'] := by decide
  have hbuf : inetPtonBuf unspecifiedLibc (familyInt AF_INET) "10.0.0.0".toList =
      some ⟨[10, 0, 0, 0] ++ List.replicate 12 0, by decide⟩ := by decide
  have hletter : ∀ c ∈ ['x'].head?, c.isDigit = false := by
    rintro c ⟨⟩
    rfl
  have hnum : Numeral ['8', 'x'] [] none ['8'] ['x'] := ⟨rfl, by simp, by simp, by decide, hletter⟩
  have hlen : parsePrefixLen "10.0.0.0/8x" ['8', 'x'] (familyInt AF_INET) = .ok 8 :=
    parsePrefixLen_ok.mpr ⟨[], none, ['8'], ['x'], hnum, by decide, by decide⟩
  have htext := (h _ _).mp ((parseCidr_slash hcut (by decide)).mpr ⟨hbuf, hlen⟩)
  rw [hcut, cidrText_slash unspecifiedLibc_slash (by decide)] at htext
  exact absurd htext.2.2.1 (by decide)

end Rtsrv.Client
