import Rtsrv.Client.RouteTable
import Rtsrv.Lib.Decimal

/-!
# Rtsrv.Client.AddrText — reading IPv4 addresses (`inet_pton`)

A text is an address exactly when `inet_ntop` writes that address so: the four numbers have no sign, no
blank and no leading zero.  The functions of the client give `inet_pton` the text up to its first zero.
-/

namespace Rtsrv.Client

open Lib CmdProto

/-- A number of a dotted address. -/
def octet (ds : List Char) : Option UInt8 :=
  if IsDecimal ds ∧ (ds.head? = some '0' → ds.length = 1) ∧ decimalValue ds ≤ 255 then
    some (decimalValue ds).toUInt8
  else none

/-- `inet_pton(AF_INET, …)`. -/
def inetPton (src : List Char) : Option Ipv4Addr :=
  match src.splitOn '.' with
  | [a, b, c, d] => do
    let a ← octet a
    let b ← octet b
    let c ← octet c
    let d ← octet d
    pure (ipv4 a b c d)
  | _ => none

theorem toNat_toUInt8 {n : ℕ} (h : n < 256) : n.toUInt8.toNat = n := UInt8.toNat_ofNat_of_lt' h

theorem octet_eq_some {ds : List Char} {b : UInt8} : octet ds = some b ↔ ds = Nat.toDigits 10 b.toNat := by
  have hb := b.toNat_lt
  unfold octet
  constructor
  · intro h
    split_ifs at h with hds
    obtain ⟨hdec, hhead, hle⟩ := hds
    obtain rfl := Option.some.inj h
    have hvalue := toNat_toUInt8 (Nat.lt_succ_of_le hle)
    rw [hvalue, toDigits_decimalValue hdec hhead]
  · rintro rfl
    have hvalue : decimalValue (Nat.toDigits 10 b.toNat) = b.toNat := Nat.ofDigitChars_ten_toDigits
    have hhead : (Nat.toDigits 10 b.toNat).head? = some '0' → (Nat.toDigits 10 b.toNat).length = 1 := by
      intro hzero
      rw [toDigits_head b.toNat hzero]
      rfl
    rw [if_pos ⟨isDecimal_toDigits _, hhead, by omega⟩, hvalue]
    simp

theorem items_eq_ipv4 (addr : Ipv4Addr) : ∃ a b c d, addr = ipv4 a b c d := by
  obtain ⟨items, hlen⟩ := addr
  rcases items with _ | ⟨a, _ | ⟨b, _ | ⟨c, _ | ⟨d, _ | ⟨e, items⟩⟩⟩⟩⟩
  case cons.cons.cons.cons.nil => exact ⟨a, b, c, d, rfl⟩
  all_goals simp at hlen

theorem inetPton_splitOn {src : List Char} {addr : Ipv4Addr} :
    inetPton src = some addr ↔ src.splitOn '.' = addr.items.map fun byte => Nat.toDigits 10 byte.toNat := by
  obtain ⟨a, b, c, d, rfl⟩ := items_eq_ipv4 addr
  show _ ↔ _ = [Nat.toDigits 10 a.toNat, Nat.toDigits 10 b.toNat, Nat.toDigits 10 c.toNat,
    Nat.toDigits 10 d.toNat]
  unfold inetPton
  constructor
  · intro h
    split at h
    case h_1 p q r s hparts =>
      simp only [Option.bind_eq_bind, Option.bind_eq_some_iff, octet_eq_some] at h
      obtain ⟨a', rfl, b', rfl, c', rfl, d', rfl, haddr⟩ := h
      have hitems : [a', b', c', d'] = [a, b, c, d] := congrArg Block.items (Option.some.inj haddr)
      obtain ⟨rfl, rfl, rfl, rfl⟩ : a' = a ∧ b' = b ∧ c' = c ∧ d' = d := by simpa using hitems
      exact hparts
    case h_2 => cases h
  · intro hparts
    rw [hparts]
    dsimp only
    simp only [octet_eq_some.mpr rfl]
    rfl

/-- **`inet_pton` accepts what `inet_ntop` writes and nothing else.** -/
theorem inetPton_eq_some {src : List Char} {addr : Ipv4Addr} :
    inetPton src = some addr ↔ src = (inetNtop addr).toList := by
  rw [inetPton_splitOn, ← splitOn_inetNtop]
  refine ⟨fun h => ?_, fun h => by rw [h]⟩
  have hjoin : ∀ text : List Char, ['.'].intercalate (text.splitOn '.') = text := fun text =>
    List.intercalate_splitOn '.'
  rw [← hjoin src, h, hjoin]

@[simp] theorem inetPton_inetNtop (addr : Ipv4Addr) : inetPton (inetNtop addr).toList = some addr :=
  inetPton_eq_some.mpr rfl

theorem toList_inetNtop (a b c d : UInt8) : (inetNtop (ipv4 a b c d)).toList =
    Nat.toDigits 10 a.toNat ++ '.' :: (Nat.toDigits 10 b.toNat ++ '.' :: (Nat.toDigits 10 c.toNat ++
      '.' :: Nat.toDigits 10 d.toNat)) := by
  simp [inetNtop, ipv4]

/-- The characters of an address. -/
theorem mem_inetNtop {addr : Ipv4Addr} {c : Char} (h : c ∈ (inetNtop addr).toList) : c.isDigit ∨ c = '.' := by
  have hdigit : ∀ n, c ∈ Nat.toDigits 10 n → c.isDigit := fun n hc =>
    Nat.isDigit_of_mem_toDigits (by decide) (by decide) hc
  obtain ⟨p, q, r, s, rfl⟩ := items_eq_ipv4 addr
  rw [toList_inetNtop] at h
  simp only [List.mem_append, List.mem_cons] at h
  rcases h with h | h | h | h | h | h | h
  · exact .inl (hdigit _ h)
  · exact .inr h
  · exact .inl (hdigit _ h)
  · exact .inr h
  · exact .inl (hdigit _ h)
  · exact .inr h
  · exact .inl (hdigit _ h)

theorem slash_not_mem_inetNtop (addr : Ipv4Addr) : '/' ∉ (inetNtop addr).toList := fun h =>
  absurd (mem_inetNtop h) (by decide)

/-- The text of an address has no zero in it. -/
theorem cStr_inetNtop (addr : Ipv4Addr) : cStr (inetNtop addr).toList = (inetNtop addr).toList :=
  cStr_eq_self fun h => absurd (mem_inetNtop h) (by decide)

end Rtsrv.Client
