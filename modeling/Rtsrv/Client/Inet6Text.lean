import Mathlib.Data.List.MinMax
import Rtsrv.Client.AddrText
import Rtsrv.Lib.BigEndian
import Rtsrv.Lib.TextRecord

/-!
# Rtsrv.Client.Inet6Text — the texts of IPv6 addresses (`inet_ntop`, `inet_pton`)

An address is eight words in hexadecimal with colons between them.  Of the longest run of zero words, if it
has two or more, only the colons around it are written, and the last two words are an IPv4 address where nothing
but zeros, or zeros and one `ffff`, stands before them.  `inet_pton` reads every text that `inet_ntop` writes as
its address.
-/

namespace Rtsrv.Client

open Lib CmdProto

/-! ### Words -/

def hexVal (c : Char) : Option ℕ :=
  if '0' ≤ c ∧ c ≤ '9' then some (c.toNat - 48)
  else if 'a' ≤ c ∧ c ≤ 'f' then some (c.toNat - 87)
  else if 'A' ≤ c ∧ c ≤ 'F' then some (c.toNat - 55)
  else none

/-- The number behind `n` and some more digits. -/
def hexFoldl (n : ℕ) (ds : List Char) : Option ℕ := ds.foldlM (fun n c => (hexVal c).map (16 * n + ·)) n

def wordText (w : UInt16) : List Char := Nat.toDigits 16 w.toNat

/-- A word has one to four digits. -/
def readWord (ds : List Char) : Option UInt16 :=
  if ds = [] ∨ 4 < ds.length then none else (hexFoldl 0 ds).map Nat.toUInt16

theorem hexVal_digitChar : ∀ d < 16, hexVal (Nat.digitChar d) = some d := by decide

theorem hexFoldl_toDigits (n : ℕ) : hexFoldl 0 (Nat.toDigits 16 n) = some n := by
  induction n using Nat.strongRecOn with
  | ind n ih =>
    rcases Nat.lt_or_ge n 16 with hlt | hle
    · rw [Nat.toDigits_of_lt_base hlt]
      simp [hexFoldl, hexVal_digitChar n hlt]
    · rw [Nat.toDigits_of_base_le (by decide) hle, hexFoldl, List.foldlM_append]
      have hfront : hexFoldl 0 (Nat.toDigits 16 (n / 16)) = some (n / 16) := ih _ (by omega)
      rw [← hexFoldl, hfront]
      simp [hexVal_digitChar (n % 16) (by omega)]
      omega

theorem wordText_ne_nil (w : UInt16) : wordText w ≠ [] := Nat.toDigits_ne_nil

theorem readWord_wordText (w : UInt16) : readWord (wordText w) = some w := by
  have hlen : (wordText w).length ≤ 4 := (Nat.length_toDigits_le_iff (by decide) (by decide)).mpr w.toNat_lt
  rw [readWord, if_neg (not_or.mpr ⟨wordText_ne_nil w, Nat.not_lt.mpr hlen⟩), wordText, hexFoldl_toDigits]
  simp

theorem mem_wordText {w : UInt16} {c : Char} (h : c ∈ wordText w) : (hexVal c).isSome := by
  have hall : ∀ n, ∀ c ∈ Nat.toDigits 16 n, (hexVal c).isSome := by
    intro n
    induction n using Nat.strongRecOn with
    | ind n ih =>
      rw [Nat.toDigits_eq_if (by decide)]
      split_ifs with hlt
      · intro c hc
        rw [List.mem_singleton.mp hc, hexVal_digitChar n hlt]
        rfl
      · intro c hc
        rcases List.mem_append.mp hc with hc | hc
        · exact ih _ (by omega) c hc
        · rw [List.mem_singleton.mp hc, hexVal_digitChar (n % 16) (by omega)]
          rfl
  exact hall w.toNat c h

/-! ### Groups -/

/-- The words of some bytes. -/
def words : List UInt8 → List UInt16
  | b0 :: b1 :: bytes => joinBe16 b0 b1 :: words bytes
  | _ => []

theorem words_flatMap : ∀ ws : List UInt16, words (ws.flatMap writeBe16) = ws
  | [] => rfl
  | w :: ws => by
    rw [List.flatMap_cons, writeBe16, List.cons_append, List.cons_append, List.nil_append, words,
      joinBe16_write, words_flatMap ws]

theorem flatMap_words : ∀ {bytes : List UInt8}, Even bytes.length → (words bytes).flatMap writeBe16 = bytes
  | [], _ => rfl
  | [_], h => by simp at h
  | b0 :: b1 :: bytes, h => by
    have heven : Even bytes.length := by
      rw [List.length_cons, List.length_cons, Nat.even_add_one, Nat.even_add_one, not_not] at h
      exact h
    rw [words, List.flatMap_cons, writeBe16_join, flatMap_words heven]
    rfl

/-- The texts of some words, the last two as an IPv4 address if `embedded`. -/
def groupTexts (embedded : Bool) : List UInt16 → List (List Char)
  | [] => []
  | [hi, lo] =>
    if embedded then [(inetNtop ⟨writeBe16 hi ++ writeBe16 lo, rfl⟩).toList] else [wordText hi, wordText lo]
  | w :: ws => wordText w :: groupTexts embedded ws

def readGroups : List (List Char) → Option (List UInt16)
  | [] => some []
  | [text] =>
    if '.' ∈ text then (inetPton text).map fun addr => words addr.items else (readWord text).map fun w => [w]
  | text :: texts => do
    let w ← readWord text
    let ws ← readGroups texts
    pure (w :: ws)

theorem dot_notMem_wordText (w : UInt16) : '.' ∉ wordText w := fun h => absurd (mem_wordText h) (by decide)

theorem readGroups_cons {w : UInt16} {texts : List (List Char)} {ws : List UInt16}
    (h : readGroups texts = some ws) : readGroups (wordText w :: texts) = some (w :: ws) := by
  cases texts with
  | nil =>
    obtain rfl := Option.some.inj h
    rw [readGroups, if_neg (dot_notMem_wordText w), readWord_wordText]
    rfl
  | cons text texts =>
    rw [readGroups, readWord_wordText, h]
    · rfl
    · simp

theorem readGroups_groupTexts (embedded : Bool) (ws : List UInt16) :
    readGroups (groupTexts embedded ws) = some ws := by
  fun_induction groupTexts embedded ws with
  | case1 => rfl
  | case2 hi lo =>
    have hdot : '.' ∈ (inetNtop ⟨writeBe16 hi ++ writeBe16 lo, rfl⟩).toList := by
      have htext : (inetNtop ⟨writeBe16 hi ++ writeBe16 lo, rfl⟩).toList = _ := toList_inetNtop _ _ _ _
      rw [htext]
      simp
    rw [readGroups, if_pos hdot, inetPton_inetNtop]
    exact congrArg some (words_flatMap [hi, lo])
  | case3 hi lo => exact readGroups_cons (readGroups_cons rfl)
  | case4 w ws hne ih => exact readGroups_cons ih

/-- The characters of a group. -/
theorem mem_groupTexts {embedded : Bool} {ws : List UInt16} {text : List Char}
    (h : text ∈ groupTexts embedded ws) : text ≠ [] ∧ ∀ c ∈ text, (hexVal c).isSome ∨ c = '.' := by
  have hword : ∀ w, wordText w ≠ [] ∧ ∀ c ∈ wordText w, (hexVal c).isSome ∨ c = '.' := fun w =>
    ⟨wordText_ne_nil w, fun c hc => .inl (mem_wordText hc)⟩
  fun_induction groupTexts embedded ws with
  | case1 => exact absurd h List.not_mem_nil
  | case2 hi lo =>
    obtain rfl := List.mem_singleton.mp h
    refine ⟨fun hnil => inetNtop_ne_empty _ (String.toList_eq_nil_iff.mp hnil), fun c hc => ?_⟩
    refine (mem_inetNtop hc).imp_left fun hdigit => ?_
    rw [hexVal, if_pos (by simpa [Char.isDigit, Char.le_def] using hdigit)]
    rfl
  | case3 hi lo =>
    rcases List.mem_cons.mp h with rfl | h
    · exact hword hi
    · rw [List.mem_singleton.mp h]
      exact hword lo
  | case4 w ws hne ih =>
    rcases List.mem_cons.mp h with rfl | h
    · exact hword w
    · exact ih h

/-! ### The run of zeros -/

def zerosAt (ws : List UInt16) (base : ℕ) : ℕ := ((ws.drop base).takeWhile (· = 0)).length

/-- Where the longest run of zero words begins, the first of them, if it has two words or more. -/
def longestZeros (ws : List UInt16) : Option ℕ :=
  ((List.range ws.length).argmax (zerosAt ws)).filter fun base => 2 ≤ zerosAt ws base

def behindZeros (ws : List UInt16) (base : ℕ) : List UInt16 := (ws.drop base).dropWhile (· = 0)

theorem split_at_zeros (ws : List UInt16) (base : ℕ) :
    ws.take base ++ (List.replicate (zerosAt ws base) 0 ++ behindZeros ws base) = ws := by
  have hzeros : (ws.drop base).takeWhile (· = 0) = List.replicate (zerosAt ws base) 0 :=
    List.eq_replicate_iff.mpr ⟨rfl, fun w hw => by simpa using List.mem_takeWhile_imp hw⟩
  rw [← hzeros, behindZeros, List.takeWhile_append_dropWhile, List.take_append_drop]

theorem longestZeros_pos {ws : List UInt16} {base : ℕ} (h : longestZeros ws = some base) :
    2 ≤ zerosAt ws base :=
  of_decide_eq_true (Option.filter_eq_some_iff.mp h).2

/-! ### Addresses -/

/-- A side of the gap; an empty text stands where it has no groups. -/
def side (texts : List (List Char)) : List (List Char) := if texts = [] then [[]] else texts

def readSide : List (List Char) → Option (List (List Char))
  | [] => none
  | [[]] => some []
  | texts => some texts

/-- The texts between the colons of an address. -/
def addrTexts (ws : List UInt16) : List (List Char) :=
  match longestZeros ws with
  | none => groupTexts false ws
  | some base =>
    let behind := behindZeros ws base
    -- `::a.b.c.d` and `::ffff:a.b.c.d`
    let embedded := base = 0 ∧ (behind.length = 2 ∨ behind.length = 3 ∧ behind.head? = some 0xffff)
    side ((ws.take base).map wordText) ++ [] :: side (groupTexts embedded behind)

def inetNtop6 (addr : Block UInt8 16) : String :=
  String.ofList ([':'].intercalate (addrTexts (words addr.items)))

/-- The words on both sides of a gap, which stands for one zero word or more. -/
def readGap (heads rest : List (List Char)) : Option (List UInt16) := do
  let before ← heads.mapM readWord
  let texts ← readSide rest
  let after ← readGroups texts
  if before.length + after.length < 8 then
    pure (before ++ (List.replicate (8 - (before.length + after.length)) 0 ++ after))
  else none

/-- The words of the texts between the colons. -/
def readTexts (texts : List (List Char)) : Option (List UInt16) :=
  if [] ∈ texts then
    let heads := texts.takeWhile (· ≠ [])
    match texts.drop (if heads = [] then 1 else heads.length) with
    | [] :: rest => readGap heads rest
    | _ => none
  else readGroups texts

def inetPton6 (src : List Char) : Option (Block UInt8 16) :=
  (readTexts (src.splitOn ':')).bind fun ws =>
    if h : (ws.flatMap writeBe16).length = 16 then some ⟨ws.flatMap writeBe16, h⟩ else none

theorem readSide_side {texts : List (List Char)} (h : ∀ text ∈ texts, text ≠ []) :
    readSide (side texts) = some texts := by
  rcases texts with _ | ⟨text, texts⟩
  · rfl
  · rw [side, if_neg (List.cons_ne_nil _ _), readSide]
    · exact List.cons_ne_nil _ _
    · intro heq
      exact h text List.mem_cons_self (List.cons.inj heq).1

theorem mapM_readWord : ∀ ws : List UInt16, (ws.map wordText).mapM readWord = some ws
  | [] => rfl
  | w :: ws => by
    rw [List.map_cons, List.mapM_cons, readWord_wordText, mapM_readWord ws]
    rfl

theorem readTexts_gap {heads texts : List (List Char)} (hheads : ∀ text ∈ heads, text ≠ []) :
    readTexts (side heads ++ [] :: texts) = readGap heads texts := by
  rw [readTexts, if_pos (List.mem_append_right _ List.mem_cons_self)]
  dsimp only
  have htake : (side heads ++ [] :: texts).takeWhile (· ≠ []) = heads := by
    rcases heads with _ | ⟨text, heads⟩
    · rfl
    · rw [side, if_neg (List.cons_ne_nil _ _),
        List.takeWhile_append_of_pos fun t ht => decide_eq_true (hheads t ht),
        List.takeWhile_cons_of_neg (by simp), List.append_nil]
  have hdrop : (side heads ++ [] :: texts).drop (if heads = [] then 1 else heads.length) = [] :: texts := by
    rcases heads with _ | ⟨text, heads⟩
    · rfl
    · rw [if_neg (List.cons_ne_nil _ _), side, if_neg (List.cons_ne_nil _ _)]
      exact List.drop_left
  rw [htake, hdrop]

theorem readTexts_addrTexts {ws : List UInt16} (hlen : ws.length = 8) : readTexts (addrTexts ws) = some ws := by
  unfold addrTexts
  rcases hzeros : longestZeros ws with _ | base
  · dsimp only
    rw [readTexts, if_neg fun h => (mem_groupTexts h).1 rfl, readGroups_groupTexts]
  · dsimp only
    have hheads : ∀ text ∈ (ws.take base).map wordText, text ≠ [] := by
      intro text htext
      obtain ⟨w, -, rfl⟩ := List.mem_map.mp htext
      exact wordText_ne_nil w
    rw [readTexts_gap hheads, readGap, mapM_readWord, readSide_side fun text htext => (mem_groupTexts htext).1]
    have hsplit := split_at_zeros ws base
    have hpos := longestZeros_pos hzeros
    have hsum : (ws.take base).length + (zerosAt ws base + (behindZeros ws base).length) = 8 := by
      rw [← hlen, ← congrArg List.length hsplit]
      simp
    simp only [Option.bind_eq_bind, Option.bind_some, readGroups_groupTexts]
    have hgap : 8 - ((ws.take base).length + (behindZeros ws base).length) = zerosAt ws base := by omega
    rw [if_pos (by omega), hgap, hsplit]
    rfl

theorem mem_side {texts : List (List Char)} {text : List Char} (h : text ∈ side texts) :
    text = [] ∨ text ∈ texts := by
  unfold side at h
  split_ifs at h
  · exact .inl (List.mem_singleton.mp h)
  · exact .inr h

/-- The characters between the colons. -/
theorem mem_addrTexts {ws : List UInt16} {text : List Char} (h : text ∈ addrTexts ws) {c : Char}
    (hc : c ∈ text) : (hexVal c).isSome ∨ c = '.' := by
  unfold addrTexts at h
  split at h
  next => exact (mem_groupTexts h).2 c hc
  next base _ =>
    rcases List.mem_append.mp h with h | h
    · rcases mem_side h with rfl | h
      · cases hc
      · obtain ⟨w, -, rfl⟩ := List.mem_map.mp h
        exact .inl (mem_wordText hc)
    · rcases List.mem_cons.mp h with rfl | h
      · cases hc
      · rcases mem_side h with rfl | h
        · cases hc
        · exact (mem_groupTexts h).2 c hc

theorem words_length : ∀ bytes : List UInt8, (words bytes).length = bytes.length / 2
  | [] => rfl
  | [_] => by simp [words]
  | b0 :: b1 :: bytes => by
    rw [words, List.length_cons, words_length bytes, List.length_cons, List.length_cons]
    omega

theorem readTexts_words (addr : Block UInt8 16) :
    readTexts (addrTexts (words addr.items)) = some (words addr.items) :=
  readTexts_addrTexts (by rw [words_length, addr.length_eq])

/-- **`inet_pton` reads what `inet_ntop` writes as its address.** -/
theorem inetPton6_inetNtop6 (addr : Block UInt8 16) : inetPton6 (inetNtop6 addr).toList = some addr := by
  have hread := readTexts_words addr
  have hne : addrTexts (words addr.items) ≠ [] := by
    intro hnil
    rw [hnil] at hread
    have hlen := congrArg (fun ws => ws.map List.length) hread
    simp [readTexts, readGroups, words_length, addr.length_eq] at hlen
  have hsplit : (inetNtop6 addr).toList.splitOn ':' = addrTexts (words addr.items) := by
    rw [inetNtop6, String.toList_ofList]
    exact List.splitOn_intercalate ':' (fun text htext hc => absurd (mem_addrTexts htext hc) (by decide)) hne
  have heven : Even addr.items.length := by
    rw [addr.length_eq]
    decide
  have hbytes : (words addr.items).flatMap writeBe16 = addr.items := flatMap_words heven
  rw [inetPton6, hsplit, hread, Option.bind_some, dif_pos (by rw [hbytes, addr.length_eq])]
  exact congrArg some (Block.ext_items hbytes)

example : inetNtop6 ⟨[0x20, 1, 0xd, 0xb8, 0, 0, 0, 2, 0, 0, 0, 0, 0, 0, 0, 1], rfl⟩ = "2001:db8:0:2::1" := by decide

example : inetNtop6 ⟨[0, 0, 0, 0, 0, 0, 0, 0, 0, 0, 0xff, 0xff, 10, 0, 0, 1], rfl⟩ = "::ffff:10.0.0.1" := by decide

theorem inetNtop6_injective : Function.Injective inetNtop6 := fun a b h => by
  have hread := inetPton6_inetNtop6 a
  rw [h, inetPton6_inetNtop6] at hread
  exact (Option.some.inj hread).symm

theorem inetNtop6_ne_empty (addr : Block UInt8 16) : inetNtop6 addr ≠ "" := by
  intro h
  have hread := inetPton6_inetNtop6 addr
  rw [h] at hread
  cases hread

/-- The characters of an address. -/
theorem mem_inetNtop6 {addr : Block UInt8 16} {c : Char} (h : c ∈ (inetNtop6 addr).toList) :
    (hexVal c).isSome ∨ c = '.' ∨ c = ':' := by
  rw [inetNtop6, String.toList_ofList] at h
  rcases mem_intercalate h with h | ⟨text, htext, hc⟩
  · exact .inr (.inr (List.mem_singleton.mp h))
  · exact (mem_addrTexts htext hc).imp_right .inl

end Rtsrv.Client
