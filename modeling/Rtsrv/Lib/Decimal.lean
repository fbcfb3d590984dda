import Mathlib.Algebra.Group.Nat.Defs
import Mathlib.Data.Int.Notation
import Mathlib.Data.List.Induction
import Mathlib.Data.List.TakeWhile
import Mathlib.Data.Nat.Notation

/-!
# Rtsrv.Lib.Decimal — decimal numbers in text, as the C library reads them

`strtol` skips white space, takes a sign and the digits behind it, and ignores the rest.  `std::stoi` and
`std::stoul` throw where there is no digit and where the number does not fit; a minus sign does not keep
`std::stoul` from a result.  A text is a list of characters.
-/

namespace Rtsrv.Lib

/-- A string up to its terminating zero. -/
def cStr (text : List Char) : List Char := text.takeWhile fun c => c ≠ Char.ofNat 0

theorem cStr_eq_self {text : List Char} (h : Char.ofNat 0 ∉ text) : cStr text = text :=
  List.takeWhile_eq_self_iff.mpr fun _ hc => decide_eq_true fun hzero => h (hzero ▸ hc)

/-- `isspace` in the C locale. -/
def isspace (c : Char) : Bool := c = ' ' || ('\t' ≤ c && c ≤ '\r')

/-- The sign and the number that `strtol` converts in base ten, before either is looked at; `none` where no
digit is found. -/
def strtol (text : List Char) : Option (Bool × ℕ) :=
  let subject := text.dropWhile isspace
  let minus := subject.head? = some '-'
  let sign := minus ∨ subject.head? = some '+'
  let digits := (if sign then subject.tail else subject).takeWhile Char.isDigit
  if digits = [] then none else some (minus, Nat.ofDigitChars 10 digits 0)

inductive StoError where
  | invalid_argument
  | out_of_range
  deriving DecidableEq, Repr

def stoi (text : List Char) : Except StoError ℤ :=
  match strtol text with
  | none => .error .invalid_argument
  | some (minus, n) =>
    let value : ℤ := if minus then -n else n
    if -2147483648 ≤ value ∧ value ≤ 2147483647 then .ok value else .error .out_of_range

/-- With a minus sign the number is negated in 64 bits. -/
def stoul (text : List Char) : Except StoError UInt64 :=
  match strtol text with
  | none => .error .invalid_argument
  | some (minus, n) =>
    if 2 ^ 64 ≤ n then .error .out_of_range
    else .ok (if minus then -n.toUInt64 else n.toUInt64)

/-! ### Numerals -/

/-- One digit or more and nothing else. -/
def IsDecimal (ds : List Char) : Prop := ds ≠ [] ∧ ∀ c ∈ ds, c.isDigit

instance (ds : List Char) : Decidable (IsDecimal ds) :=
  decidable_of_iff (ds ≠ [] ∧ ds.all Char.isDigit = true) (and_congr_right' List.all_eq_true)

/-- The number that a numeral stands for. -/
abbrev decimalValue (ds : List Char) : ℕ := Nat.ofDigitChars 10 ds 0

theorem isDecimal_toDigits (n : ℕ) : IsDecimal (Nat.toDigits 10 n) :=
  ⟨Nat.toDigits_ne_nil, fun _ hc => Nat.isDigit_of_mem_toDigits (by decide) (by decide) hc⟩

theorem isDigit_not_isspace {c : Char} (h : c.isDigit) : isspace c = false := by
  simp only [Char.isDigit, Bool.and_eq_true, decide_eq_true_eq, ge_iff_le, UInt32.le_iff_toNat_le] at h
  obtain ⟨hlow, -⟩ := h
  have hlow : 48 ≤ c.val.toNat := hlow
  simp only [isspace, Bool.or_eq_false_iff, decide_eq_false_iff_not, Bool.and_eq_false_iff]
  refine ⟨?_, .inr fun hle => ?_⟩
  · rintro rfl
    exact absurd hlow (by decide)
  · have hle : c.val.toNat ≤ 13 := UInt32.le_iff_toNat_le.mp hle
    omega

/-- A text with a number in it: white space, perhaps a sign, the digits, and what stands behind them. -/
structure Numeral (text blanks : List Char) (sign : Option Char) (ds rest : List Char) : Prop where
  text_eq : text = blanks ++ (sign.toList ++ (ds ++ rest))
  blanks : ∀ c ∈ blanks, isspace c
  sign : ∀ c ∈ sign, c = '-' ∨ c = '+'
  digits : IsDecimal ds
  rest : ∀ c ∈ rest.head?, c.isDigit = false

theorem takeWhile_digits {ds rest : List Char} (hds : ∀ c ∈ ds, c.isDigit)
    (hrest : ∀ c ∈ rest.head?, c.isDigit = false) : (ds ++ rest).takeWhile Char.isDigit = ds := by
  rw [List.takeWhile_append_of_pos hds]
  rcases rest with _ | ⟨c, rest⟩
  · rw [List.takeWhile_nil, List.append_nil]
  · have hc : c.isDigit = false := hrest c rfl
    rw [List.takeWhile_cons_of_neg (by simp [hc]), List.append_nil]

theorem strtol_numeral {text blanks ds rest : List Char} {sign : Option Char}
    (h : Numeral text blanks sign ds rest) :
    strtol text = some (decide (sign = some '-'), decimalValue ds) := by
  obtain ⟨rfl, hblanks, hsign, ⟨hne, hdigits⟩, hrest⟩ := h
  have htake := takeWhile_digits hdigits hrest
  rw [strtol, List.dropWhile_append_of_pos hblanks]
  cases sign with
  | none =>
    obtain ⟨d, ds, rfl⟩ := List.exists_cons_of_ne_nil hne
    have hd : d.isDigit := hdigits d List.mem_cons_self
    have hminus : d ≠ '-' := by
      rintro rfl
      exact absurd hd (by decide)
    have hplus : d ≠ '+' := by
      rintro rfl
      exact absurd hd (by decide)
    have hspace : (d :: (ds ++ rest)).dropWhile isspace = d :: (ds ++ rest) :=
      List.dropWhile_cons_of_neg (by simp [isDigit_not_isspace hd])
    rw [List.cons_append] at htake
    simp [hspace, hminus, hplus, htake]
  | some c =>
    rcases hsign c rfl with rfl | rfl
    · have hspace : ('-' :: (ds ++ rest)).dropWhile isspace = '-' :: (ds ++ rest) :=
        List.dropWhile_cons_of_neg (by decide)
      simp [hspace, htake, hne]
    · have hspace : ('+' :: (ds ++ rest)).dropWhile isspace = '+' :: (ds ++ rest) :=
        List.dropWhile_cons_of_neg (by decide)
      simp [hspace, htake, hne]

/-- The number that `strtol` finds, with all that it skips. -/
theorem strtol_eq_some {text : List Char} {minus : Bool} {n : ℕ} : strtol text = some (minus, n) ↔
    ∃ blanks sign ds rest, Numeral text blanks sign ds rest ∧ minus = decide (sign = some '-') ∧
      n = decimalValue ds := by
  constructor
  · intro h
    have hcut : text = text.takeWhile isspace ++ text.dropWhile isspace :=
      List.takeWhile_append_dropWhile.symm
    have hblanks : ∀ c ∈ text.takeWhile isspace, isspace c := fun _ => List.mem_takeWhile_imp
    have hdigits : ∀ s : List Char, ∀ c ∈ s.takeWhile Char.isDigit, c.isDigit :=
      fun _ _ => List.mem_takeWhile_imp
    have hrest : ∀ s : List Char, ∀ c ∈ (s.dropWhile Char.isDigit).head?, c.isDigit = false := by
      intro s c hc
      have hhead := List.head?_dropWhile_not Char.isDigit s
      rw [Option.mem_def.mp hc] at hhead
      simpa using hhead
    rw [strtol] at h
    generalize text.dropWhile isspace = subject at h hcut
    generalize text.takeWhile isspace = blanks at hblanks hcut
    rcases subject with _ | ⟨c, s⟩
    · simp at h
    by_cases hc : c = '-' ∨ c = '+'
    · have hbody : (if (c :: s).head? = some '-' ∨ (c :: s).head? = some '+' then (c :: s).tail
          else c :: s) = s := if_pos (by simpa using hc)
      rw [hbody] at h
      split_ifs at h with hne
      obtain ⟨rfl, rfl⟩ := Prod.mk.inj (Option.some.inj h)
      refine ⟨blanks, some c, _, s.dropWhile Char.isDigit,
        ⟨?_, hblanks, ?_, ⟨hne, hdigits s⟩, hrest s⟩, rfl, rfl⟩
      · rw [List.takeWhile_append_dropWhile]
        exact hcut
      · simpa using hc
    · have hbody : (if (c :: s).head? = some '-' ∨ (c :: s).head? = some '+' then (c :: s).tail
          else c :: s) = c :: s := if_neg (by simpa using hc)
      rw [hbody] at h
      split_ifs at h with hne
      obtain ⟨rfl, rfl⟩ := Prod.mk.inj (Option.some.inj h)
      refine ⟨blanks, none, _, (c :: s).dropWhile Char.isDigit,
        ⟨?_, hblanks, by simp, ⟨hne, hdigits _⟩, hrest _⟩, ?_, rfl⟩
      · rw [List.takeWhile_append_dropWhile]
        exact hcut
      · have hminus : c ≠ '-' := fun h => hc (.inl h)
        simp [hminus]
  · rintro ⟨blanks, sign, ds, rest, hnum, rfl, rfl⟩
    exact strtol_numeral hnum
/-- Digits alone are a number with nothing around it. -/
theorem numeral_decimal {ds : List Char} (h : IsDecimal ds) : Numeral ds [] none ds [] :=
  ⟨by simp, by simp, by simp, h, by simp⟩

theorem numeral_of_decimal {text blanks ds rest : List Char} {sign : Option Char}
    (h : Numeral text blanks sign ds rest) (htext : IsDecimal text) :
    blanks = [] ∧ sign = none ∧ rest = [] := by
  obtain ⟨rfl, hblanks, hsign, -, hrest⟩ := h
  obtain ⟨-, hdigits⟩ := htext
  refine ⟨?_, ?_, ?_⟩
  · refine List.eq_nil_iff_forall_not_mem.mpr fun c hc => ?_
    have hspace := isDigit_not_isspace (hdigits c (by simp [hc]))
    rw [hblanks c hc] at hspace
    cases hspace
  · cases sign with
    | none => rfl
    | some c =>
      have hc : c.isDigit := hdigits c (by simp)
      rcases hsign c rfl with rfl | rfl
      · exact absurd hc (by decide)
      · exact absurd hc (by decide)
  · cases rest with
    | nil => rfl
    | cons c rest =>
      have hc := hrest c rfl
      rw [hdigits c (by simp)] at hc
      cases hc

/-- A numeral is read whole. -/
theorem strtol_decimal {ds : List Char} (h : IsDecimal ds) : strtol ds = some (false, decimalValue ds) :=
  strtol_numeral (numeral_decimal h)

/-- The value of digits behind a sign. -/
def signedValue (sign : Option Char) (ds : List Char) : ℤ :=
  if sign = some '-' then -(decimalValue ds : ℤ) else decimalValue ds

theorem stoi_numeral {text blanks ds rest : List Char} {sign : Option Char}
    (h : Numeral text blanks sign ds rest) : stoi text =
      if -2147483648 ≤ signedValue sign ds ∧ signedValue sign ds ≤ 2147483647 then
        .ok (signedValue sign ds) else .error .out_of_range := by
  have hvalue : (if decide (sign = some '-') then -(decimalValue ds : ℤ) else decimalValue ds) =
      signedValue sign ds := by simp [signedValue]
  rw [stoi, strtol_numeral h]
  dsimp only
  rw [hvalue]

theorem stoi_ok {text : List Char} {value : ℤ} : stoi text = .ok value ↔
    ∃ blanks sign ds rest, Numeral text blanks sign ds rest ∧ value = signedValue sign ds ∧
      -2147483648 ≤ value ∧ value ≤ 2147483647 := by
  constructor
  · intro h
    cases hread : strtol text with
    | none =>
      rw [stoi, hread] at h
      cases h
    | some found =>
      obtain ⟨blanks, sign, ds, rest, hnum, -, -⟩ := strtol_eq_some.mp hread
      rw [stoi_numeral hnum] at h
      split_ifs at h with hfits
      obtain rfl := Except.ok.inj h
      exact ⟨blanks, sign, ds, rest, hnum, rfl, hfits⟩
  · rintro ⟨blanks, sign, ds, rest, hnum, rfl, hfits⟩
    rw [stoi_numeral hnum, if_pos hfits]

theorem stoul_decimal {ds : List Char} (h : IsDecimal ds) (hfits : decimalValue ds < 2 ^ 64) :
    stoul ds = .ok (decimalValue ds).toUInt64 := by
  rw [stoul, strtol_decimal h]
  exact if_neg (Nat.not_le.mpr hfits)

/-! ### The digits of a number -/

/-- The digits of a number start with a zero only when they are one zero. -/
theorem toDigits_head (n : ℕ) : (Nat.toDigits 10 n).head? = some '0' → n = 0 := by
  induction n using Nat.strongRecOn with
  | ind n ih =>
    by_cases hlt : n < 10
    · rw [Nat.toDigits_of_lt_base hlt]
      simp
    · rw [Nat.toDigits_of_base_le (by decide) (Nat.not_lt.mp hlt), List.head?_append,
        List.head?_eq_some_head Nat.toDigits_ne_nil, Option.some_or,
        ← List.head?_eq_some_head Nat.toDigits_ne_nil]
      intro hhead
      have hzero : n / 10 = 0 := ih (n / 10) (Nat.div_lt_self (by omega) (by decide)) hhead
      omega

theorem isDigit_eq_digitChar {c : Char} (h : c.isDigit) : ∃ n < 10, c = Nat.digitChar n := by
  simp only [Char.isDigit, Bool.and_eq_true, decide_eq_true_eq, ge_iff_le, UInt32.le_iff_toNat_le] at h
  obtain ⟨hlow, hhigh⟩ := h
  have hlow : 48 ≤ c.toNat := hlow
  have hhigh : c.toNat ≤ 57 := hhigh
  refine ⟨c.toNat - 48, by omega, Char.toNat_inj.mp ?_⟩
  rw [Nat.toNat_digitChar_of_lt_ten (by omega)]
  omega

theorem decimalValue_append {ds : List Char} {n : ℕ} (h : n < 10) :
    decimalValue (ds ++ [Nat.digitChar n]) = 10 * decimalValue ds + n := by
  rw [decimalValue, Nat.ofDigitChars_append, Nat.ofDigitChars_cons_digitChar_of_lt_ten h,
    Nat.ofDigitChars_nil]

/-- A numeral that does not start with a zero is not zero. -/
theorem decimalValue_pos {ds : List Char} (h : IsDecimal ds) (hhead : ds.head? ≠ some '0') :
    0 < decimalValue ds := by
  obtain ⟨hne, hdigits⟩ := h
  obtain ⟨d, ds, rfl⟩ := List.exists_cons_of_ne_nil hne
  obtain ⟨n, hn, rfl⟩ := isDigit_eq_digitChar (hdigits d List.mem_cons_self)
  have hpos : n ≠ 0 := by simpa using hhead
  rw [decimalValue, Nat.ofDigitChars_cons_digitChar_of_lt_ten hn, Nat.ofDigitChars_eq_ofDigitChars_zero]
  have hpow : 0 < 10 ^ ds.length := Nat.pow_pos (by decide)
  have hmul : 0 < 10 ^ ds.length * (10 * 0 + n) := Nat.mul_pos hpow (by omega)
  omega

/-- A numeral without leading zeros is what its number is written as. -/
theorem toDigits_decimalValue {ds : List Char} (h : IsDecimal ds)
    (hhead : ds.head? = some '0' → ds.length = 1) : Nat.toDigits 10 (decimalValue ds) = ds := by
  obtain ⟨hne, hdigits⟩ := h
  induction ds using List.reverseRecOn with
  | nil => exact absurd rfl hne
  | append_singleton ds c ih =>
    obtain ⟨n, hn, rfl⟩ := isDigit_eq_digitChar (hdigits c (by simp))
    rw [decimalValue_append hn]
    by_cases hnil : ds = []
    · subst hnil
      rw [decimalValue, Nat.ofDigitChars_nil, Nat.mul_zero, Nat.zero_add, Nat.toDigits_of_lt_base hn]
      rfl
    · have hds : IsDecimal ds := ⟨hnil, fun c hc => hdigits c (List.mem_append_left _ hc)⟩
      have hstart : ds.head? ≠ some '0' := by
        intro hzero
        have hlen := hhead (by rw [List.head?_append, hzero, Option.some_or])
        rw [List.length_append, List.length_singleton] at hlen
        exact hnil (List.eq_nil_of_length_eq_zero (Nat.succ_injective hlen))
      have hpos := decimalValue_pos hds hstart
      rw [← Nat.toDigits_append_toDigits (by decide) hpos hn, Nat.toDigits_of_lt_base hn,
        ih (fun hzero => absurd hzero hstart) hnil hds.2]

end Rtsrv.Lib
