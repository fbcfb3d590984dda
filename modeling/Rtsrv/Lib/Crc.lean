import Mathlib.Algebra.CharP.Two
import Mathlib.Algebra.Field.ZMod
import Mathlib.Algebra.Polynomial.Div
import Mathlib.Algebra.Polynomial.Degree.Operations
import Mathlib.RingTheory.Coprime.Lemmas
import Mathlib.Tactic.LinearCombination
import Mathlib.Tactic.Ring

/-!
# Rtsrv.Lib.Crc — reflected cyclic redundancy checks as polynomial remainders

Bits are polynomials over `ZMod 2`, the first bit being the highest coefficient.  A register that
shifts right and xors a constant into itself whenever a one falls out multiplies by `X` modulo the
polynomial `generator poly`; `regPoly_crc` says that the final register is the remainder of the
message.  Two consequences: when two generators give the same check (`remainders_eq_iff`), and that a
burst no longer than the register never goes unnoticed (`crc_ne_of_burst`).
-/

namespace Rtsrv.Lib.Crc

open Polynomial

/-! ### Bits as polynomials -/

/-- A bit as an element of the field with two elements. -/
def bit (b : Bool) : ZMod 2 := if b then 1 else 0

@[simp] theorem bit_false : bit false = 0 := rfl

@[simp] theorem bit_true : bit true = 1 := rfl

theorem bit_xor (a b : Bool) : bit (a ^^ b) = bit a + bit b := by
  cases a <;> cases b <;> rfl

/-- The polynomial of a bit sequence, the first bit in front of the highest power. -/
noncomputable def ofBits : List Bool → (ZMod 2)[X]
  | [] => 0
  | b :: bs => C (bit b) * X ^ bs.length + ofBits bs

@[simp] theorem ofBits_nil : ofBits [] = 0 := rfl

theorem ofBits_append (as bs : List Bool) :
    ofBits (as ++ bs) = ofBits as * X ^ bs.length + ofBits bs := by
  induction as with
  | nil => simp
  | cons a as ih =>
    rw [List.cons_append, ofBits, ofBits, ih, List.length_append, pow_add]
    ring

theorem ofBits_replicate_false (n : ℕ) : ofBits (List.replicate n false) = 0 := by
  induction n with
  | zero => rfl
  | succ n ih => simp [List.replicate_succ, ofBits, ih]

theorem ofBits_xor {as bs : List Bool} (h : as.length = bs.length) :
    ofBits (List.zipWith xor as bs) = ofBits as + ofBits bs := by
  induction as generalizing bs with
  | nil =>
    obtain rfl := List.length_eq_zero_iff.mp h.symm
    simp
  | cons a as ih =>
    obtain ⟨b, bs, rfl⟩ := List.exists_cons_of_length_eq_add_one h.symm
    have hlen : as.length = bs.length := by simpa using h
    rw [List.zipWith_cons_cons, ofBits, ofBits, ofBits, ih hlen, List.length_zipWith, hlen,
      Nat.min_self, bit_xor, C_add]
    ring

theorem degree_ofBits_lt (bs : List Bool) : (ofBits bs).degree < bs.length := by
  induction bs with
  | nil => simp
  | cons b bs ih =>
    have hlt : (bs.length : WithBot ℕ) < (b :: bs).length := by
      rw [List.length_cons]
      exact_mod_cast Nat.lt_succ_self bs.length
    have hhead : (C (bit b) * X ^ bs.length).degree < ((b :: bs).length : WithBot ℕ) :=
      lt_of_le_of_lt (degree_C_mul_X_pow_le _ _) hlt
    exact lt_of_le_of_lt (degree_add_le _ _) (max_lt hhead (ih.trans hlt))

/-- The zero polynomial has zero bits only. -/
theorem ofBits_eq_zero {bs : List Bool} (h : ofBits bs = 0) : true ∉ bs := by
  induction bs with
  | nil => simp
  | cons b bs ih =>
    have hcoeff : (ofBits bs).coeff bs.length = 0 :=
      coeff_eq_zero_of_degree_lt (degree_ofBits_lt bs)
    have hb : bit b = 0 := by
      have h0 := congrArg (fun p => p.coeff bs.length) h
      simpa [ofBits, hcoeff] using h0
    rcases b with _ | _
    · rw [ofBits, bit_false, C_0, zero_mul, zero_add] at h
      simpa using ih h
    · exact absurd hb (by decide)

/-! ### The bits of a word -/

/-- The bits of a word, least significant first. -/
def bits {w : ℕ} (r : BitVec w) : List Bool := (List.range w).map r.getLsbD

@[simp] theorem bits_length {w : ℕ} (r : BitVec w) : (bits r).length = w := by simp [bits]

theorem bits_xor {w : ℕ} (a b : BitVec w) : bits (a ^^^ b) = List.zipWith xor (bits a) (bits b) := by
  rw [bits, bits, bits, List.zipWith_map, List.zipWith_self]
  exact List.map_congr_left fun i _ => BitVec.getLsbD_xor

theorem bits_zero (w : ℕ) : bits (0 : BitVec w) = List.replicate w false := by
  refine List.ext_getElem (by simp) fun i h1 h2 => ?_
  simp [bits]

/-- A shift to the right drops the first bit and appends a zero. -/
theorem bits_shift {w : ℕ} (r : BitVec (w + 1)) :
    ∃ t, bits r = r.getLsbD 0 :: t ∧ bits (r >>> 1) = t ++ [false] := by
  refine ⟨(List.range w).map fun i => r.getLsbD (i + 1), ?_, ?_⟩
  · rw [bits, List.range_succ_eq_map, List.map_cons, List.map_map]
    rfl
  · rw [bits, List.range_succ, List.map_append]
    simp [Nat.add_comm 1]

/-- A wider word has zeros behind the bits. -/
theorem bits_setWidth {k : ℕ} (w : ℕ) (hk : k ≤ w) (b : BitVec k) :
    bits (b.setWidth w) = bits b ++ List.replicate (w - k) false := by
  refine List.ext_getElem (by simp; omega) fun i h1 h2 => ?_
  rw [bits_length] at h1
  rw [List.getElem_append]
  split_ifs with hi
  · rw [bits_length] at hi
    simp [bits, h1]
  · rw [bits_length] at hi
    simp [bits, BitVec.getLsbD_of_ge b i (by omega)]

/-! ### The register -/

/-- The polynomial of a register: its low bit is the highest coefficient. -/
noncomputable def regPoly {w : ℕ} (r : BitVec w) : (ZMod 2)[X] := ofBits (bits r)

/-- The divisor of a register that xors `poly` into itself. -/
noncomputable def generator {w : ℕ} (poly : BitVec w) : (ZMod 2)[X] := X ^ w + regPoly poly

/-- Shift one bit out; when it is set, xor the constant in. -/
def shiftStep {w : ℕ} (poly r : BitVec w) : BitVec w :=
  if r.getLsbD 0 then (r >>> 1) ^^^ poly else r >>> 1

/-- Xor a block of `k` bits into the low end and shift it out. -/
def feed {w k : ℕ} (poly r : BitVec w) (b : BitVec k) : BitVec w :=
  (shiftStep poly)^[k] (r ^^^ b.setWidth w)

/-- The check of a sequence of blocks, from an empty register. -/
def crc {w k : ℕ} (poly : BitVec w) (data : List (BitVec k)) : BitVec w :=
  data.foldl (feed poly) 0

/-- The message: the bits of the blocks one after the other. -/
def messageBits {k : ℕ} (data : List (BitVec k)) : List Bool := data.flatMap bits

noncomputable def messagePoly {k : ℕ} (data : List (BitVec k)) : (ZMod 2)[X] :=
  ofBits (messageBits data)

section Register

variable {w k : ℕ}

theorem degree_regPoly_lt (r : BitVec w) : (regPoly r).degree < w := by
  have h := degree_ofBits_lt (bits r)
  rwa [bits_length] at h

theorem regPoly_xor (a b : BitVec w) : regPoly (a ^^^ b) = regPoly a + regPoly b := by
  rw [regPoly, bits_xor, ofBits_xor (by simp)]
  rfl

theorem regPoly_zero : regPoly (0 : BitVec w) = 0 := by
  rw [regPoly, bits_zero, ofBits_replicate_false]

theorem regPoly_injective : Function.Injective (regPoly (w := w)) := by
  intro a b h
  have hzero : regPoly (a ^^^ b) = 0 := by
    rw [regPoly_xor, h]
    exact CharTwo.add_self_eq_zero _
  refine BitVec.eq_of_getLsbD_eq fun i hi => ?_
  have hnot : (a ^^^ b).getLsbD i ≠ true := fun htrue =>
    ofBits_eq_zero hzero (List.mem_map.mpr ⟨i, List.mem_range.mpr hi, htrue⟩)
  rw [BitVec.getLsbD_xor] at hnot
  simpa using hnot

theorem generator_monic (poly : BitVec w) : (generator poly).Monic :=
  monic_X_pow_add (degree_regPoly_lt poly)

theorem degree_generator (poly : BitVec w) : (generator poly).degree = w := by
  rw [generator, degree_add_eq_left_of_degree_lt] <;> rw [degree_X_pow]
  exact degree_regPoly_lt poly

/-- A step multiplies by `X` and subtracts the generator when a one falls out. -/
theorem shiftStep_poly (poly : BitVec w) (hw : 0 < w) (r : BitVec w) :
    X * regPoly r = C (bit (r.getLsbD 0)) * generator poly + regPoly (shiftStep poly r) := by
  obtain ⟨n, rfl⟩ : ∃ n, w = n + 1 := ⟨w - 1, by omega⟩
  obtain ⟨t, hr, hshift⟩ := bits_shift r
  have hlen : t.length = n := by
    have h := congrArg List.length hr
    simpa using h.symm
  have hreg : X * regPoly r = C (bit (r.getLsbD 0)) * X ^ (n + 1) + regPoly (r >>> 1) := by
    rw [regPoly, regPoly, hr, hshift, ofBits_append, ofBits, hlen]
    simp [ofBits, pow_succ]
    ring
  rw [hreg, shiftStep, generator]
  rcases r.getLsbD 0 with _ | _
  · simp
  · have hcancel : regPoly poly + regPoly poly = 0 := CharTwo.add_self_eq_zero _
    simp only [bit_true, C_1, if_true, regPoly_xor]
    linear_combination -hcancel

theorem shiftStep_iterate (poly : BitVec w) (hw : 0 < w) (n : ℕ) (r : BitVec w) :
    generator poly ∣ X ^ n * regPoly r - regPoly ((shiftStep poly)^[n] r) := by
  induction n generalizing r with
  | zero => simp
  | succ n ih =>
    have hstep := shiftStep_poly poly hw r
    have hsplit : X ^ (n + 1) * regPoly r - regPoly ((shiftStep poly)^[n + 1] r) =
        generator poly * (X ^ n * C (bit (r.getLsbD 0))) +
          (X ^ n * regPoly (shiftStep poly r) -
            regPoly ((shiftStep poly)^[n] (shiftStep poly r))) := by
      rw [Function.iterate_succ_apply]
      linear_combination X ^ n * hstep
    rw [hsplit]
    exact dvd_add (dvd_mul_right _ _) (ih (shiftStep poly r))

/-- Feeding a block appends its bits to the message. -/
theorem feed_poly (poly : BitVec w) (hw : 0 < w) (hk : k ≤ w) (r : BitVec w) (b : BitVec k) :
    generator poly ∣ X ^ k * regPoly r + X ^ w * ofBits (bits b) - regPoly (feed poly r b) := by
  have hb : regPoly (b.setWidth w) = ofBits (bits b) * X ^ (w - k) := by
    rw [regPoly, bits_setWidth w hk, ofBits_append, ofBits_replicate_false, List.length_replicate,
      add_zero]
  have hpow : (X : (ZMod 2)[X]) ^ w = X ^ k * X ^ (w - k) := by
    rw [← pow_add, Nat.add_sub_cancel' hk]
  have h := shiftStep_iterate poly hw k (r ^^^ b.setWidth w)
  rw [regPoly_xor, hb] at h
  rw [hpow]
  have hsum : X ^ k * regPoly r + X ^ k * X ^ (w - k) * ofBits (bits b) =
      X ^ k * (regPoly r + ofBits (bits b) * X ^ (w - k)) := by ring
  rwa [hsum]

theorem messagePoly_concat (data : List (BitVec k)) (b : BitVec k) :
    messagePoly (data ++ [b]) = messagePoly data * X ^ k + ofBits (bits b) := by
  rw [messagePoly, messageBits, List.flatMap_append, ofBits_append]
  simp [messagePoly, messageBits]

theorem crc_congr (poly : BitVec w) (hw : 0 < w) (hk : k ≤ w) (data : List (BitVec k)) :
    generator poly ∣ X ^ w * messagePoly data - regPoly (crc poly data) := by
  induction data using List.reverseRecOn with
  | nil =>
    show _ ∣ X ^ w * ofBits [] - regPoly 0
    rw [regPoly_zero, ofBits_nil, mul_zero, sub_zero]
    exact dvd_zero _
  | append_singleton data b ih =>
    have hfeed := feed_poly poly hw hk (crc poly data) b
    have hcrc : crc poly (data ++ [b]) = feed poly (crc poly data) b := by
      rw [crc, List.foldl_append]
      rfl
    have hsplit : X ^ w * messagePoly (data ++ [b]) - regPoly (crc poly (data ++ [b])) =
        X ^ k * (X ^ w * messagePoly data - regPoly (crc poly data)) +
          (X ^ k * regPoly (crc poly data) + X ^ w * ofBits (bits b) -
            regPoly (feed poly (crc poly data) b)) := by
      rw [messagePoly_concat, hcrc]
      ring
    rw [hsplit]
    exact dvd_add (ih.mul_left _) hfeed

/-- **The register holds the remainder of the message**, shifted by the width of the register. -/
theorem regPoly_crc (poly : BitVec w) (hw : 0 < w) (hk : k ≤ w) (data : List (BitVec k)) :
    regPoly (crc poly data) = (X ^ w * messagePoly data) %ₘ generator poly := by
  have hmonic := generator_monic poly
  rw [modByMonic_eq_of_dvd_sub hmonic (crc_congr poly hw hk data)]
  refine ((modByMonic_eq_self_iff hmonic).mpr ?_).symm
  rw [degree_generator]
  exact degree_regPoly_lt _

/-! ### Bursts -/

/-- `data` with the bits of `e` flipped. -/
def corrupt (data e : List (BitVec k)) : List (BitVec k) := List.zipWith (· ^^^ ·) data e

/-- Some bit is set, and all that are lie within `n` consecutive ones. -/
def Burst (n : ℕ) (e : List (BitVec k)) : Prop :=
  ∃ lead burst trail, messageBits e =
      List.replicate lead false ++ (burst ++ List.replicate trail false) ∧
    burst.length ≤ n ∧ true ∈ burst

theorem messageBits_length (data : List (BitVec k)) : (messageBits data).length = data.length * k := by
  rw [messageBits, List.length_flatMap]
  simp

theorem messageBits_corrupt {data e : List (BitVec k)} (h : data.length = e.length) :
    messageBits (corrupt data e) = List.zipWith xor (messageBits data) (messageBits e) := by
  induction data generalizing e with
  | nil => rfl
  | cons b data ih =>
    obtain ⟨c, e, rfl⟩ := List.exists_cons_of_length_eq_add_one h.symm
    have hlen : data.length = e.length := by simpa using h
    have htail := ih hlen
    simp only [messageBits, corrupt, List.zipWith_cons_cons, List.flatMap_cons] at htail ⊢
    rw [List.zipWith_append (by simp), bits_xor, htail]

theorem messagePoly_corrupt {data e : List (BitVec k)} (h : data.length = e.length) :
    messagePoly (corrupt data e) = messagePoly data + messagePoly e := by
  rw [messagePoly, messageBits_corrupt h, ofBits_xor]
  · rfl
  · rw [messageBits_length, messageBits_length, h]

/-- A generator with a constant term has no factor `X`. -/
theorem generator_coprime {poly : BitVec w} (hw : 0 < w) (htop : poly.getLsbD (w - 1) = true) :
    IsCoprime (generator poly) X := by
  have hlast : (regPoly poly).coeff 0 = 1 := by
    obtain ⟨n, rfl⟩ : ∃ n, w = n + 1 := ⟨w - 1, by omega⟩
    rw [Nat.add_sub_cancel] at htop
    rw [regPoly, bits, List.range_succ, List.map_append, List.map_singleton, htop, ofBits_append]
    simp [ofBits]
  have hcoeff : (generator poly).coeff 0 = 1 := by
    rw [generator, coeff_add, hlast, coeff_X_pow, if_neg (by omega), zero_add]
  have hsplit := divX_mul_X_add (generator poly)
  rw [hcoeff, C_1] at hsplit
  exact ⟨1, -divX (generator poly), by linear_combination -hsplit⟩

/-- **A burst no longer than the register changes the check.** -/
theorem crc_ne_of_burst {poly : BitVec w} (hw : 0 < w) (hk : k ≤ w) (htop : poly.getLsbD (w - 1) = true)
    {data e : List (BitVec k)} (hlen : data.length = e.length) (he : Burst w e) :
    crc poly (corrupt data e) ≠ crc poly data := by
  intro heq
  obtain ⟨lead, burst, trail, hbits, hshort, htrue⟩ := he
  have herr : messagePoly e = ofBits burst * X ^ trail := by
    rw [messagePoly, hbits, ofBits_append, ofBits_append, ofBits_replicate_false,
      ofBits_replicate_false, List.length_replicate]
    ring
  have hdvd : generator poly ∣ X ^ (w + trail) * ofBits burst := by
    have h1 := crc_congr poly hw hk (corrupt data e)
    have h2 := crc_congr poly hw hk data
    rw [heq, messagePoly_corrupt hlen, herr] at h1
    have hdiff : X ^ (w + trail) * ofBits burst =
        X ^ w * (messagePoly data + ofBits burst * X ^ trail) - regPoly (crc poly data) -
          (X ^ w * messagePoly data - regPoly (crc poly data)) := by
      rw [pow_add]
      ring
    rw [hdiff]
    exact dvd_sub h1 h2
  -- the powers of `X` cancel, and the burst is of lower degree than the generator
  have hburst := ((generator_coprime hw htop).pow_right).dvd_of_dvd_mul_left hdvd
  have hdeg : (ofBits burst).degree < (generator poly).degree := by
    rw [degree_generator]
    exact (degree_ofBits_lt burst).trans_le (by exact_mod_cast hshort)
  exact ofBits_eq_zero (eq_zero_of_dvd_of_degree_lt hburst hdeg) htrue

end Register

/-! ### Two generators -/

/-- **When two generators give the same check**: their common multiple leaves a remainder that is
already reduced. -/
theorem remainders_eq_iff {g g' l : (ZMod 2)[X]} (hg : g.Monic) (hg' : g'.Monic) (hl : l.Monic)
    (hdeg : g'.degree = g.degree) (hle : g.degree ≤ l.degree)
    (hlcm : ∀ p, l ∣ p ↔ g ∣ p ∧ g' ∣ p) (f : (ZMod 2)[X]) :
    f %ₘ g = f %ₘ g' ↔ (f %ₘ l).degree < g.degree := by
  have hself : ∀ {q : (ZMod 2)[X]}, q ∣ f - f %ₘ q := fun {q} =>
    ⟨f /ₘ q, by rw [sub_eq_iff_eq_add, add_comm, modByMonic_add_div]⟩
  have hof : ∀ {q r : (ZMod 2)[X]}, q.Monic → q ∣ f - r → r.degree < q.degree → f %ₘ q = r := by
    intro q r hq hdvd hlt
    rw [modByMonic_eq_of_dvd_sub hq hdvd, (modByMonic_eq_self_iff hq).mpr hlt]
  refine ⟨fun h => ?_, fun h => ?_⟩
  · have hlt : (f %ₘ g).degree < g.degree := degree_modByMonic_lt f hg
    have hboth : l ∣ f - f %ₘ g := (hlcm _).mpr ⟨hself, by rw [h]; exact hself⟩
    rw [hof hl hboth (hlt.trans_le hle)]
    exact hlt
  · obtain ⟨hdvd, hdvd'⟩ := (hlcm (f - f %ₘ l)).mp hself
    rw [hof hg hdvd h, hof hg' hdvd' (by rw [hdeg]; exact h)]

end Rtsrv.Lib.Crc
