import Mathlib.Data.Nat.ModEq

/-!
# Rtsrv.Lib.OnesComplement — sums with the carry added back in

Words run from 0 to `m`, the word of all ones.  A carry out of a word is added back in at its lower end, so
a sum keeps its residue modulo `m`; zero and `m` are the two words of one residue, and only a sum of zeros
is zero.  `Folds m n r` says that `r` is the word that the number `n` folds to: there is one (`Folds.unique`).
-/

namespace Rtsrv.Lib

variable (m : ℕ)

/-- The part above a word, added to the word. -/
def foldCarry (n : ℕ) : ℕ := n / (m + 1) + n % (m + 1)

/-- The sum of words, with the carry of each addition added back in. -/
def onesSum (ws : List ℕ) : ℕ := ws.foldl (fun s w => foldCarry m (s + w)) 0

/-- `n` folds to the word `r`. -/
structure Folds (n r : ℕ) : Prop where
  le : r ≤ m
  modEq : r ≡ n [MOD m]
  zero : r = 0 ↔ n = 0

variable {m}

theorem foldCarry_modEq (n : ℕ) : foldCarry m n ≡ n [MOD m] := by
  have hsplit : foldCarry m n + m * (n / (m + 1)) = n := by
    calc foldCarry m n + m * (n / (m + 1)) = (m + 1) * (n / (m + 1)) + n % (m + 1) := by
          rw [foldCarry, Nat.add_mul, Nat.one_mul]
          omega
      _ = n := Nat.div_add_mod n (m + 1)
  calc foldCarry m n ≡ foldCarry m n + m * (n / (m + 1)) [MOD m] := by simp [Nat.ModEq]
    _ = n := hsplit

theorem foldCarry_eq_zero {n : ℕ} : foldCarry m n = 0 ↔ n = 0 := by
  have hsplit := Nat.div_add_mod n (m + 1)
  unfold foldCarry
  constructor
  · intro h
    obtain ⟨hdiv, hmod⟩ := Nat.add_eq_zero_iff.mp h
    rw [← hsplit, hdiv, hmod, Nat.mul_zero]
  · rintro rfl
    rw [Nat.zero_div, Nat.zero_mod]

/-- One carry is enough for the sum of two words. -/
theorem foldCarry_le {n : ℕ} (h : n ≤ 2 * m) : foldCarry m n ≤ m := by
  unfold foldCarry
  by_cases hn : n < m + 1
  · rw [Nat.div_eq_of_lt hn, Nat.mod_eq_of_lt hn]
    omega
  · have hdiv : n / (m + 1) = 1 := Nat.div_eq_of_lt_le (by omega) (by omega)
    have hsplit := Nat.div_add_mod n (m + 1)
    rw [hdiv] at hsplit ⊢
    omega

namespace Folds

variable {n r r' : ℕ}

theorem eq_of_le (h : Folds m n r) (h' : Folds m n r') (hle : r ≤ r') : r = r' := by
  have hdvd : m ∣ r' - r := (Nat.modEq_iff_dvd' hle).mp (h.modEq.trans h'.modEq.symm)
  by_contra hne
  -- Two words of one residue are 0 and `m`, and zero folds from zero alone.
  have hge : m ≤ r' - r := Nat.le_of_dvd (by omega) hdvd
  have hle' := h'.le
  have hr : r = 0 := by omega
  have hr' : r' = 0 := h'.zero.mpr (h.zero.mp hr)
  omega

/-- A number folds to one word. -/
theorem unique (h : Folds m n r) (h' : Folds m n r') : r = r' := by
  rcases Nat.le_total r r' with hle | hle
  · exact h.eq_of_le h' hle
  · exact (h'.eq_of_le h hle).symm

/-- A carry that is added back in does not change what a number folds to. -/
theorem of_foldCarry (h : Folds m (foldCarry m n) r) : Folds m n r where
  le := h.le
  modEq := h.modEq.trans (foldCarry_modEq n)
  zero := h.zero.trans foldCarry_eq_zero

theorem of_le (h : n ≤ m) : Folds m n n := ⟨h, rfl, Iff.rfl⟩

/-- A number of at most two words folds in one step. -/
theorem once (h : n ≤ 2 * m) : Folds m n (foldCarry m n) := (of_le (foldCarry_le h)).of_foldCarry

/-- With the complement of what it folds to, a number folds to all ones. -/
theorem complement (h : Folds m n r) (hm : 0 < m) : Folds m (n + (m - r)) m where
  le := Nat.le_refl m
  modEq := by
    have hle := h.le
    calc m = r + (m - r) := by omega
      _ ≡ n + (m - r) [MOD m] := h.modEq.add_right _
  zero := by
    have hzero := h.zero
    omega

/-- Folding to all ones is kept by a factor, as long as the product is not zero. -/
theorem ones_of_mul {c k : ℕ} (h : Folds m n m) (hm : 0 < m) (hk : k ≡ c * n [MOD m]) (hpos : 0 < k) :
    Folds m k m where
  le := Nat.le_refl m
  modEq := by
    have hn : n ≡ 0 [MOD m] := h.modEq.symm.trans (Nat.modEq_zero_iff_dvd.mpr (dvd_refl m))
    have hk0 : k ≡ 0 [MOD m] := hk.trans (hn.mul_left c)
    exact (Nat.modEq_zero_iff_dvd.mpr (dvd_refl m)).trans hk0.symm
  zero := by omega

end Folds

/-- The sum of words is what their sum as numbers folds to. -/
theorem folds_onesSum {ws : List ℕ} (hws : ∀ w ∈ ws, w ≤ m) : Folds m ws.sum (onesSum m ws) := by
  have hrun : ∀ (ws : List ℕ) (n s : ℕ), (∀ w ∈ ws, w ≤ m) → Folds m n s →
      Folds m (n + ws.sum) (ws.foldl (fun s w => foldCarry m (s + w)) s) := by
    intro ws
    induction ws with
    | nil => exact fun n s _ hs => hs
    | cons w ws ih =>
      intro n s hws hs
      obtain ⟨hw, hws⟩ := List.forall_mem_cons.mp hws
      have hle := hs.le
      have hnext : Folds m (n + w) (foldCarry m (s + w)) := by
        have hsum : Folds m (s + w) (foldCarry m (s + w)) := Folds.once (by omega)
        refine ⟨hsum.le, hsum.modEq.trans (hs.modEq.add_right w), hsum.zero.trans ?_⟩
        have hzero := hs.zero
        omega
      rw [List.sum_cons, ← Nat.add_assoc]
      exact ih (n + w) _ hws hnext
  rw [← Nat.zero_add ws.sum]
  exact hrun ws 0 0 hws (Folds.of_le (Nat.zero_le m))

end Rtsrv.Lib
