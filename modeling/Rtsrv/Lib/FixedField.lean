import Mathlib.Data.List.DropRight
import Mathlib.Data.Nat.Notation

/-!
# Rtsrv.Lib.FixedField — texts in fields of a fixed size

A text that is copied into a field is cut at the size of the field and filled up behind its end.  What the
field still says is the text in front of the filler: `fixedField_eq_iff` and `trimmed_fixedField`.  A reader
that stops at the first terminator instead stays in the field exactly when there is one
(`readTerminated_eq_some`).
-/

namespace Rtsrv.Lib

variable {α : Type} (z : α)

/-- The first `n` items, filled up with `z`. -/
def fixedField (n : ℕ) (as : List α) : List α := as.take n ++ List.replicate (n - (as.take n).length) z

theorem length_fixedField (n : ℕ) (as : List α) : (fixedField z n as).length = n := by
  rw [fixedField, List.length_append, List.length_replicate, List.length_take]
  omega

variable [DecidableEq α]

/-- The items in front of the filler. -/
def trimmed (as : List α) : List α := as.rdropWhile fun a => a = z

/-- The text can be read back from a field of `n` items. -/
def FitsField (n : ℕ) (as : List α) : Prop := as.length ≤ n ∧ as.getLast? ≠ some z

variable {z}

theorem trimmed_append_replicate (as : List α) (k : ℕ) :
    trimmed z (as ++ List.replicate k z) = trimmed z as := by
  induction k with
  | zero => rw [List.replicate_zero, List.append_nil]
  | succ k ih =>
    rw [List.replicate_succ', ← List.append_assoc, trimmed, List.rdropWhile_concat_pos _ _ _ (by simp)]
    exact ih

theorem trimmed_eq_self {as : List α} (h : as.getLast? ≠ some z) : trimmed z as = as := by
  refine List.rdropWhile_eq_self_iff.mpr fun hne hlast => h ?_
  rw [List.getLast?_eq_some_getLast hne, of_decide_eq_true hlast]

/-- What is trimmed off is filler. -/
theorem trimmed_append_filler (as : List α) :
    as = trimmed z as ++ List.replicate (as.length - (trimmed z as).length) z := by
  have hcut : trimmed z as ++ as.rtakeWhile (fun a => a = z) = as := List.rdropWhile_append_rtakeWhile
  have hfiller : as.rtakeWhile (fun a => a = z) =
      List.replicate (as.rtakeWhile fun a => a = z).length z := by
    refine List.eq_replicate_iff.mpr ⟨rfl, fun a ha => ?_⟩
    simpa using List.mem_rtakeWhile_imp ha
  have hlen := congrArg List.length hcut
  rw [List.length_append] at hlen
  have hcount : as.length - (trimmed z as).length = (as.rtakeWhile fun a => a = z).length := by omega
  rw [hcount, ← hfiller, hcut]

/-- Fields of one size are equal when they are equal in front of the filler. -/
theorem trimmed_inj {as bs : List α} (hlen : as.length = bs.length) :
    trimmed z as = trimmed z bs ↔ as = bs := by
  refine ⟨fun h => ?_, congrArg _⟩
  rw [trimmed_append_filler (z := z) as, trimmed_append_filler (z := z) bs, h, hlen]

theorem trimmed_fixedField (n : ℕ) (as : List α) : trimmed z (fixedField z n as) = trimmed z (as.take n) :=
  trimmed_append_replicate _ _

/-- Two texts have the same field exactly when they agree, up to the filler, in the part that it holds. -/
theorem fixedField_eq_iff {n : ℕ} {as bs : List α} :
    fixedField z n as = fixedField z n bs ↔ trimmed z (as.take n) = trimmed z (bs.take n) := by
  have hlen : (fixedField z n as).length = (fixedField z n bs).length := by
    rw [length_fixedField, length_fixedField]
  rw [← trimmed_inj (z := z) hlen, trimmed_fixedField, trimmed_fixedField]

theorem trimmed_take {n : ℕ} {as : List α} (h : FitsField z n as) : trimmed z (as.take n) = as := by
  rw [List.take_of_length_le h.1, trimmed_eq_self h.2]

/-! ### Reading up to a terminator -/

variable (z)

/-- The items in front of the first `z`; without one the read goes on behind the field. -/
def readTerminated : List α → Option (List α)
  | [] => none
  | a :: as => if a = z then some [] else (a :: ·) <$> readTerminated as

variable {z}

theorem readTerminated_eq_some : ∀ {as s : List α},
    readTerminated z as = some s ↔ z ∉ s ∧ ∃ rest, as = s ++ z :: rest
  | [], s => by simp [readTerminated]
  | a :: as, s => by
    rw [readTerminated]
    split_ifs with ha
    · constructor
      · intro h
        obtain rfl := Option.some.inj h
        exact ⟨List.not_mem_nil, as, by rw [ha]; rfl⟩
      · rintro ⟨hz, rest, hcut⟩
        cases s with
        | nil => rfl
        | cons b s =>
          obtain ⟨rfl, -⟩ := List.cons_eq_cons.mp hcut
          exact absurd (ha ▸ List.mem_cons_self) hz
    · rw [Option.map_eq_map, Option.map_eq_some_iff]
      simp only [readTerminated_eq_some]
      constructor
      · rintro ⟨s, ⟨hz, rest, rfl⟩, rfl⟩
        exact ⟨List.not_mem_cons_of_ne_of_not_mem (Ne.symm ha) hz, rest, rfl⟩
      · rintro ⟨hz, rest, hcut⟩
        cases s with
        | nil => exact absurd (List.cons_eq_cons.mp hcut).1 ha
        | cons b s =>
          obtain ⟨rfl, rfl⟩ := List.cons_eq_cons.mp hcut
          exact ⟨s, ⟨List.not_mem_of_not_mem_cons hz, rest, rfl⟩, rfl⟩

/-- With a terminator in the field, what is read is the front of the field. -/
theorem readTerminated_of_mem {as : List α} (h : z ∈ as) :
    readTerminated z as = some (as.takeWhile fun a => a ≠ z) := by
  obtain ⟨s, rest, rfl, hz⟩ := List.eq_append_cons_of_mem h
  have hs : ∀ a ∈ s, decide (a ≠ z) = true := fun a ha => decide_eq_true fun heq => hz (heq ▸ ha)
  rw [List.takeWhile_append_of_pos hs, List.takeWhile_cons_of_neg (by simp), List.append_nil]
  exact readTerminated_eq_some.mpr ⟨hz, rest, rfl⟩

theorem readTerminated_eq_none {as : List α} : readTerminated z as = none ↔ z ∉ as := by
  constructor
  · intro hnone h
    rw [readTerminated_of_mem h] at hnone
    cases hnone
  · intro h
    rw [Option.eq_none_iff_forall_ne_some]
    intro s hs
    obtain ⟨-, rest, rfl⟩ := readTerminated_eq_some.mp hs
    exact h (List.mem_append_right s List.mem_cons_self)

end Rtsrv.Lib
