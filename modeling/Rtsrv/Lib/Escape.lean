import Mathlib.Data.List.Basic

/-!
# Rtsrv.Lib.Escape — escape codes and delimited streams over any alphabet

An `Escape` reserves a delimiter and an escape symbol and gives each a code to stand after the escape
symbol.  `stuff` removes every delimiter from a text, `destuff` undoes it, and on delimiter-free input
`destuff` accepts nothing but the image of `stuff`.  The last section finds delimiters by index.
-/

namespace Rtsrv.Lib

variable {α : Type}

/-- An escape scheme.  The codes differ from each other and from the delimiter. -/
structure Escape (α : Type) where
  delim : α
  esc : α
  codeDelim : α
  codeEsc : α
  delim_ne_esc : delim ≠ esc
  codes_ne : codeDelim ≠ codeEsc
  codeDelim_ne : codeDelim ≠ delim
  codeEsc_ne : codeEsc ≠ delim

namespace Escape

variable [DecidableEq α] (E : Escape α)

def stuffOne (b : α) : List α :=
  if b = E.delim then [E.esc, E.codeDelim]
  else if b = E.esc then [E.esc, E.codeEsc]
  else [b]

def stuff (l : List α) : List α := l.flatMap E.stuffOne

/-- Undo `stuff`; the flag says that the last symbol was the escape symbol. -/
def destuff : Bool → List α → Option (List α)
  | true, [] => none
  | false, [] => some []
  | true, b :: l =>
    if b = E.codeDelim then (destuff false l).map (E.delim :: ·)
    else if b = E.codeEsc then (destuff false l).map (E.esc :: ·)
    else none
  | false, b :: l =>
    if b = E.esc then destuff true l else (destuff false l).map (b :: ·)

theorem destuff_stuffOne (b : α) (l : List α) :
    E.destuff false (E.stuffOne b ++ l) = (E.destuff false l).map (b :: ·) := by
  unfold stuffOne
  by_cases hd : b = E.delim
  · simp [hd, destuff]
  · by_cases he : b = E.esc
    · simp [he, E.delim_ne_esc.symm, destuff, E.codes_ne.symm]
    · simp [hd, he, destuff]

theorem destuff_stuff (l : List α) : E.destuff false (E.stuff l) = some l := by
  induction l with
  | nil => rfl
  | cons b l ih =>
    have hs : E.stuff (b :: l) = E.stuffOne b ++ E.stuff l := rfl
    rw [hs, destuff_stuffOne, ih, Option.map_some]

theorem delim_notMem_stuffOne (b : α) : E.delim ∉ E.stuffOne b := by
  unfold stuffOne
  split_ifs with hd he
  · simp [E.delim_ne_esc, E.codeDelim_ne.symm]
  · simp [E.delim_ne_esc, E.codeEsc_ne.symm]
  · simpa using fun h => hd h.symm

theorem delim_notMem_stuff (l : List α) : E.delim ∉ E.stuff l := by
  intro h
  obtain ⟨b, -, hb⟩ := List.mem_flatMap.mp h
  exact E.delim_notMem_stuffOne b hb

/-- Without delimiters there is one spelling: what `destuff` accepts is `stuff` of its result.  The
second half is the state after an escape symbol, which stands in front of the text. -/
theorem stuff_destuff : ∀ (s l : List α), E.delim ∉ s →
    (E.destuff false s = some l → E.stuff l = s) ∧
    (E.destuff true s = some l → E.stuff l = E.esc :: s)
  | [], l, _ => by
    constructor
    · intro h
      rw [destuff, Option.some.injEq] at h
      rw [← h]; rfl
    · intro h
      simp [destuff] at h
  | b :: s, l, hs => by
    rw [List.mem_cons, not_or] at hs
    have ih := fun l => stuff_destuff s l hs.2
    constructor
    · intro h
      by_cases he : b = E.esc
      · rw [destuff, if_pos he] at h
        rw [he]
        exact (ih l).2 h
      · rw [destuff, if_neg he, Option.map_eq_some_iff] at h
        obtain ⟨l', h', rfl⟩ := h
        have h1 : E.stuffOne b = [b] := by
          unfold stuffOne
          rw [if_neg (Ne.symm hs.1), if_neg he]
        have h2 : E.stuff (b :: l') = E.stuffOne b ++ E.stuff l' := rfl
        rw [h2, h1, (ih l').1 h']
        rfl
    · intro h
      rw [destuff] at h
      split_ifs at h with hd he
      · rw [Option.map_eq_some_iff] at h
        obtain ⟨l', h', rfl⟩ := h
        have h1 : E.stuffOne E.delim = [E.esc, E.codeDelim] := if_pos rfl
        have h2 : E.stuff (E.delim :: l') = E.stuffOne E.delim ++ E.stuff l' := rfl
        rw [h2, h1, (ih l').1 h', hd]
        rfl
      · rw [Option.map_eq_some_iff] at h
        obtain ⟨l', h', rfl⟩ := h
        have h1 : E.stuffOne E.esc = [E.esc, E.codeEsc] := by
          unfold stuffOne
          rw [if_neg E.delim_ne_esc.symm, if_pos rfl]
        have h2 : E.stuff (E.esc :: l') = E.stuffOne E.esc ++ E.stuff l' := rfl
        rw [h2, h1, (ih l').1 h', he]
        rfl

end Escape

/-! ### The first symbol of a kind -/

theorem findIdx_split {p : α → Bool} {g t : List α} {b : α} (hg : ∀ x ∈ g, p x = false)
    (hb : p b = true) : (g ++ b :: t).findIdx p = g.length := by
  induction g with
  | nil => simp [List.findIdx_cons, hb]
  | cons a g ih =>
    have ha := hg a (by simp)
    rw [List.cons_append, List.findIdx_cons, ha, ih fun x hx => hg x (by simp [hx])]
    rfl

theorem findIdx_none {p : α → Bool} {g : List α} (hg : ∀ x ∈ g, p x = false) :
    g.findIdx p = g.length := by
  rw [List.findIdx_eq_length]
  exact hg

theorem split_of_findIdx_lt {p : α → Bool} {l : List α} (h : l.findIdx p < l.length) :
    ∃ g b t, l = g ++ b :: t ∧ (∀ x ∈ g, p x = false) ∧ p b = true ∧ l.findIdx p = g.length := by
  induction l with
  | nil => simp at h
  | cons a l ih =>
    by_cases ha : p a = true
    · exact ⟨[], a, l, rfl, by simp, ha, by simp [List.findIdx_cons, ha]⟩
    · rw [Bool.not_eq_true] at ha
      rw [List.findIdx_cons, ha, cond_false, List.length_cons, Nat.add_lt_add_iff_right] at h
      obtain ⟨g, b, t, rfl, hg, hb, hlen⟩ := ih h
      refine ⟨a :: g, b, t, rfl, List.forall_mem_cons.mpr ⟨ha, hg⟩, hb, ?_⟩
      rw [List.findIdx_cons, ha, cond_false, hlen, List.length_cons]

end Rtsrv.Lib
