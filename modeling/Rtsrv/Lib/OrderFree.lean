import Mathlib.Data.List.Perm.Basic
import Mathlib.Data.List.Sort
import Mathlib.Data.Set.Function
import Rtsrv.Lib.Reader

/-!
# Rtsrv.Lib.OrderFree — results that do not depend on an order

Items under distinct keys, taken in any order: a fold over them gives the same result if the steps for any
two may change places (`foldlM_perm`), a search by key finds the same item (`find?_perm`), and a sorting by
key has one outcome (`Sorting.unique`).
-/

namespace Rtsrv.Lib

variable {α κ σ ε : Type}

/-! ### Folds -/

/-- The steps for two items may change places. -/
def Swaps (f : σ → α → Except ε σ) (s : σ) (a b : α) : Prop :=
  (f s a >>= fun s' => f s' b) = (f s b >>= fun s' => f s' a)

/-- **A fold over items with distinct keys does not depend on their order**, if from every state that it comes
through the steps for two keys may change places. -/
theorem foldlM_perm (key : α → κ) (Item : α → Prop) (Inv : σ → Prop) {f : σ → α → Except ε σ}
    (hkeep : ∀ s a s', Item a → Inv s → f s a = .ok s' → Inv s')
    (hswap : ∀ s a b, Item a → Item b → key a ≠ key b → Inv s → Swaps f s a b) {l l' : List α}
    (hperm : l.Perm l') :
    (∀ a ∈ l, Item a) → (l.map key).Nodup → ∀ s, Inv s → l.foldlM f s = l'.foldlM f s := by
  induction hperm with
  | nil => exact fun _ _ _ _ => rfl
  | @cons a l l' _ ih =>
    intro hitems hnodup s hs
    obtain ⟨ha, hitems⟩ := List.forall_mem_cons.mp hitems
    have hrest := ih hitems (List.nodup_cons.mp hnodup).2
    rw [List.foldlM_cons, List.foldlM_cons]
    cases hstep : f s a with
    | error e => rfl
    | ok s' => exact hrest s' (hkeep s a s' ha hs hstep)
  | swap a b l =>
    intro hitems hnodup s hs
    obtain ⟨hb, hitems⟩ := List.forall_mem_cons.mp hitems
    obtain ⟨ha, -⟩ := List.forall_mem_cons.mp hitems
    have hne : key b ≠ key a := fun heq => (List.nodup_cons.mp hnodup).1 (heq ▸ List.mem_cons_self)
    have hpair : ∀ a b : α, (a :: b :: l).foldlM f s = (f s a >>= fun s' => f s' b) >>= l.foldlM f := by
      intro a b
      rw [bind_assoc]
      rfl
    rw [hpair, hpair, hswap s b a hb ha hne hs]
  | trans h₁ _ ih₁ ih₂ =>
    intro hitems hnodup s hs
    rw [ih₁ hitems hnodup s hs]
    exact ih₂ (fun a ha => hitems a (h₁.mem_iff.mpr ha)) ((h₁.map key).nodup_iff.mp hnodup) s hs

/-- A fold whose steps all give a result gives one. -/
theorem foldlM_total (Item : α → Prop) (Inv : σ → Prop) {f : σ → α → Except ε σ}
    (hstep : ∀ s a, Item a → Inv s → ∃ s', f s a = .ok s' ∧ Inv s') :
    ∀ {l : List α} {s : σ}, (∀ a ∈ l, Item a) → Inv s → ∃ s', l.foldlM f s = .ok s'
  | [], s, _, _ => ⟨s, rfl⟩
  | a :: l, s, hitems, hs => by
    obtain ⟨ha, hitems⟩ := List.forall_mem_cons.mp hitems
    obtain ⟨s', hs', hkept⟩ := hstep s a ha hs
    rw [List.foldlM_cons, hs', ok_bind]
    exact foldlM_total Item Inv hstep hitems hkept

/-- Steps that all give a result, and that may change places for two keys, give one result for every order. -/
theorem foldlM_perm_total (key : α → κ) (Item : α → Prop) (Inv : σ → Prop) {f : σ → α → Except ε σ}
    (hstep : ∀ s a, Item a → Inv s → ∃ s', f s a = .ok s' ∧ Inv s')
    (hswap : ∀ s a b, Item a → Item b → key a ≠ key b → Inv s → Swaps f s a b) {l l' : List α}
    (hperm : l.Perm l') (hitems : ∀ a ∈ l, Item a) (hnodup : (l.map key).Nodup) {s : σ} (hs : Inv s) :
    ∃ s', l.foldlM f s = .ok s' ∧ l'.foldlM f s = .ok s' := by
  have hkeep : ∀ s a s', Item a → Inv s → f s a = .ok s' → Inv s' := by
    intro s a s' ha hs hs'
    obtain ⟨s'', hs'', hkept⟩ := hstep s a ha hs
    rwa [Except.ok.inj (hs'.symm.trans hs'')]
  obtain ⟨s', hs'⟩ := foldlM_total Item Inv hstep hitems hs
  exact ⟨s', hs', foldlM_perm key Item Inv hkeep hswap hperm hitems hnodup s hs ▸ hs'⟩

/-! ### Searches -/

theorem find?_key_eq_some [DecidableEq κ] {key : α → κ} {l : List α} (hnodup : (l.map key).Nodup) {k : κ}
    {a : α} : (l.find? fun b => key b = k) = some a ↔ a ∈ l ∧ key a = k := by
  have hfound : ∀ {b : α}, (l.find? fun b => key b = k) = some b → b ∈ l ∧ key b = k := by
    intro b hb
    have hk := List.find?_some hb
    exact ⟨List.mem_of_find?_eq_some hb, of_decide_eq_true hk⟩
  refine ⟨hfound, fun ⟨ha, hk⟩ => ?_⟩
  have hsome : (l.find? fun b => key b = k).isSome := List.find?_isSome.mpr ⟨a, ha, by simp [hk]⟩
  obtain ⟨b, hb⟩ := Option.isSome_iff_exists.mp hsome
  obtain ⟨hbl, hbk⟩ := hfound hb
  rw [hb, List.inj_on_of_nodup_map hnodup hbl ha (hbk.trans hk.symm)]

/-- **A search by key does not depend on the order of the items.** -/
theorem find?_perm [DecidableEq κ] {key : α → κ} {l l' : List α} (hperm : l.Perm l')
    (hnodup : (l.map key).Nodup) (k : κ) :
    (l.find? fun a => key a = k) = l'.find? fun a => key a = k := by
  refine Option.ext fun a => ?_
  rw [find?_key_eq_some hnodup, find?_key_eq_some ((hperm.map key).nodup_iff.mp hnodup), hperm.mem_iff]

/-! ### Sortings -/

section Sorting

variable [LinearOrder κ] (key : α → κ)

/-- What a sorting by key may return. -/
structure Sorting (l result : List α) : Prop where
  perm : result.Perm l
  sorted : result.Pairwise fun a b => key a ≤ key b

variable {key} {l l' result result' : List α}

/-- **Items that the key tells apart have one sorting**, whatever order they are given in. -/
theorem Sorting.unique (h : Sorting key l result) (h' : Sorting key l' result') (hperm : l.Perm l')
    (hinj : Set.InjOn key {a | a ∈ l}) : result = result' := by
  refine List.Perm.eq_of_pairwise (fun a b ha hb hab hba => ?_) h.sorted h'.sorted
    (h.perm.trans (hperm.trans h'.perm.symm))
  have hb' : b ∈ l := hperm.mem_iff.mpr (h'.perm.mem_iff.mp hb)
  exact hinj (h.perm.mem_iff.mp ha) hb' (le_antisymm hab hba)

/-- Without an item twice the order is strict. -/
theorem Sorting.strict (h : Sorting key l result) (hinj : Set.InjOn key {a | a ∈ l}) (hnodup : l.Nodup) :
    result.Pairwise fun a b => key a < key b := by
  have hresult : result.Nodup := h.perm.nodup_iff.mpr hnodup
  refine (h.sorted.and hresult).imp_of_mem fun {a b} ha hb hab => lt_of_le_of_ne hab.1 fun heq => ?_
  exact hab.2 (hinj (h.perm.mem_iff.mp ha) (h.perm.mem_iff.mp hb) heq)

end Sorting

end Rtsrv.Lib
