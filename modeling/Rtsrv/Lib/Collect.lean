import Rtsrv.Lib.Reader

/-!
# Rtsrv.Lib.Collect — loops that convert what they can

A loop that converts the items of a list, leaves some out and may fail is `List.filterMapM` over `Except`.
`filterMapM_eq_filterMap` says when it gives what a specification of the single items says: where the
specification never keeps an item that the loop leaves out, exactly when they agree on every item.
A loop that goes on behind a failure keeps a flag instead; `foldl_attemptFlag` says what it ends with, and
`foldl_appends` what a log is that each round writes to.
-/

namespace Rtsrv.Lib

variable {ε α β : Type} {f : α → Except ε (Option β)}

theorem filterMapM_skip {a : α} (h : f a = .ok none) (as : List α) :
    (a :: as).filterMapM f = as.filterMapM f := by
  rw [List.filterMapM_cons, h]
  rfl

theorem filterMapM_keep {a : α} {b : β} (h : f a = .ok (some b)) (as : List α) :
    (a :: as).filterMapM f = (b :: ·) <$> as.filterMapM f := by
  rw [List.filterMapM_cons, h]
  rfl

theorem filterMapM_error {a : α} {e : ε} (h : f a = .error e) (as : List α) :
    (a :: as).filterMapM f = .error e := by
  rw [List.filterMapM_cons, h]
  rfl

/-- Where each item is converted as specified, so is the list. -/
theorem filterMapM_ok {g : α → Option β} :
    ∀ {as : List α}, (∀ a ∈ as, f a = .ok (g a)) → as.filterMapM f = .ok (as.filterMap g)
  | [], _ => rfl
  | a :: as, h => by
    obtain ⟨ha, has⟩ := List.forall_mem_cons.mp h
    cases hga : g a with
    | none => rw [filterMapM_skip (hga ▸ ha), filterMapM_ok has, List.filterMap_cons_none hga]
    | some b =>
      rw [filterMapM_keep (hga ▸ ha), filterMapM_ok has, List.filterMap_cons_some hga]
      rfl

/-- A loop that leaves out nothing of a specification gives no less. -/
theorem filterMap_length_le {g : α → Option β} :
    ∀ {as : List α} {bs : List β}, (∀ a ∈ as, g a ≠ none → f a ≠ .ok none) → as.filterMapM f = .ok bs →
      (as.filterMap g).length ≤ bs.length
  | [], bs, _, _ => Nat.zero_le _
  | a :: as, bs, h, hbs => by
    obtain ⟨ha, has⟩ := List.forall_mem_cons.mp h
    cases hfa : f a with
    | error e =>
      rw [filterMapM_error hfa] at hbs
      cases hbs
    | ok o =>
      cases o with
      | none =>
        have hga : g a = none := not_not.mp fun hne => ha hne hfa
        rw [filterMapM_skip hfa] at hbs
        rw [List.filterMap_cons_none hga]
        exact filterMap_length_le has hbs
      | some b =>
        rw [filterMapM_keep hfa, except_map_ok] at hbs
        obtain ⟨bs', hbs', rfl⟩ := hbs
        have hle := filterMap_length_le has hbs'
        cases hga : g a with
        | none =>
          rw [List.filterMap_cons_none hga]
          exact Nat.le_succ_of_le hle
        | some b' =>
          rw [List.filterMap_cons_some hga]
          exact Nat.succ_le_succ hle

/-- **A loop that leaves out nothing of a specification meets it exactly when it does on every item.** -/
theorem filterMapM_eq_filterMap {g : α → Option β} :
    ∀ {as : List α}, (∀ a ∈ as, g a ≠ none → f a ≠ .ok none) →
      (as.filterMapM f = .ok (as.filterMap g) ↔ ∀ a ∈ as, f a = .ok (g a))
  | [], _ => iff_of_true rfl fun _ ha => absurd ha List.not_mem_nil
  | a :: as, h => by
    refine ⟨fun hall => ?_, filterMapM_ok⟩
    obtain ⟨ha, has⟩ := List.forall_mem_cons.mp h
    cases hfa : f a with
    | error e =>
      rw [filterMapM_error hfa] at hall
      cases hall
    | ok o =>
      cases o with
      | none =>
        have hga : g a = none := not_not.mp fun hne => ha hne hfa
        rw [filterMapM_skip hfa, List.filterMap_cons_none hga] at hall
        exact List.forall_mem_cons.mpr ⟨by rw [hfa, hga], (filterMapM_eq_filterMap has).mp hall⟩
      | some b =>
        rw [filterMapM_keep hfa, except_map_ok] at hall
        obtain ⟨bs, hbs, hcons⟩ := hall
        cases hga : g a with
        | none =>
          -- The loop has kept one more.
          rw [List.filterMap_cons_none hga] at hcons
          have hle := filterMap_length_le has hbs
          rw [← hcons] at hle
          exact absurd hle (Nat.not_succ_le_self _)
        | some b' =>
          rw [List.filterMap_cons_some hga] at hcons
          obtain ⟨rfl, rfl⟩ := List.cons.inj hcons
          exact List.forall_mem_cons.mpr ⟨by rw [hfa, hga], (filterMapM_eq_filterMap has).mp hbs⟩

/-- A specification that keeps nothing else collects the same exactly when it is the same on every item. -/
theorem filterMap_eq_filterMap {f g : α → Option β} {as : List α} (h : ∀ a ∈ as, g a ≠ none → f a ≠ none) :
    as.filterMap f = as.filterMap g ↔ ∀ a ∈ as, f a = g a := by
  have hok : as.filterMapM (fun a => (Except.ok (f a) : Except Unit (Option β))) = .ok (as.filterMap f) :=
    filterMapM_ok fun _ _ => rfl
  have hall := filterMapM_eq_filterMap (f := fun a => (Except.ok (f a) : Except Unit (Option β)))
    fun a ha hg hf => h a ha hg (Except.ok.inj hf)
  simpa only [hok, Except.ok.injEq] using hall

/-- Results that keep their items are filtered by their items. -/
theorem filter_filterMap_tag (p : α → Bool) (f : α → Option β) (as : List α) :
    (as.filterMap fun a => (f a).map (Prod.mk a)).filter (fun ab => p ab.1) =
      (as.filter p).filterMap fun a => (f a).map (Prod.mk a) := by
  rw [List.filter_filterMap, List.filterMap_filter]
  refine congrArg (List.filterMap · as) (funext fun a => ?_)
  cases f a with
  | none => simp
  | some b => by_cases hp : p a = true <;> simp [hp]

/-! ### Loops that go on behind a failure -/

section Attempts

variable {σ : Type} (act : α → σ → Except ε β × σ)

/-- The results of an action on each item, one after the other. -/
def attempts : List α → σ → List (Except ε β) × σ
  | [], world => ([], world)
  | a :: as, world =>
    ((act a world).1 :: (attempts as (act a world).2).1, (attempts as (act a world).2).2)

/-- A round of a loop whose flag falls at a failure. -/
def attemptFlag (s : Bool × σ) (a : α) : Bool × σ :=
  match act a s.2 with
  | (.ok _, world) => (s.1, world)
  | (.error _, world) => (false, world)

theorem attemptFlag_eq (s : Bool × σ) (a : α) :
    attemptFlag act s a = (s.1 && (act a s.2).1.isOk, (act a s.2).2) := by
  rcases h : act a s.2 with ⟨result, world⟩
  cases result with
  | error e => simp [attemptFlag, h, Except.isOk, Except.toBool]
  | ok b => simp [attemptFlag, h, Except.isOk, Except.toBool]

/-- The flag stays up when every result is a success. -/
theorem foldl_attemptFlag : ∀ (as : List α) (s : Bool × σ), as.foldl (attemptFlag act) s =
    (s.1 && (attempts act as s.2).1.all Except.isOk, (attempts act as s.2).2)
  | [], s => by simp [attempts]
  | a :: as, s => by
    rw [List.foldl_cons, foldl_attemptFlag as, attemptFlag_eq, attempts, List.all_cons, Bool.and_assoc]

theorem length_attempts : ∀ (as : List α) (world : σ), (attempts act as world).1.length = as.length
  | [], _ => rfl
  | a :: as, world => by rw [attempts, List.length_cons, length_attempts as, List.length_cons]

/-- A round of a loop that counts the successes. -/
def attemptCount (s : ℕ × σ) (a : α) : ℕ × σ :=
  match act a s.2 with
  | (.ok _, world) => (s.1 + 1, world)
  | (.error _, world) => (s.1, world)

theorem attemptCount_eq (s : ℕ × σ) (a : α) :
    attemptCount act s a = (s.1 + if (act a s.2).1.isOk then 1 else 0, (act a s.2).2) := by
  rcases h : act a s.2 with ⟨result, world⟩
  cases result with
  | error e => simp [attemptCount, h, Except.isOk, Except.toBool]
  | ok b => simp [attemptCount, h, Except.isOk, Except.toBool]

/-- The count is that of the results which are successes. -/
theorem foldl_attemptCount : ∀ (as : List α) (s : ℕ × σ), as.foldl (attemptCount act) s =
    (s.1 + (attempts act as s.2).1.countP Except.isOk, (attempts act as s.2).2)
  | [], s => by simp [attempts]
  | a :: as, s => by
    rw [List.foldl_cons, foldl_attemptCount as, attemptCount_eq, attempts, List.countP_cons]
    refine Prod.ext ?_ rfl
    dsimp only
    omega

theorem attempts_append (as bs : List α) (world : σ) :
    (attempts act (as ++ bs) world).2 = (attempts act bs (attempts act as world).2).2 := by
  induction as generalizing world with
  | nil => rfl
  | cons a as ih => exact ih (act a world).2

theorem attempts_map {γ : Type} (f : γ → α) : ∀ (cs : List γ) (world : σ),
    attempts act (cs.map f) world = attempts (fun c => act (f c)) cs world
  | [], _ => rfl
  | c :: cs, world => by rw [List.map_cons, attempts, attempts, attempts_map f cs]

variable {act}

/-- What each action keeps is kept by all of them. -/
theorem attempts_invariant {P : σ → Prop} : ∀ {as : List α},
    (∀ a ∈ as, ∀ world, P world → P (act a world).2) → ∀ world, P world → P (attempts act as world).2
  | [], _, _, h => h
  | a :: as, hact, world, h => by
    obtain ⟨ha, has⟩ := List.forall_mem_cons.mp hact
    exact attempts_invariant has _ (ha world h)

/-- What one action brings about and every action keeps holds behind all of them. -/
theorem attempts_brings {P : σ → Prop} {a : α} {as : List α} (ha : a ∈ as) (hact : ∀ world, P (act a world).2)
    (hkeep : ∀ b ∈ as, ∀ world, P world → P (act b world).2) (world : σ) : P (attempts act as world).2 := by
  obtain ⟨before, after, rfl⟩ := List.append_of_mem ha
  rw [attempts_append]
  show P (attempts act after (act a (attempts act before world).2).2).2
  refine attempts_invariant (fun b hb => hkeep b ?_) _ (hact _)
  exact List.mem_append_right before (List.mem_cons_of_mem a hb)

end Attempts

section Parts

variable {σ γ τ : Type} [DecidableEq γ] {act : α → σ → Except ε β × σ} {part : α → γ} {view : σ → γ → τ}
  {Step : α → Except ε β → τ → τ → Prop}

/-- The items lead from one state to the other, each by a step that its result says. -/
def Chain (Step : α → Except ε β → τ → τ → Prop) : List (α × Except ε β) → τ → τ → Prop
  | [], s, t => t = s
  | (a, result) :: rest, s, t => ∃ u, Step a result s u ∧ Chain Step rest u t

/-- An item makes a step on its part of the world, and none on the others. -/
structure PartWise (act : α → σ → Except ε β × σ) (part : α → γ) (view : σ → γ → τ)
    (Step : α → Except ε β → τ → τ → Prop) : Prop where
  own : ∀ a world, Step a (act a world).1 (view world (part a)) (view (act a world).2 (part a))
  other : ∀ a world g, part a ≠ g → view (act a world).2 g = view world g

/-- **A part of the world goes by its own items**: what becomes of it are their steps alone. -/
theorem PartWise.attempts (h : PartWise act part view Step) (g : γ) : ∀ (as : List α) (world : σ),
    Chain Step ((as.zip (attempts act as world).1).filter fun r => part r.1 = g) (view world g)
      (view (attempts act as world).2 g)
  | [], _ => rfl
  | a :: as, world => by
    have ih := h.attempts g as (act a world).2
    simp only [Lib.attempts, List.zip_cons_cons]
    by_cases hg : part a = g
    · have hown := h.own a world
      rw [hg] at hown
      rw [List.filter_cons_of_pos (by simpa using hg)]
      exact ⟨_, hown, ih⟩
    · rw [List.filter_cons_of_neg (by simpa using hg), ← h.other a world g hg]
      exact ih

end Parts

/-! ### Loops of fallible rounds -/

/-- Where every round gives a result, the loop is that of the results. -/
theorem foldlM_ok {σ : Type} {step : σ → α → Except ε σ} {next : σ → α → σ} {as : List α}
    (h : ∀ a ∈ as, ∀ s, step s a = .ok (next s a)) (s : σ) : as.foldlM step s = .ok (as.foldl next s) := by
  refine foldlM_refines step next id (fun rest _ => ∀ a ∈ rest, ∀ s, step s a = .ok (next s a)) ?_ as s h
  intro a rest s hrest
  obtain ⟨ha, hrest⟩ := List.forall_mem_cons.mp hrest
  exact ⟨ha s, hrest⟩

/-- A loop that ends has ended each of its rounds. -/
theorem foldlM_ok_mem {σ : Type} {step : σ → α → Except ε σ} : ∀ {as : List α} {s t : σ},
    as.foldlM step s = .ok t → ∀ a ∈ as, ∃ s' t', step s' a = .ok t'
  | [], _, _, _ => fun _ ha => absurd ha List.not_mem_nil
  | a :: as, s, t, h => by
    rw [List.foldlM_cons, except_bind_ok] at h
    obtain ⟨s', hs', hrest⟩ := h
    exact List.forall_mem_cons.mpr ⟨⟨s, s', hs'⟩, foldlM_ok_mem hrest⟩

/-- What every round keeps holds where the loop ends. -/
theorem foldlM_keeps {σ : Type} (Inv : σ → Prop) {step : σ → α → Except ε σ} : ∀ {as : List α} {s t : σ},
    (∀ a ∈ as, ∀ s s', Inv s → step s a = .ok s' → Inv s') → Inv s → as.foldlM step s = .ok t → Inv t
  | [], _, _, _, hs, h => except_pure_ok.mp h ▸ hs
  | a :: as, s, t, hkeep, hs, h => by
    rw [List.foldlM_cons, except_bind_ok] at h
    obtain ⟨s', hs', hrest⟩ := h
    obtain ⟨ha, has⟩ := List.forall_mem_cons.mp hkeep
    exact foldlM_keeps Inv has (ha s s' hs hs') hrest

/-! ### Loops that write to a log -/

/-- The log of a loop is that of its rounds, one behind the other. -/
theorem foldl_appends {σ : Type} (log : σ → List β) {step : σ → α → σ} {out : α → List β}
    (h : ∀ s a, log (step s a) = log s ++ out a) :
    ∀ (as : List α) (s : σ), log (as.foldl step s) = log s ++ as.flatMap out
  | [], s => (List.append_nil _).symm
  | a :: as, s => by
    rw [List.foldl_cons, foldl_appends log h as, h, List.append_assoc, List.flatMap_cons]

theorem foldl_notes {σ : Type} (log : σ → List β) {step : σ → α → σ} {out : α → β}
    (h : ∀ s a, log (step s a) = log s ++ [out a]) (as : List α) (s : σ) :
    log (as.foldl step s) = log s ++ as.map out := by
  rw [List.map_eq_flatMap]
  exact foldl_appends log h as s

end Rtsrv.Lib
