import Mathlib.Data.Nat.Notation

/-!
# Rtsrv.Lib.Loop — loops that may fail or run forever

A loop is the function of one round, which goes on with a new state, is done with a result, or fails.
`Returns` says that it comes to an end, `loop` runs it for a number of rounds.  A variant shows that a
loop ends, a trap that it never returns, and `returns_walk_iff` says when a walk from place to place does.
-/

namespace Rtsrv.Lib

variable {σ ρ ε : Type}

inductive Round (σ ρ : Type) where
  | again (s : σ)
  | done (r : ρ)
  deriving DecidableEq, Repr

section Loop

variable (step : σ → Except ε (Round σ ρ))

inductive Returns : σ → ρ → Prop
  | done {s : σ} {r : ρ} (h : step s = .ok (.done r)) : Returns s r
  | again {s s' : σ} {r : ρ} (h : step s = .ok (.again s')) (hr : Returns s' r) : Returns s r

/-- At most so many rounds. -/
def loop : ℕ → σ → Option (Except ε ρ)
  | 0, _ => none
  | fuel + 1, s =>
    match step s with
    | .error e => some (.error e)
    | .ok (.done r) => some (.ok r)
    | .ok (.again s') => loop fuel s'

variable {step}

theorem returns_iff_loop {s : σ} {r : ρ} : Returns step s r ↔ ∃ fuel, loop step fuel s = some (.ok r) := by
  constructor
  · intro h
    induction h with
    | done h => exact ⟨1, by rw [loop, h]⟩
    | again h _ ih =>
      obtain ⟨fuel, hfuel⟩ := ih
      exact ⟨fuel + 1, by rw [loop, h]; exact hfuel⟩
  · rintro ⟨fuel, h⟩
    induction fuel generalizing s with
    | zero => cases h
    | succ fuel ih =>
      rw [loop] at h
      split at h
      · cases h
      next hdone =>
        obtain rfl := Except.ok.inj (Option.some.inj h)
        exact .done hdone
      next hagain => exact .again hagain (ih h)

theorem not_returns_of_error {s : σ} {e : ε} (h : step s = .error e) (r : ρ) : ¬Returns step s r := by
  intro hr
  cases hr with
  | done h' => rw [h] at h'; cases h'
  | again h' _ => rw [h] at h'; cases h'

theorem returns_again {s s' : σ} {r : ρ} (h : step s = .ok (.again s')) :
    Returns step s r ↔ Returns step s' r := by
  refine ⟨fun hr => ?_, fun hr => .again h hr⟩
  cases hr with
  | done h' => rw [h] at h'; cases h'
  | again h' hr' =>
    rw [h] at h'
    obtain rfl := Round.again.inj (Except.ok.inj h')
    exact hr'

theorem returns_done {s : σ} {r r' : ρ} (h : step s = .ok (.done r)) : Returns step s r' ↔ r = r' := by
  refine ⟨fun hr => ?_, fun heq => .done (heq ▸ h)⟩
  cases hr with
  | done h' =>
    rw [h] at h'
    exact Round.done.inj (Except.ok.inj h')
  | again h' _ => rw [h] at h'; cases h'

/-- A loop comes to one result. -/
theorem returns_unique {s : σ} {r r' : ρ} (h : Returns step s r) (h' : Returns step s r') : r = r' := by
  induction h with
  | done h => exact (returns_done h).mp h'
  | again h _ ih => exact ih ((returns_again h).mp h')

/-- A round that goes on with what a computation gives. -/
theorem returns_bind {α : Type} {x : Except ε α} {f : α → σ} {s : σ} {r : ρ}
    (h : step s = x >>= fun a => .ok (.again (f a))) :
    Returns step s r ↔ ∃ a, x = .ok a ∧ Returns step (f a) r := by
  cases x with
  | error e =>
    refine ⟨fun hr => absurd hr (not_returns_of_error h r), ?_⟩
    rintro ⟨a, ha, -⟩
    cases ha
  | ok a =>
    rw [returns_again h]
    refine ⟨fun hr => ⟨a, rfl, hr⟩, ?_⟩
    rintro ⟨a', ha, hr⟩
    obtain rfl := Except.ok.inj ha
    exact hr

/-- **Trap rule**: from states that each fail or go on with one of them, the loop never returns. -/
theorem not_returns_of_trap (Trap : σ → Prop)
    (htrap : ∀ s, Trap s → (∃ e, step s = .error e) ∨ ∃ s', step s = .ok (.again s') ∧ Trap s') {s : σ}
    {r : ρ} (hs : Trap s) : ¬Returns step s r := by
  intro hr
  induction hr with
  | done h =>
    rcases htrap _ hs with ⟨e, he⟩ | ⟨s', hagain, -⟩
    · rw [h] at he; cases he
    · rw [h] at hagain; cases hagain
  | again h _ ih =>
    rcases htrap _ hs with ⟨e, he⟩ | ⟨s', hagain, hs'⟩
    · rw [h] at he; cases he
    · rw [h] at hagain
      obtain rfl := Round.again.inj (Except.ok.inj hagain)
      exact ih hs'

theorem loop_of_returns {s : σ} {r : ρ} (hr : Returns step s r) :
    ∀ {fuel : ℕ} {x : Except ε ρ}, loop step fuel s = some x → x = .ok r := by
  induction hr with
  | done h =>
    intro fuel x hx
    cases fuel with
    | zero => cases hx
    | succ fuel =>
      rw [loop, h] at hx
      exact (Option.some.inj hx).symm
  | again h _ ih =>
    intro fuel x hx
    cases fuel with
    | zero => cases hx
    | succ fuel =>
      rw [loop, h] at hx
      exact ih hx

/-- With a measure that falls in each round, as many rounds as the measure says are enough. -/
theorem loop_enough {μ : σ → ℕ} (hμ : ∀ s s', step s = .ok (.again s') → μ s' < μ s) :
    ∀ (fuel : ℕ) (s : σ), μ s < fuel → ∃ x, loop step fuel s = some x := by
  intro fuel
  induction fuel with
  | zero => exact fun s hs => absurd hs (Nat.not_lt_zero _)
  | succ fuel ih =>
    intro s hs
    rw [loop]
    split
    · exact ⟨_, rfl⟩
    · exact ⟨_, rfl⟩
    next s' hagain => exact ih s' (by have := hμ s s' hagain; omega)

/-- With enough rounds, running the loop and returning are the same. -/
theorem loop_iff_returns {μ : σ → ℕ} (hμ : ∀ s s', step s = .ok (.again s') → μ s' < μ s) {fuel : ℕ} {s : σ}
    (hfuel : μ s < fuel) {r : ρ} : loop step fuel s = some (.ok r) ↔ Returns step s r := by
  refine ⟨fun h => returns_iff_loop.mpr ⟨fuel, h⟩, fun h => ?_⟩
  obtain ⟨x, hx⟩ := loop_enough hμ fuel s hfuel
  rw [hx, loop_of_returns h hx]

/-- Where the rounds that the measure gives are run, nothing is left to a default. -/
theorem loop_getD_iff {μ : σ → ℕ} (hμ : ∀ s s', step s = .ok (.again s') → μ s' < μ s) {s : σ}
    {x : Except ε ρ} {r : ρ} : (loop step (μ s + 1) s).getD x = .ok r ↔ Returns step s r := by
  obtain ⟨y, hy⟩ := loop_enough hμ (μ s + 1) s (Nat.lt_succ_self _)
  rw [← loop_iff_returns hμ (Nat.lt_succ_self (μ s)), hy, Option.getD_some, Option.some.injEq]

end Loop

/-! ### Walks from place to place -/

/-- The places that are reached by going on. -/
inductive Reaches {τ : Type} (next : τ → Option τ) : τ → τ → Prop
  | here {t : τ} : Reaches next t t
  | there {s t u : τ} (h : next s = some t) (hr : Reaches next t u) : Reaches next s u

/-- **A loop that walks from place to place** returns exactly when each place it reaches is a fine one:
there it is done or gets to the next place, and elsewhere it never returns. -/
theorem returns_walk_iff {τ : Type} {step : σ → Except ε (Round σ ρ)} (next : τ → Option τ)
    (Fine : τ → Prop) (At : σ → τ → Prop) (μ : τ → ℕ)
    (hend : ∀ s t, At s t → next t = none → Fine t → ∃ r, step s = .ok (.done r))
    (hfine : ∀ s t u, At s t → next t = some u → Fine t →
      μ u < μ t ∧ ∃ s', step s = .ok (.again s') ∧ At s' u)
    (hlost : ∀ s t, At s t → ¬Fine t → ∀ r, ¬Returns step s r) {s : σ} {t : τ} (hs : At s t) :
    (∃ r, Returns step s r) ↔ ∀ u, Reaches next t u → Fine u := by
  constructor
  · rintro ⟨r, hr⟩
    induction hr generalizing t with
    | @done s r h =>
      have hf : Fine t := Classical.byContradiction fun hf => hlost s t hs hf r (.done h)
      intro u hu
      cases hu with
      | here => exact hf
      | @there _ v _ hnext _ =>
        obtain ⟨-, s', hagain, -⟩ := hfine s t v hs hnext hf
        rw [h] at hagain; cases hagain
    | @again s s' r h hr ih =>
      have hf : Fine t := Classical.byContradiction fun hf => hlost s t hs hf r (.again h hr)
      intro u hu
      cases hu with
      | here => exact hf
      | @there _ v _ hnext hu' =>
        obtain ⟨-, s'', hagain, hs''⟩ := hfine s t v hs hnext hf
        rw [h] at hagain
        obtain rfl := Round.again.inj (Except.ok.inj hagain)
        exact ih hs'' u hu'
  · intro hall
    induction hm : μ t using Nat.strongRecOn generalizing s t with
    | ind m ih =>
      have hf : Fine t := hall t .here
      cases hnext : next t with
      | none =>
        obtain ⟨r, hdone⟩ := hend s t hs hnext hf
        exact ⟨r, .done hdone⟩
      | some v =>
        obtain ⟨hlt, s', hagain, hs'⟩ := hfine s t v hs hnext hf
        obtain ⟨r, hr⟩ := ih (μ v) (hm ▸ hlt) hs' (fun u hu => hall u (.there hnext hu)) rfl
        exact ⟨r, .again hagain hr⟩

/-! ### The state in which a loop ends -/

/-- The state after a round that goes on. -/
def nextState (step : σ → Except ε (Round σ ρ)) (s : σ) : Option σ :=
  match step s with
  | .ok (.again s') => some s'
  | _ => none

section NextState

variable {step : σ → Except ε (Round σ ρ)}

theorem nextState_eq_some {s s' : σ} : nextState step s = some s' ↔ step s = .ok (.again s') := by
  unfold nextState
  rcases h : step s with e | s'' | r
  · simp
  · simp
  · simp

theorem nextState_done {s : σ} {r : ρ} (h : step s = .ok (.done r)) : nextState step s = none := by
  rw [nextState, h]

/-- A loop returns what it is done with in a state that it reaches. -/
theorem returns_iff_reaches {s : σ} {r : ρ} :
    Returns step s r ↔ ∃ w, Reaches (nextState step) s w ∧ step w = .ok (.done r) := by
  constructor
  · intro h
    induction h with
    | done h => exact ⟨_, .here, h⟩
    | again h _ ih =>
      obtain ⟨w, hw, hdone⟩ := ih
      exact ⟨w, .there (nextState_eq_some.mpr h) hw, hdone⟩
  · rintro ⟨w, hw, hdone⟩
    induction hw with
    | here => exact .done hdone
    | there h _ ih => exact .again (nextState_eq_some.mp h) (ih hdone)

/-- There is one place where going on ends. -/
theorem reaches_end_unique {τ : Type} {next : τ → Option τ} {t u v : τ} (hu : Reaches next t u)
    (hv : Reaches next t v) (hue : next u = none) (hve : next v = none) : u = v := by
  induction hu with
  | here =>
    cases hv with
    | here => rfl
    | there h _ =>
      rw [hue] at h
      cases h
  | there h _ ih =>
    cases hv with
    | here =>
      rw [hve] at h
      cases h
    | there h' hv' =>
      rw [h] at h'
      obtain rfl := Option.some.inj h'
      exact ih hv' hue

/-- **What a result needs**: the results of a kind come only after a state of a kind, in which the loop ends,
exactly when each state that gives such a result is one. -/
theorem returns_only_iff {Good : σ → Prop} {R : ρ → Prop} {s : σ}
    (hgood : ∀ w, Good w → nextState step w = none) :
    ((∃ r, R r ∧ Returns step s r) → ∃ w, Reaches (nextState step) s w ∧ Good w) ↔
      ∀ w r, Reaches (nextState step) s w → step w = .ok (.done r) → R r → Good w := by
  constructor
  · intro h w r hw hdone hr
    obtain ⟨w', hw', hg⟩ := h ⟨r, hr, returns_iff_reaches.mpr ⟨w, hw, hdone⟩⟩
    rw [reaches_end_unique hw hw' (nextState_done hdone) (hgood w' hg)]
    exact hg
  · rintro h ⟨r, hr, hret⟩
    obtain ⟨w, hw, hdone⟩ := returns_iff_reaches.mp hret
    exact ⟨w, hw, h w r hw hdone hr⟩

end NextState

end Rtsrv.Lib
