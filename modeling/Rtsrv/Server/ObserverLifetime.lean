import Rtsrv.Server.Observers

/-!
# Rtsrv.Server.ObserverLifetime — invocations after `unregisterObserver`

Unregistering takes the handle out of the map and leaves the copies alone that calls in flight have
already made.  So an observer is left in peace from then on exactly when no call holds it in its copy,
and the same decides whether the observer of a `WatchRoutes` call can run after that call has returned.
-/

namespace Rtsrv.Server

open Lib

/-- The call has `h` in the copy it is working through, not yet invoked or being invoked. -/
def Notification.holds (h : ℕ) : Notification → Bool
  | .updated _ => false
  | .invoking _ snapshot => h ∈ snapshot

/-- No call in flight holds `h`. -/
def Unheld (h : ℕ) (s : Shared) : Prop := ∀ c ∈ s.calls, c.holds h = false

instance (h : ℕ) (s : Shared) : Decidable (Unheld h s) :=
  inferInstanceAs (Decidable (∀ c ∈ s.calls, _))

/-- From this state on observer `h` is never invoked. -/
def NeverInvoked (h : ℕ) (s : Shared) : Prop :=
  ∀ acts t, run step s acts = some t → t.received h = s.received h

/-! ### Nobody holds the observer -/

/-- An observer that is gone for good, with what it has received. -/
structure Gone (h : ℕ) (evs : List RouteEvent) (s : Shared) : Prop where
  issued : h < s.nextHandle
  unregistered : h ∉ s.observers
  unheld : Unheld h s
  received : s.received h = evs

theorem Gone.update {h : ℕ} {evs : List RouteEvent} {s : Shared} (hg : Gone h evs s)
    (routes : Routes) (ev : RouteEvent) :
    Gone h evs { s with routes := routes, calls := s.calls ++ [.updated ev] } := by
  refine ⟨hg.issued, hg.unregistered, fun c hc => ?_, hg.received⟩
  rcases List.mem_append.mp hc with hc | hc
  · exact hg.unheld c hc
  · rw [List.mem_singleton.mp hc]
    rfl

theorem gone_step {h : ℕ} {evs : List RouteEvent} {s s' : Shared} {a : Action} (hg : Gone h evs s)
    (hstep : step s a = some s') : Gone h evs s' := by
  cases a with
  | add req id now =>
    rcases step_update (.inl ⟨req, id, now, rfl⟩) hstep with rfl | ⟨routes, ev, -, rfl⟩
    · exact hg
    · exact hg.update routes ev
  | remove id now =>
    rcases step_update (.inr ⟨id, now, rfl⟩) hstep with rfl | ⟨routes, ev, -, rfl⟩
    · exact hg
    · exact hg.update routes ev
  | snapshot i order =>
    obtain ⟨ev, -, hperm, rfl⟩ := step_snapshot hstep
    refine ⟨hg.issued, hg.unregistered, fun c hc => ?_, hg.received⟩
    rcases List.mem_or_eq_of_mem_set hc with hc | rfl
    · exact hg.unheld c hc
    · -- the copy is of the registered observers, and `h` is not one of them
      have hnot : h ∉ order := fun hmem => hg.unregistered (hperm.mem_iff.mp hmem)
      simpa [Notification.holds] using hnot
  | invoke i =>
    obtain ⟨ev, k, rest, hc, rfl⟩ := step_invoke hstep
    have hno := hg.unheld _ (List.mem_of_getElem? hc)
    have hk : h ≠ k ∧ h ∉ rest := by simpa [Notification.holds] using hno
    refine ⟨hg.issued, hg.unregistered, fun c hc' => ?_, ?_⟩
    · rcases List.mem_or_eq_of_mem_set hc' with hc' | rfl
      · exact hg.unheld c hc'
      · simpa [Notification.holds] using hk.2
    · show Function.update s.received k (s.received k ++ [ev]) h = evs
      rw [Function.update_of_ne hk.1]
      exact hg.received
  | register =>
    obtain rfl := Option.some.inj hstep
    refine ⟨Nat.lt_succ_of_lt hg.issued, fun hmem => ?_, hg.unheld, hg.received⟩
    rcases List.mem_append.mp hmem with hmem | hmem
    · exact hg.unregistered hmem
    · exact Nat.ne_of_lt hg.issued (List.mem_singleton.mp hmem)
  | unregister k =>
    obtain rfl := Option.some.inj hstep
    exact ⟨hg.issued, fun hmem => hg.unregistered (List.mem_of_mem_erase hmem), hg.unheld,
      hg.received⟩
  | watchReturn k =>
    obtain ⟨-, rfl⟩ := step_watchReturn hstep
    exact ⟨hg.issued, hg.unregistered, hg.unheld, hg.received⟩

/-! ### Some call holds the observer -/

/-- A call that holds `h` can invoke the observers of its copy until it comes to `h`. -/
theorem exists_invocation {h i : ℕ} {ev : RouteEvent} (before after : List ℕ) :
    ∀ s : Shared, s.calls[i]? = some (.invoking ev (before ++ h :: after)) →
      ∃ acts t, run step s acts = some t ∧ (s.received h).length < (t.received h).length := by
  induction before with
  | nil =>
    intro s hc
    refine ⟨[.invoke i], _, run_cons.mpr ⟨_, by rw [step, hc]; rfl, rfl⟩, ?_⟩
    show _ < (Function.update s.received h (s.received h ++ [ev]) h).length
    rw [Function.update_self, List.length_append]
    exact Nat.lt_succ_self _
  | cons k before ih =>
    intro s hc
    obtain ⟨s', hs', hcalls, hlen⟩ : ∃ s', step s (.invoke i) = some s' ∧
        s'.calls[i]? = some (.invoking ev (before ++ h :: after)) ∧
        (s.received h).length ≤ (s'.received h).length := by
      refine ⟨_, by rw [step, hc]; rfl, ?_, ?_⟩
      · have hi : i < s.calls.length := (List.getElem?_eq_some_iff.mp hc).1
        show (s.calls.set i _)[i]? = _
        rw [List.getElem?_set_self hi]
        rfl
      · show _ ≤ (Function.update s.received k (s.received k ++ [ev]) h).length
        by_cases hk : h = k
        · rw [← hk, Function.update_self, List.length_append]
          exact Nat.le_add_right _ _
        · rw [Function.update_of_ne hk]
    obtain ⟨acts, t, hrun, hlt⟩ := ih s' hcalls
    exact ⟨.invoke i :: acts, t, run_cons.mpr ⟨s', hs', hrun⟩, Nat.lt_of_le_of_lt hlen hlt⟩

/-- An observer that is no longer registered is left in peace exactly when no call holds it. -/
theorem neverInvoked_iff {h : ℕ} {s : Shared} (hissued : h < s.nextHandle) (hnot : h ∉ s.observers) :
    NeverInvoked h s ↔ Unheld h s := by
  refine ⟨fun hnever c hc => ?_, fun hunheld acts t hrun => ?_⟩
  · cases c with
    | updated ev => rfl
    | invoking ev snapshot =>
      by_contra hholds
      have hmem : h ∈ snapshot := by simpa [Notification.holds] using hholds
      obtain ⟨before, after, rfl⟩ := List.append_of_mem hmem
      obtain ⟨i, hi⟩ := List.getElem?_of_mem hc
      obtain ⟨acts, t, hrun, hlt⟩ := exists_invocation before after s hi
      rw [hnever acts t hrun] at hlt
      exact Nat.lt_irrefl _ hlt
  · exact (run_preserves (fun _ _ _ hg hs => gone_step hg hs) ⟨hissued, hnot, hunheld, rfl⟩
      hrun).received

/-! ### Unregistering and returning -/

/-- The states that a route manager with `n` observers can come to. -/
def Reachable (n : ℕ) (s : Shared) : Prop := ∃ acts, run step (start n) acts = some s

theorem handles_of_reachable {n : ℕ} {s : Shared} (hs : Reachable n s) : Handles s := by
  obtain ⟨acts, hrun⟩ := hs
  exact run_preserves (fun _ _ _ hh h => handles_step hh h) (handles_start n) hrun

/-- **Unregistering**: once `unregisterObserver(h)` has returned, and likewise once the `WatchRoutes`
call behind `h` has returned, the observer is never invoked again exactly when no call in flight held it
in its copy at that step. -/
theorem unregister_neverInvoked_iff (n h : ℕ) (s s' : Shared) (hs : Reachable n s)
    (hissued : h < s.nextHandle) :
    (step s (.unregister h) = some s' → (NeverInvoked h s' ↔ Unheld h s)) ∧
    (step s (.watchReturn h) = some s' → (NeverInvoked h s' ↔ Unheld h s)) := by
  refine ⟨fun hstep => ?_, fun hstep => ?_⟩
  · obtain rfl := Option.some.inj hstep
    exact neverInvoked_iff hissued (handles_of_reachable hs).distinct.not_mem_erase
  · obtain ⟨⟨-, hnot⟩, rfl⟩ := step_watchReturn hstep
    exact neverInvoked_iff hissued hnot

/-- A call in flight has invoked the first of two observers, and a later one has made no copy yet. -/
def halfInvoked : List Action :=
  [.add defaultRequest "r" 1, .snapshot 0 [0, 1], .invoke 0, .add defaultRequest "q" 2]

/-- The first observer is gone at once, the second is still invoked. -/
theorem unregister_neverInvoked_halfInvoked :
    ∃ s s' s'' t, run step (start 2) halfInvoked = some s ∧ step s (.unregister 0) = some s' ∧
      NeverInvoked 0 s' ∧ step s' (.watchReturn 0) = some s'' ∧ NeverInvoked 0 s'' ∧
      step s (.unregister 1) = some t ∧ ¬ NeverInvoked 1 t := by
  refine ⟨_, _, _, _, rfl, rfl, ?_, rfl, ?_, rfl, fun hnever => ?_⟩
  · exact ((unregister_neverInvoked_iff 2 0 _ _ ⟨halfInvoked, rfl⟩ (by decide)).1 rfl).mpr (by decide)
  · exact ((unregister_neverInvoked_iff 2 0 _ _ ⟨halfInvoked ++ [.unregister 0], rfl⟩ (by decide)).2 rfl).mpr
      (by decide)
  · have hunheld := ((unregister_neverInvoked_iff 2 1 _ _ ⟨halfInvoked, rfl⟩ (by decide)).1 rfl).mp hnever
    exact absurd hunheld (by decide)

/-- A call has copied the observers when the only one is unregistered and its `WatchRoutes` call
returns. -/
def heldRun : List Action := [.add defaultRequest "r" 1, .snapshot 0 [0]]

/-- The held observer is invoked after `unregisterObserver` and `WatchRoutes` have returned. -/
theorem unregister_invoked_later :
    (¬ ∀ (n h : ℕ) (s s' : Shared), Reachable n s → h < s.nextHandle →
        step s (.unregister h) = some s' → NeverInvoked h s') ∧
    (¬ ∀ (n h : ℕ) (s s' : Shared), Reachable n s → h < s.nextHandle →
        step s (.watchReturn h) = some s' → NeverInvoked h s') := by
  refine ⟨fun hall => ?_, fun hall => ?_⟩
  · have hnever := hall 1 0 _ _ ⟨heldRun, rfl⟩ (by decide) rfl
    exact absurd (hnever [.invoke 0] _ rfl) (by decide)
  · have hnever := hall 1 0 _ _ ⟨heldRun ++ [.unregister 0], rfl⟩ (by decide) rfl
    exact absurd (hnever [.invoke 0] _ rfl) (by decide)

end Rtsrv.Server
