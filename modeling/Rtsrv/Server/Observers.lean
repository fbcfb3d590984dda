import Rtsrv.Lib.Run
import Rtsrv.Server.RouteManager

/-!
# Rtsrv.Server.Observers — concurrent calls and their notifications

`addRoute` and `removeRoute` update the table under one lock, copy the observer list under another and
then invoke the copies with no lock held.  The state below has one entry for each update made so far,
with the observers its call still has to invoke; the actions are the atomic steps, taken in any order.
Handles are counted without overflow.
-/

namespace Rtsrv.Server

open Lib

/-- A call past its update: before its copy of the observers, or with the copies not yet invoked. -/
inductive Notification where
  | updated (ev : RouteEvent)
  | invoking (ev : RouteEvent) (snapshot : List ℕ)
  deriving DecidableEq, Repr

def Notification.event : Notification → RouteEvent
  | .updated ev => ev
  | .invoking ev _ => ev

/-- The route manager, the calls in the order of their updates, what each observer has received, and
the `WatchRoutes` calls that have returned, by the handle of their observer. -/
structure Shared where
  routes : Routes
  nextHandle : ℕ
  observers : List ℕ
  calls : List Notification
  received : ℕ → List RouteEvent
  watchReturned : List ℕ

inductive Action where
  | add (req : AddRouteRequest) (id : String) (now : ℤ)
  | remove (id : String) (now : ℤ)
  | snapshot (call : ℕ) (order : List ℕ)
  | invoke (call : ℕ)
  | register
  | unregister (handle : ℕ)
  | watchReturn (handle : ℕ)
  deriving DecidableEq, Repr

/-- One atomic step.  `snapshot` copies the observers in whatever order the hash map gives them.  `invoke` is
an invocation that comes to its end, so one that is in progress counts as not made yet.  A `WatchRoutes` call
returns right after it has unregistered its observer. -/
def step (s : Shared) : Action → Option Shared
  | .add req id now =>
    match addRoute s.routes req id now with
    | .error _ => some s
    | .ok (routes, ev) => some { s with routes := routes, calls := s.calls ++ [.updated ev] }
  | .remove id now =>
    match removeRoute s.routes id now with
    | .error _ => some s
    | .ok (routes, ev) => some { s with routes := routes, calls := s.calls ++ [.updated ev] }
  | .snapshot i order =>
    match s.calls[i]? with
    | some (.updated ev) =>
      if order.Perm s.observers then some { s with calls := s.calls.set i (.invoking ev order) }
      else none
    | _ => none
  | .invoke i =>
    match s.calls[i]? with
    | some (.invoking ev (h :: rest)) =>
      some { s with
        calls := s.calls.set i (.invoking ev rest)
        received := Function.update s.received h (s.received h ++ [ev]) }
    | _ => none
  | .register =>
    some { s with observers := s.observers ++ [s.nextHandle], nextHandle := s.nextHandle + 1 }
  | .unregister h => some { s with observers := s.observers.erase h }
  | .watchReturn h =>
    if h < s.nextHandle ∧ h ∉ s.observers then some { s with watchReturned := h :: s.watchReturned }
    else none

/-- An empty table with `n` registered observers. -/
def start (n : ℕ) : Shared := ⟨.empty, n, List.range n, [], fun _ => [], []⟩

/-! ### What a step can do -/

/-- A call that updates the table adds its notification; a refused one changes nothing. -/
theorem step_update {s s' : Shared} {a : Action}
    (ha : (∃ req id now, a = .add req id now) ∨ ∃ id now, a = .remove id now)
    (h : step s a = some s') :
    s' = s ∨ ∃ routes ev,
      ((∃ req id now, a = .add req id now ∧ addRoute s.routes req id now = .ok (routes, ev)) ∨
        ∃ id now, a = .remove id now ∧ removeRoute s.routes id now = .ok (routes, ev)) ∧
      s' = { s with routes := routes, calls := s.calls ++ [.updated ev] } := by
  rcases ha with ⟨req, id, now, rfl⟩ | ⟨id, now, rfl⟩
  · cases hr : addRoute s.routes req id now with
    | error e =>
      simp only [step, hr] at h
      exact .inl (Option.some.inj h).symm
    | ok r =>
      obtain ⟨routes, ev⟩ := r
      simp only [step, hr] at h
      exact .inr ⟨routes, ev, .inl ⟨req, id, now, rfl, hr⟩, (Option.some.inj h).symm⟩
  · cases hr : removeRoute s.routes id now with
    | error e =>
      simp only [step, hr] at h
      exact .inl (Option.some.inj h).symm
    | ok r =>
      obtain ⟨routes, ev⟩ := r
      simp only [step, hr] at h
      exact .inr ⟨routes, ev, .inr ⟨id, now, rfl, hr⟩, (Option.some.inj h).symm⟩

theorem step_snapshot {s s' : Shared} {i : ℕ} {order : List ℕ}
    (h : step s (.snapshot i order) = some s') :
    ∃ ev, s.calls[i]? = some (.updated ev) ∧ order.Perm s.observers ∧
      s' = { s with calls := s.calls.set i (.invoking ev order) } := by
  rw [step] at h
  split at h
  · next ev hc =>
    split_ifs at h with hperm
    exact ⟨ev, hc, hperm, (Option.some.inj h).symm⟩
  · cases h

theorem step_invoke {s s' : Shared} {i : ℕ} (h : step s (.invoke i) = some s') :
    ∃ ev k rest, s.calls[i]? = some (.invoking ev (k :: rest)) ∧
      s' = { s with
        calls := s.calls.set i (.invoking ev rest)
        received := Function.update s.received k (s.received k ++ [ev]) } := by
  rw [step] at h
  split at h
  · next ev k rest hc => exact ⟨ev, k, rest, hc, (Option.some.inj h).symm⟩
  · cases h

theorem step_watchReturn {s s' : Shared} {h : ℕ} (hs : step s (.watchReturn h) = some s') :
    (h < s.nextHandle ∧ h ∉ s.observers) ∧
      s' = { s with watchReturned := h :: s.watchReturned } := by
  rw [step] at hs
  split_ifs at hs with hc
  exact ⟨hc, (Option.some.inj hs).symm⟩

/-! ### Handles -/

/-- Registered handles are distinct and were handed out, and so are those in every copy. -/
structure Handles (s : Shared) : Prop where
  distinct : s.observers.Nodup
  issued : ∀ h ∈ s.observers, h < s.nextHandle
  copies : ∀ ev snapshot, .invoking ev snapshot ∈ s.calls → snapshot.Nodup

theorem handles_start (n : ℕ) : Handles (start n) where
  distinct := List.nodup_range
  issued := fun _ h => List.mem_range.mp h
  copies := fun _ _ h => absurd h (List.not_mem_nil)

theorem handles_step {s s' : Shared} {a : Action} (hs : Handles s) (h : step s a = some s') :
    Handles s' := by
  have hupdate : ∀ routes ev, Handles { s with routes := routes, calls := s.calls ++ [.updated ev] } := by
    intro routes ev
    refine ⟨hs.distinct, hs.issued, fun ev' snapshot hmem => ?_⟩
    rcases List.mem_append.mp hmem with hmem | hmem
    · exact hs.copies ev' snapshot hmem
    · cases List.mem_singleton.mp hmem
  cases a with
  | add req id now =>
    rcases step_update (.inl ⟨req, id, now, rfl⟩) h with rfl | ⟨routes, ev, -, rfl⟩
    · exact hs
    · exact hupdate routes ev
  | remove id now =>
    rcases step_update (.inr ⟨id, now, rfl⟩) h with rfl | ⟨routes, ev, -, rfl⟩
    · exact hs
    · exact hupdate routes ev
  | snapshot i order =>
    obtain ⟨ev, -, hperm, rfl⟩ := step_snapshot h
    refine ⟨hs.distinct, hs.issued, fun ev' snapshot hmem => ?_⟩
    rcases List.mem_or_eq_of_mem_set hmem with hmem | heq
    · exact hs.copies ev' snapshot hmem
    · cases heq
      exact hperm.nodup_iff.mpr hs.distinct
  | invoke i =>
    obtain ⟨ev, k, rest, hc, rfl⟩ := step_invoke h
    refine ⟨hs.distinct, hs.issued, fun ev' snapshot hmem => ?_⟩
    rcases List.mem_or_eq_of_mem_set hmem with hmem | heq
    · exact hs.copies ev' snapshot hmem
    · cases heq
      exact (hs.copies ev (k :: rest) (List.mem_of_getElem? hc)).of_cons
  | register =>
    obtain rfl := Option.some.inj h
    refine ⟨?_, fun k hk => ?_, hs.copies⟩
    · refine List.Nodup.append hs.distinct (List.nodup_singleton _) ?_
      rw [List.disjoint_singleton]
      exact fun hmem => Nat.lt_irrefl _ (hs.issued _ hmem)
    · rcases List.mem_append.mp hk with hk | hk
      · exact Nat.lt_succ_of_lt (hs.issued k hk)
      · rw [List.mem_singleton.mp hk]
        exact Nat.lt_succ_self _
  | unregister k =>
    obtain rfl := Option.some.inj h
    exact ⟨hs.distinct.erase k, fun j hj => hs.issued j (List.mem_of_mem_erase hj), hs.copies⟩
  | watchReturn k =>
    obtain ⟨-, rfl⟩ := step_watchReturn h
    exact ⟨hs.distinct, hs.issued, hs.copies⟩

/-! ### A call with nothing in between -/

/-- What the observers have received after the copies in `snapshot` were invoked with `ev`. -/
def deliver (ev : RouteEvent) (snapshot : List ℕ) (received : ℕ → List RouteEvent) :
    ℕ → List RouteEvent :=
  fun k => if k ∈ snapshot then received k ++ [ev] else received k

theorem deliver_cons {ev : RouteEvent} {k : ℕ} {rest : List ℕ} (received : ℕ → List RouteEvent)
    (hk : k ∉ rest) :
    deliver ev rest (Function.update received k (received k ++ [ev])) =
      deliver ev (k :: rest) received := by
  funext j
  simp only [deliver, List.mem_cons]
  by_cases hj : j = k
  · subst hj
    rw [if_neg hk, Function.update_self, if_pos (.inl rfl)]
  · rw [Function.update_of_ne hj]
    simp only [hj, false_or]

/-- A call that is left alone invokes each observer of its copy once. -/
theorem run_invokes {ev : RouteEvent} {i : ℕ} (snapshot : List ℕ) (hnodup : snapshot.Nodup) :
    ∀ s : Shared, s.calls[i]? = some (.invoking ev snapshot) →
      run step s (List.replicate snapshot.length (.invoke i)) =
        some { s with
          calls := s.calls.set i (.invoking ev [])
          received := deliver ev snapshot s.received } := by
  induction snapshot with
  | nil =>
    intro s hc
    obtain ⟨hi, hget⟩ := List.getElem?_eq_some_iff.mp hc
    have hset : s.calls.set i (.invoking ev []) = s.calls := by rw [← hget, List.set_getElem_self]
    have hdel : deliver ev [] s.received = s.received := by
      funext k
      simp [deliver]
    rw [hset, hdel]
    rfl
  | cons k rest ih =>
    intro s hc
    obtain ⟨hk, hrest⟩ := List.nodup_cons.mp hnodup
    have hi : i < s.calls.length := (List.getElem?_eq_some_iff.mp hc).1
    refine run_cons.mpr ⟨_, by rw [step, hc], ?_⟩
    rw [ih hrest _ (by show (s.calls.set i _)[i]? = _; rw [List.getElem?_set_self hi])]
    show some (Shared.mk _ _ _ ((s.calls.set i _).set i _) (deliver ev rest _) _) = _
    rw [List.set_set, deliver_cons s.received hk]

/-- **A complete call**: update, copy and invocations in a row hand the event of the update to each
registered observer once, and change nothing else but the table. -/
theorem run_complete_call {s : Shared} (hs : Handles s) {a : Action} {routes : Routes}
    {ev : RouteEvent}
    (hstep : step s a = some { s with routes := routes, calls := s.calls ++ [.updated ev] }) :
    run step s (a :: .snapshot s.calls.length s.observers ::
        List.replicate s.observers.length (.invoke s.calls.length)) =
      some { s with
        routes := routes
        calls := s.calls ++ [.invoking ev []]
        received := deliver ev s.observers s.received } := by
  have hset : ∀ c c' : Notification, (s.calls ++ [c]).set s.calls.length c' = s.calls ++ [c'] := by
    intro c c'
    rw [List.set_append_right _ _ (Nat.le_refl _), Nat.sub_self]
    rfl
  have hcopy : step { s with routes := routes, calls := s.calls ++ [.updated ev] }
      (.snapshot s.calls.length s.observers) =
      some { s with routes := routes, calls := s.calls ++ [.invoking ev s.observers] } := by
    rw [step, List.getElem?_concat_length]
    show (if s.observers.Perm s.observers then _ else _) = _
    rw [if_pos (List.Perm.refl _), hset]
  refine run_cons.mpr ⟨_, hstep, run_cons.mpr ⟨_, hcopy, ?_⟩⟩
  rw [run_invokes s.observers hs.distinct _ List.getElem?_concat_length, hset]

end Rtsrv.Server
