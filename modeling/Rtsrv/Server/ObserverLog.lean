import Rtsrv.Server.Observers

/-!
# Rtsrv.Server.ObserverLog — what an observer can rebuild from its events

The updates form a log whose replay is the table.  An observer receives the same events, each once, but
in the order of the deliveries.  As long as no delivery overtakes an earlier update of the same route,
what the observer has received of a route, followed by what it is still owed, is that route's part of
the log; with nothing owed the two replays agree.
-/

namespace Rtsrv.Server

open Lib

/-- The call will still invoke observer `h`, which is registered. -/
def Notification.owes (h : ℕ) : Notification → Bool
  | .updated _ => true
  | .invoking _ snapshot => h ∈ snapshot

/-- The events of one route. -/
def ofRoute (id : String) (evs : List RouteEvent) : List RouteEvent :=
  evs.filter fun ev => ev.route.id = id

/-- The updates made, in order. -/
def updates (calls : List Notification) : List RouteEvent := calls.map Notification.event

/-- The updates that observer `h` has not heard of. -/
def owed (h : ℕ) (calls : List Notification) : List RouteEvent :=
  updates (calls.filter (Notification.owes h))

/-- The call has invoked every observer in its copy. -/
def Notification.returned : Notification → Bool
  | .invoking _ [] => true
  | _ => false

/-- All calls have returned. -/
def Shared.Returned (s : Shared) : Prop := ∀ c ∈ s.calls, c.returned = true

instance (s : Shared) : Decidable s.Returned := inferInstanceAs (Decidable (∀ c ∈ s.calls, _))

/-- The state of an observer that replays faithfully so far. -/
structure Faithful (h : ℕ) (s : Shared) : Prop where
  handles : Handles s
  registered : h ∈ s.observers
  contents : s.routes.contents = replay (fun _ => none) ((updates s.calls).map RouteEvent.change)
  inOrder : ∀ id,
    ofRoute id (updates s.calls) = ofRoute id (s.received h) ++ ofRoute id (owed h s.calls)

/-! ### Conditions on a step -/

/-- An `addRoute` draws an id that no earlier update has used. -/
def FreshId (s : Shared) (a : Action) : Prop :=
  match a with
  | .add _ id _ => ∀ ev ∈ updates s.calls, ev.route.id ≠ id
  | _ => True

/-- Observer `h` is not handed an event while an earlier update of the same route is still owed to it. -/
def NoOvertaking (h : ℕ) (s : Shared) (a : Action) : Prop :=
  match a with
  | .invoke i =>
    match s.calls[i]? with
    | some (.invoking ev (k :: _)) =>
      k = h → ∀ c ∈ s.calls.take i, c.event.route.id = ev.route.id → c.owes h = false
    | _ => True
  | _ => True

instance (s : Shared) : ∀ a, Decidable (FreshId s a)
  | .add _ id _ => inferInstanceAs (Decidable (∀ ev ∈ updates s.calls, ev.route.id ≠ id))
  | .remove .. | .snapshot .. | .invoke .. | .register | .unregister .. | .watchReturn .. =>
    .isTrue trivial

instance (h : ℕ) (s : Shared) (a : Action) : Decidable (NoOvertaking h s a) := by
  unfold NoOvertaking
  split
  · split <;> infer_instance
  · infer_instance

/-! ### Steps -/

theorem ofRoute_append (id : String) (evs evs' : List RouteEvent) :
    ofRoute id (evs ++ evs') = ofRoute id evs ++ ofRoute id evs' := List.filter_append evs evs'

theorem ofRoute_change (id : String) (evs : List RouteEvent) :
    (evs.map RouteEvent.change).filter (·.key = id) = (ofRoute id evs).map RouteEvent.change := by
  rw [List.filter_map, ofRoute]
  congr 1
  refine List.filter_congr fun ev _ => ?_
  simp

theorem updates_append (calls calls' : List Notification) :
    updates (calls ++ calls') = updates calls ++ updates calls' := List.map_append

theorem owed_append (h : ℕ) (calls calls' : List Notification) :
    owed h (calls ++ calls') = owed h calls ++ owed h calls' := by
  rw [owed, List.filter_append, updates_append]
  rfl

theorem owed_cons (h : ℕ) (c : Notification) (calls : List Notification) :
    owed h (c :: calls) = if c.owes h then c.event :: owed h calls else owed h calls := by
  rw [owed, List.filter_cons]
  split_ifs <;> rfl

/-- A call that goes on keeps its event. -/
theorem updates_set {calls : List Notification} {i : ℕ} {c c' : Notification}
    (hc : calls[i]? = some c) (hev : c'.event = c.event) :
    updates (calls.set i c') = updates calls := by
  obtain ⟨l₁, l₂, rfl, -, hset⟩ := split_set hc c'
  rw [hset, updates_append, updates_append]
  exact congrArg (fun e => updates l₁ ++ e :: updates l₂) hev

theorem owed_set {calls : List Notification} {h i : ℕ} {c c' : Notification}
    (hc : calls[i]? = some c) (hev : c'.event = c.event) (howes : c'.owes h = c.owes h) :
    owed h (calls.set i c') = owed h calls := by
  obtain ⟨l₁, l₂, rfl, -, hset⟩ := split_set hc c'
  rw [hset, owed_append, owed_append, owed_cons, owed_cons, howes, hev]

theorem faithful_start {n h : ℕ} (hn : h < n) : Faithful h (start n) where
  handles := handles_start n
  registered := List.mem_range.mpr hn
  contents := Routes.contents_empty
  inOrder := fun _ => rfl

/-- An id that no update has used is not in the table. -/
theorem Faithful.contents_fresh {h : ℕ} {s : Shared} (hf : Faithful h s) {id : String}
    (hfresh : ∀ ev ∈ updates s.calls, ev.route.id ≠ id) : s.routes.contents id = none := by
  rw [hf.contents]
  refine replay_of_notMem _ fun c hc => ?_
  obtain ⟨ev, hev, rfl⟩ := List.mem_map.mp hc
  rw [RouteEvent.change_key]
  exact hfresh ev hev

/-- A new update is owed to every observer. -/
theorem faithful_update {h : ℕ} {s : Shared} {routes : Routes} {ev : RouteEvent}
    (hf : Faithful h s)
    (hs' : Handles { s with routes := routes, calls := s.calls ++ [.updated ev] })
    (hc : routes.contents = applyChange s.routes.contents ev.change) :
    Faithful h { s with routes := routes, calls := s.calls ++ [.updated ev] } where
  handles := hs'
  registered := hf.registered
  contents := by
    show routes.contents =
      replay _ ((updates (s.calls ++ [.updated ev])).map RouteEvent.change)
    rw [updates_append, List.map_append, replay_append, hc, hf.contents]
    rfl
  inOrder := fun id => by
    show ofRoute id (updates (s.calls ++ [.updated ev])) =
      ofRoute id (s.received h) ++ ofRoute id (owed h (s.calls ++ [.updated ev]))
    have howed : owed h [.updated ev] = updates [.updated ev] := rfl
    rw [updates_append, owed_append, ofRoute_append, ofRoute_append, hf.inOrder id, howed,
      List.append_assoc]

/-- The invocation of `h` itself: the event leaves what is owed and joins what is received. -/
theorem inOrder_invoke {h i : ℕ} {s : Shared} {ev : RouteEvent} {rest : List ℕ}
    (hf : Faithful h s) (hord : NoOvertaking h s (.invoke i))
    (hc : s.calls[i]? = some (.invoking ev (h :: rest))) (id : String) :
    ofRoute id (s.received h) ++ ofRoute id (owed h s.calls) =
      ofRoute id (s.received h ++ [ev]) ++ ofRoute id (owed h (s.calls.set i (.invoking ev rest))) := by
  obtain ⟨l₁, l₂, hl, htake, hset⟩ := split_set hc (.invoking ev rest)
  have hnot : h ∉ rest :=
    (List.nodup_cons.mp (hf.handles.copies ev _ (List.mem_of_getElem? hc))).1
  have hold : owed h s.calls = owed h l₁ ++ ev :: owed h l₂ := by
    rw [hl, owed_append, owed_cons, if_pos (by simp [Notification.owes])]
    rfl
  have hnew : owed h (s.calls.set i (.invoking ev rest)) = owed h l₁ ++ owed h l₂ := by
    rw [hset, owed_append, owed_cons, if_neg (by simpa [Notification.owes] using hnot)]
  have hev : ofRoute id (ev :: owed h l₂) = ofRoute id [ev] ++ ofRoute id (owed h l₂) :=
    ofRoute_append id [ev] _
  rw [hold, hnew, ofRoute_append, ofRoute_append, ofRoute_append, hev, List.append_assoc]
  congr 1
  by_cases hid : ev.route.id = id
  · -- nothing of this route is owed from before call `i`
    have hnone : ofRoute id (owed h l₁) = [] := by
      rw [ofRoute, List.filter_eq_nil_iff]
      intro e he
      obtain ⟨c, hc', rfl⟩ := List.mem_map.mp he
      obtain ⟨hmem, howes⟩ := List.mem_filter.mp hc'
      intro heq
      simp only [NoOvertaking, hc] at hord
      have hpaid := hord trivial c (htake ▸ hmem) (by rw [hid]; simpa using heq)
      rw [hpaid] at howes
      cases howes
    rw [hnone, List.nil_append, List.nil_append]
  · have hnone : ofRoute id [ev] = [] := by simp [ofRoute, hid]
    rw [hnone, List.nil_append, List.nil_append]

/-- A call that copies the observers goes on owing its event. -/
theorem faithful_snapshot {h i : ℕ} {s : Shared} {ev : RouteEvent} {order : List ℕ} (hf : Faithful h s)
    (hs' : Handles { s with calls := s.calls.set i (.invoking ev order) })
    (hc : s.calls[i]? = some (.updated ev)) (hperm : order.Perm s.observers) :
    Faithful h { s with calls := s.calls.set i (.invoking ev order) } := by
  have hupd : updates (s.calls.set i (.invoking ev order)) = updates s.calls := updates_set hc rfl
  have howed : owed h (s.calls.set i (.invoking ev order)) = owed h s.calls :=
    owed_set hc rfl (by simpa [Notification.owes] using hperm.mem_iff.mpr hf.registered)
  refine ⟨hs', hf.registered, ?_, fun id => ?_⟩
  · show _ = replay _ ((updates (s.calls.set i (.invoking ev order))).map RouteEvent.change)
    rw [hupd]
    exact hf.contents
  · show ofRoute id (updates (s.calls.set i (.invoking ev order))) =
      ofRoute id (s.received h) ++ ofRoute id (owed h (s.calls.set i (.invoking ev order)))
    rw [hupd, howed]
    exact hf.inOrder id

/-- The invocation of one observer pays it, and owes the others what it owed them. -/
theorem faithful_invoke {h i k : ℕ} {s : Shared} {ev : RouteEvent} {rest : List ℕ} (hf : Faithful h s)
    (hord : NoOvertaking h s (.invoke i)) (hc : s.calls[i]? = some (.invoking ev (k :: rest)))
    (hs' : Handles { s with
      calls := s.calls.set i (.invoking ev rest)
      received := Function.update s.received k (s.received k ++ [ev]) }) :
    Faithful h { s with
      calls := s.calls.set i (.invoking ev rest)
      received := Function.update s.received k (s.received k ++ [ev]) } := by
  have hupd : updates (s.calls.set i (.invoking ev rest)) = updates s.calls := updates_set hc rfl
  refine ⟨hs', hf.registered, ?_, fun id => ?_⟩
  · show _ = replay _ ((updates (s.calls.set i (.invoking ev rest))).map RouteEvent.change)
    rw [hupd]
    exact hf.contents
  · show ofRoute id (updates (s.calls.set i (.invoking ev rest))) =
      ofRoute id (Function.update s.received k (s.received k ++ [ev]) h) ++
        ofRoute id (owed h (s.calls.set i (.invoking ev rest)))
    rw [hupd, hf.inOrder id]
    by_cases hk : h = k
    · subst hk
      rw [Function.update_self]
      exact inOrder_invoke hf hord hc id
    · have howed : owed h (s.calls.set i (.invoking ev rest)) = owed h s.calls :=
        owed_set hc rfl (by simp [Notification.owes, hk])
      rw [Function.update_of_ne hk, howed]

/-- **Step lemma**: every step with a fresh id that does not overtake keeps the observer faithful. -/
theorem faithful_step {h : ℕ} {s s' : Shared} {a : Action} (hf : Faithful h s)
    (hkeep : a ≠ .unregister h) (hfresh : FreshId s a) (hord : NoOvertaking h s a)
    (hstep : step s a = some s') : Faithful h s' := by
  have hs' := handles_step hf.handles hstep
  cases a with
  | add req id now =>
    rcases step_update (.inl ⟨req, id, now, rfl⟩) hstep with rfl | ⟨routes, ev, hr, rfl⟩
    · exact hf
    · rcases hr with ⟨_, _, _, heq, hr⟩ | ⟨_, _, heq, -⟩
      · cases heq
        exact faithful_update hf hs' (addRoute_ok (hf.contents_fresh hfresh) hr).2.2
      · cases heq
  | remove id now =>
    rcases step_update (.inr ⟨id, now, rfl⟩) hstep with rfl | ⟨routes, ev, hr, rfl⟩
    · exact hf
    · rcases hr with ⟨_, _, _, heq, -⟩ | ⟨_, _, heq, hr⟩
      · cases heq
      · cases heq
        exact faithful_update hf hs' (removeRoute_ok hr).2.2.2
  | snapshot i order =>
    obtain ⟨ev, hc, hperm, rfl⟩ := step_snapshot hstep
    exact faithful_snapshot hf hs' hc hperm
  | invoke i =>
    obtain ⟨ev, k, rest, hc, rfl⟩ := step_invoke hstep
    exact faithful_invoke hf hord hc hs'
  | register =>
    obtain rfl := Option.some.inj hstep
    exact ⟨hs', List.mem_append_left _ hf.registered, hf.contents, hf.inOrder⟩
  | unregister k =>
    obtain rfl := Option.some.inj hstep
    have hk : h ≠ k := fun heq => hkeep (by rw [heq])
    exact ⟨hs', (List.mem_erase_of_ne hk).mpr hf.registered, hf.contents, hf.inOrder⟩
  | watchReturn k =>
    obtain ⟨-, rfl⟩ := step_watchReturn hstep
    exact ⟨hs', hf.registered, hf.contents, hf.inOrder⟩

/-! ### Runs -/

/-- With nothing owed the events received replay to the table. -/
theorem Faithful.replay_received {h : ℕ} {s : Shared} (hf : Faithful h s) (hdone : s.Returned) :
    replay (fun _ => none) ((s.received h).map RouteEvent.change) = s.routes.contents := by
  have howed : owed h s.calls = [] := by
    rw [owed, updates, List.map_eq_nil_iff, List.filter_eq_nil_iff]
    intro c hc
    have hret := hdone c hc
    unfold Notification.returned at hret
    split at hret
    · simp [Notification.owes]
    · cases hret
  rw [hf.contents]
  refine replay_congr _ fun id => ?_
  rw [ofRoute_change, ofRoute_change, hf.inOrder id, howed]
  simp [ofRoute]

/-- **Observers replay the table**: in every run with fresh ids in which no delivery to a registered
observer overtakes an earlier update of the same route, once all calls have returned the events the
observer received rebuild the table. -/
theorem received_replays_routes (n h : ℕ) (hn : h < n) (acts : List Action) (s : Shared)
    (hrun : run step (start n) acts = some s) (hkeep : Action.unregister h ∉ acts)
    (hfresh : Along step FreshId (start n) acts) (hord : Along step (NoOvertaking h) (start n) acts)
    (hdone : s.Returned) :
    replay (fun _ => none) ((s.received h).map RouteEvent.change) = s.routes.contents := by
  have hkept : Along step (fun _ a => a ≠ .unregister h) (start n) acts := by
    refine along_of_mem (fun a ha _ => ?_) (start n)
    rintro rfl
    exact hkeep ha
  have hf : Faithful h s := by
    refine run_invariant (fun t a t' ht hP hstep => ?_) (faithful_start hn)
      ((hkept.and hfresh).and hord) hrun
    exact faithful_step ht hP.1.1 hP.1.2 hP.2 hstep
  exact hf.replay_received hdone

/-- One observer; a route is added, announced, removed and announced. -/
def orderedRun : List Action :=
  [.add defaultRequest "r" 1, .snapshot 0 [0], .invoke 0, .remove "r" 2, .snapshot 1 [0], .invoke 1]

theorem received_replays_routes_ordered :
    ∃ s, run step (start 1) orderedRun = some s ∧
      replay (fun _ => none) ((s.received 0).map RouteEvent.change) = s.routes.contents := by
  exact ⟨_, rfl, received_replays_routes 1 0 (by decide) orderedRun _ rfl (by decide) (by decide)
    (by decide) (by decide)⟩

/-- The same route, removed between its update and its announcement: the observer hears ADDED last. -/
def overtakenRun : List Action :=
  [.add defaultRequest "r" 1, .remove "r" 2, .snapshot 1 [0], .invoke 1, .snapshot 0 [0], .invoke 0]

theorem received_replays_overtaken :
    ¬ ∀ (n h : ℕ) (acts : List Action) (s : Shared), h < n → run step (start n) acts = some s →
      Action.unregister h ∉ acts → Along step FreshId (start n) acts → s.Returned →
        replay (fun _ => none) ((s.received h).map RouteEvent.change) = s.routes.contents := by
  intro hall
  have heq := hall 1 0 overtakenRun _ (by decide) rfl (by decide) (by decide) (by decide)
  exact absurd (congrFun heq "r") (by decide)

end Rtsrv.Server
