import Rtsrv.Server.Observers
import Rtsrv.Server.RouteListing

/-!
# Rtsrv.Server.WatchRoutes — a stream of route events (`SwitchRouteManagerImpl::WatchRoutes`)

The stream first writes the listed routes, then registers an observer that queues events, then writes
what the queue gives.  Other clients' calls are complete steps here; `announce_refines` relates such a
step to the run of the small steps of one call.
-/

namespace Rtsrv.Server

open Lib

structure WatchRoutesRequest where
  address_family : AddressFamily
  send_initial_state : Bool
  deriving DecidableEq, Repr

/-- Where the call is: before its listing, writing the listing, forwarding events, or over. -/
inductive Phase where
  | opened
  | initial (snapshot : List Route) (ts : ℤ) (rest : List Route)
  | streaming (batch : List RouteEvent)
  | closed
  deriving DecidableEq, Repr

/-- The table, the call, its queue and the events written to the client. -/
structure Watch where
  routes : Routes
  phase : Phase
  pending : List RouteEvent
  written : List RouteEvent

inductive WatchAction where
  | add (req : AddRouteRequest) (id : String) (now : ℤ)
  | remove (id : String) (now : ℤ)
  | list (ts : ℤ)
  | writeInitial (ok : Bool)
  | register
  | swap
  | writeEvent (ok : Bool)
  | cancel
  deriving DecidableEq, Repr

def Phase.registered : Phase → Bool
  | .streaming _ => true
  | _ => false

/-- The filter of the stream: a route of the wanted family. -/
def wanted (req : WatchRoutesRequest) (route : Route) : Bool :=
  !(req.address_family != .UNSPECIFIED && route.address_family != req.address_family)

def listRequest (req : WatchRoutesRequest) : ListRoutesRequest :=
  ⟨req.address_family, .UNSPECIFIED, false⟩

/-- A complete call of another client: the table changes and a registered observer queues the event. -/
def Watch.announce (w : Watch) (routes : Routes) (ev : RouteEvent) : Watch :=
  { w with
    routes := routes
    pending := if w.phase.registered then w.pending ++ [ev] else w.pending }

def watchStep (req : WatchRoutesRequest) (w : Watch) : WatchAction → Option Watch
  | .add areq id now =>
    match addRoute w.routes areq id now with
    | .error _ => some w
    | .ok (routes, ev) => some (w.announce routes ev)
  | .remove id now =>
    match removeRoute w.routes id now with
    | .error _ => some w
    | .ok (routes, ev) => some (w.announce routes ev)
  | .list ts =>
    match w.phase with
    | .opened =>
      if req.send_initial_state then
        let snapshot := listRoutes w.routes (listRequest req)
        some { w with phase := .initial snapshot ts snapshot }
      else none
    | _ => none
  | .writeInitial ok =>
    match w.phase with
    | .initial snapshot ts (route :: rest) =>
      if ok then
        some { w with
          phase := .initial snapshot ts rest
          written := w.written ++ [⟨.ADDED, route, ts⟩] }
      else some { w with phase := .closed }
    | _ => none
  | .register =>
    match w.phase with
    | .opened => if req.send_initial_state then none else some { w with phase := .streaming [] }
    | .initial _ _ [] => some { w with phase := .streaming [] }
    | _ => none
  | .swap =>
    match w.phase with
    | .streaming [] => some { w with phase := .streaming w.pending, pending := [] }
    | _ => none
  | .writeEvent ok =>
    match w.phase with
    | .streaming (ev :: batch) =>
      if !wanted req ev.route then some { w with phase := .streaming batch }
      else if ok then
        some { w with phase := .streaming batch, written := w.written ++ [ev] }
      else some { w with phase := .closed }
    | _ => none
  | .cancel =>
    match w.phase with
    | .streaming [] => some { w with phase := .closed }
    | _ => none

/-- A stream just opened on a table. -/
def opened (routes : Routes) : Watch := ⟨routes, .opened, [], []⟩

/-! ### The subscribed part of the table -/

/-- The table as the subscription filters it. -/
def view (req : WatchRoutesRequest) (routes : Routes) : Table String Route :=
  fun id => (routes.contents id).filter (wanted req)

/-- What a client rebuilds from the events it was sent. -/
def rebuilt (evs : List RouteEvent) : Table String Route :=
  replay (fun _ => none) (evs.map RouteEvent.change)

theorem listed_listRequest (req : WatchRoutesRequest) (route : Route) :
    listed (listRequest req) route = wanted req route := by
  simp [listed, listRequest, wanted]

theorem view_eq_some {req : WatchRoutesRequest} {routes : Routes} {id : String} {route : Route} :
    view req routes id = some route ↔
      route ∈ listRoutes routes (listRequest req) ∧ route.id = id := by
  rw [mem_listRoutes, listed_listRequest, view, Option.filter_eq_some_iff]
  refine ⟨?_, ?_⟩
  · rintro ⟨hc, hw⟩
    obtain rfl : route.id = id := routes.keyed id route hc
    exact ⟨⟨hc, hw⟩, rfl⟩
  · rintro ⟨⟨hc, hw⟩, rfl⟩
    exact ⟨hc, hw⟩

theorem RouteEvent.change_value (ev : RouteEvent) :
    ev.change.value = none ∨ ev.change.value = some ev.route := by
  unfold RouteEvent.change
  cases ev.type
  · exact .inr rfl
  · exact .inl rfl

/-- A change of the table shows in the view if the route is wanted, and not otherwise. -/
theorem view_change {req : WatchRoutesRequest} {routes routes' : Routes} {ev : RouteEvent}
    (hc : routes'.contents = applyChange routes.contents ev.change)
    (hold : routes.contents ev.route.id = none ∨ routes.contents ev.route.id = some ev.route) :
    view req routes' =
      if wanted req ev.route then applyChange (view req routes) ev.change else view req routes := by
  have hval : wanted req ev.route = true → ev.change.value.filter (wanted req) = ev.change.value := by
    intro hw
    rcases ev.change_value with hv | hv <;> simp [hv, hw]
  have hdrop : wanted req ev.route = false → ∀ o, o = none ∨ o = some ev.route →
      Option.filter (wanted req) o = none := by
    rintro hw o (rfl | rfl) <;> simp [hw]
  funext k
  show (routes'.contents k).filter (wanted req) = _
  rw [hc, applyChange, RouteEvent.change_key]
  by_cases hk : k = ev.route.id
  · subst hk
    rw [Function.update_self]
    by_cases hw : wanted req ev.route = true
    · rw [if_pos hw, applyChange, RouteEvent.change_key, Function.update_self, hval hw]
    · rw [Bool.not_eq_true] at hw
      rw [if_neg (by simp [hw]), hdrop hw _ ev.change_value, view, hdrop hw _ hold]
  · rw [Function.update_of_ne hk]
    split_ifs
    · rw [applyChange, RouteEvent.change_key, Function.update_of_ne hk, view]
    · rfl

/-! ### The initial events -/

/-- The event that announces a listed route. -/
def initialEvent (ts : ℤ) (route : Route) : RouteEvent := ⟨.ADDED, route, ts⟩

/-- The initial events rebuild the listed routes. -/
theorem rebuilt_initial {routes : Routes} {req : ListRoutesRequest} {ts : ℤ} {id : String}
    {route : Route} :
    rebuilt ((listRoutes routes req).map (initialEvent ts)) id = some route ↔
      route ∈ listRoutes routes req ∧ route.id = id := by
  rw [rebuilt, List.map_map]
  have hkey : ∀ r ∈ listRoutes routes req, ∀ r' ∈ listRoutes routes req, r.id = r'.id → r = r' := by
    intro r hr r' hr' hid
    have h := (mem_listRoutes.mp hr).1
    rw [hid, (mem_listRoutes.mp hr').1] at h
    exact (Option.some.inj h).symm
  exact replay_puts _ hkey id route

/-! ### What a step can do -/

/-- The update behind a complete call, with the event it announces. -/
def Updates (w : Watch) (a : WatchAction) (routes : Routes) (ev : RouteEvent) : Prop :=
  (∃ req id now, a = .add req id now ∧ addRoute w.routes req id now = .ok (routes, ev)) ∨
    ∃ id now, a = .remove id now ∧ removeRoute w.routes id now = .ok (routes, ev)

/-- The steps, one constructor for each effect. -/
inductive WatchStep (req : WatchRoutesRequest) (w : Watch) : WatchAction → Watch → Prop where
  | refused (a) : WatchStep req w a w
  | announce (a) {routes ev} (hup : Updates w a routes ev) : WatchStep req w a (w.announce routes ev)
  | list (ts) (hp : w.phase = .opened) :
      WatchStep req w (.list ts)
        { w with
          phase := .initial (listRoutes w.routes (listRequest req)) ts
            (listRoutes w.routes (listRequest req)) }
  | writeInitial {snapshot ts route rest} (hp : w.phase = .initial snapshot ts (route :: rest)) :
      WatchStep req w (.writeInitial true)
        { w with
          phase := .initial snapshot ts rest
          written := w.written ++ [initialEvent ts route] }
  | register (hp : w.phase = .opened ∨ ∃ snapshot ts, w.phase = .initial snapshot ts []) :
      WatchStep req w .register { w with phase := .streaming [] }
  | swap (hp : w.phase = .streaming []) :
      WatchStep req w .swap { w with phase := .streaming w.pending, pending := [] }
  | skip {ev batch ok} (hp : w.phase = .streaming (ev :: batch)) (hw : wanted req ev.route = false) :
      WatchStep req w (.writeEvent ok) { w with phase := .streaming batch }
  | write {ev batch} (hp : w.phase = .streaming (ev :: batch)) (hw : wanted req ev.route = true) :
      WatchStep req w (.writeEvent true)
        { w with phase := .streaming batch, written := w.written ++ [ev] }
  | close (a) : WatchStep req w a { w with phase := .closed }

theorem watchStep_cases {req : WatchRoutesRequest} {w w' : Watch} {a : WatchAction}
    (h : watchStep req w a = some w') : WatchStep req w a w' := by
  cases a with
  | add areq id now =>
    cases hr : addRoute w.routes areq id now with
    | error e =>
      simp only [watchStep, hr] at h
      obtain rfl := Option.some.inj h
      exact .refused _
    | ok r =>
      simp only [watchStep, hr] at h
      obtain rfl := Option.some.inj h
      exact .announce _ (.inl ⟨areq, id, now, rfl, hr⟩)
  | remove id now =>
    cases hr : removeRoute w.routes id now with
    | error e =>
      simp only [watchStep, hr] at h
      obtain rfl := Option.some.inj h
      exact .refused _
    | ok r =>
      simp only [watchStep, hr] at h
      obtain rfl := Option.some.inj h
      exact .announce _ (.inr ⟨id, now, rfl, hr⟩)
  | list ts =>
    rw [watchStep] at h
    split at h
    · next hp =>
      split_ifs at h
      obtain rfl := Option.some.inj h
      exact .list ts hp
    · cases h
  | writeInitial ok =>
    rw [watchStep] at h
    split at h
    · next hp =>
      split_ifs at h with hok
      · obtain rfl := Option.some.inj h
        rw [hok]
        exact .writeInitial hp
      · obtain rfl := Option.some.inj h
        exact .close _
    · cases h
  | register =>
    rw [watchStep] at h
    split at h
    · next hp =>
      split_ifs at h
      obtain rfl := Option.some.inj h
      exact .register (.inl hp)
    · next hp =>
      obtain rfl := Option.some.inj h
      exact .register (.inr ⟨_, _, hp⟩)
    · cases h
  | swap =>
    rw [watchStep] at h
    split at h
    · next hp =>
      obtain rfl := Option.some.inj h
      exact .swap hp
    · cases h
  | writeEvent ok =>
    rw [watchStep] at h
    split at h
    · next hp =>
      split_ifs at h with hw hok
      · obtain rfl := Option.some.inj h
        exact .skip hp (by simpa using hw)
      · obtain rfl := Option.some.inj h
        rw [hok]
        exact .write hp (by simpa using hw)
      · obtain rfl := Option.some.inj h
        exact .close _
    · cases h
  | cancel =>
    rw [watchStep] at h
    split at h
    · obtain rfl := Option.some.inj h
      exact .close _
    · cases h

/-! ### Before the registration -/

/-- While the listing is written, the events written are those of the routes already taken from it. -/
def Listing (req : WatchRoutesRequest) (phase : Phase) (pending written : List RouteEvent) : Prop :=
  match phase with
  | .opened => pending = [] ∧ written = []
  | .initial snapshot ts rest => pending = [] ∧
      (∃ routes, snapshot = listRoutes routes (listRequest req)) ∧
      ∃ taken, snapshot = taken ++ rest ∧ written = taken.map (initialEvent ts)
  | _ => True

theorem listing_step {req : WatchRoutesRequest} {w w' : Watch} {a : WatchAction}
    (hw : Listing req w.phase w.pending w.written) (h : watchStep req w a = some w') :
    Listing req w'.phase w'.pending w'.written := by
  cases watchStep_cases h with
  | refused => exact hw
  | announce =>
    show Listing req w.phase (if w.phase.registered then _ else _) w.written
    revert hw
    cases w.phase <;> exact id
  | list ts hp =>
    rw [hp] at hw
    exact ⟨hw.1, ⟨w.routes, rfl⟩, [], rfl, hw.2⟩
  | @writeInitial snapshot ts route rest hp =>
    rw [hp] at hw
    obtain ⟨hpend, hlist, taken, hsplit, hwritten⟩ := hw
    refine ⟨hpend, hlist, taken ++ [route], ?_, ?_⟩
    · rw [hsplit, List.append_cons]
    · show w.written ++ [initialEvent ts route] = _
      rw [hwritten, List.map_append, List.map_singleton]
  | register => trivial
  | swap => trivial
  | skip => trivial
  | write => trivial
  | close => trivial

/-! ### After the registration -/

/-- The events written and those still queued rebuild the subscribed part of the table. -/
def Mirrors (req : WatchRoutesRequest) (w : Watch) : Prop :=
  w.phase = .closed ∨ ∃ batch, w.phase = .streaming batch ∧
    view req w.routes = rebuilt (w.written ++ (batch ++ w.pending).filter fun ev => wanted req ev.route)

/-- An `addRoute` draws an id that is not in the table. -/
def UnusedId (w : Watch) (a : WatchAction) : Prop :=
  match a with
  | .add _ id _ => w.routes.contents id = none
  | _ => True

theorem rebuilt_append (evs evs' : List RouteEvent) :
    rebuilt (evs ++ evs') = replay (rebuilt evs) (evs'.map RouteEvent.change) := by
  rw [rebuilt, List.map_append, replay_append]
  rfl

/-- What a complete call changes in the view. -/
theorem view_update {req : WatchRoutesRequest} {w : Watch} {a : WatchAction} {routes : Routes}
    {ev : RouteEvent} (hup : Updates w a routes ev) (hfresh : UnusedId w a) :
    view req routes =
      replay (view req w.routes) (([ev].filter fun ev => wanted req ev.route).map RouteEvent.change) := by
  have hchange : view req routes =
      if wanted req ev.route then applyChange (view req w.routes) ev.change
      else view req w.routes := by
    rcases hup with ⟨areq, id, now, rfl, hr⟩ | ⟨id, now, rfl, hr⟩
    · obtain ⟨-, rfl, hc⟩ := addRoute_ok hfresh hr
      exact view_change hc (.inl hfresh)
    · obtain ⟨-, rfl, hold, hc⟩ := removeRoute_ok hr
      exact view_change hc (.inr hold)
  rw [hchange]
  by_cases hw : wanted req ev.route = true
  · have hf : [ev].filter (fun ev => wanted req ev.route) = [ev] := by simp [hw]
    rw [if_pos hw, hf]
    rfl
  · have hf : [ev].filter (fun ev => wanted req ev.route) = [] := by simp [hw]
    rw [if_neg hw, hf]
    rfl

theorem mirrors_step {req : WatchRoutesRequest} {w w' : Watch} {a : WatchAction}
    (hw : Mirrors req w) (hfresh : UnusedId w a) (h : watchStep req w a = some w') :
    Mirrors req w' := by
  rcases hw with hclosed | ⟨batch, hp, hview⟩
  · -- a closed stream stays closed
    have hc : w'.phase = .closed := by
      cases watchStep_cases h with
      | refused => exact hclosed
      | announce => exact hclosed
      | list ts hp => rw [hclosed] at hp; cases hp
      | writeInitial hp => rw [hclosed] at hp; cases hp
      | register hp => rcases hp with hp | ⟨_, _, hp⟩ <;> rw [hclosed] at hp <;> cases hp
      | swap hp => rw [hclosed] at hp; cases hp
      | skip hp => rw [hclosed] at hp; cases hp
      | write hp => rw [hclosed] at hp; cases hp
      | close => rfl
    exact .inl hc
  cases watchStep_cases h with
  | refused => exact .inr ⟨batch, hp, hview⟩
  | @announce _ routes ev hup =>
    refine .inr ⟨batch, hp, ?_⟩
    have hpend : (w.announce routes ev).pending = w.pending ++ [ev] := by
      rw [Watch.announce, hp]
      rfl
    show view req routes = rebuilt (w.written ++ List.filter _ (batch ++ _))
    rw [hpend, view_update hup hfresh, hview, ← List.append_assoc batch,
      List.filter_append (batch ++ _), ← List.append_assoc w.written, rebuilt_append (w.written ++ _)]
  | list ts hp' => rw [hp] at hp'; cases hp'
  | writeInitial hp' => rw [hp] at hp'; cases hp'
  | register hp' => rcases hp' with hp' | ⟨_, _, hp'⟩ <;> rw [hp] at hp' <;> cases hp'
  | swap hp' =>
    rw [hp] at hp'
    cases hp'
    refine .inr ⟨w.pending, rfl, ?_⟩
    rw [List.append_nil]
    exact hview
  | @skip ev batch' _ hp' hwant =>
    rw [hp] at hp'
    cases hp'
    refine .inr ⟨batch', rfl, ?_⟩
    rw [List.cons_append, List.filter_cons, if_neg (by simp [hwant])] at hview
    exact hview
  | @write ev batch' hp' hwant =>
    rw [hp] at hp'
    cases hp'
    refine .inr ⟨batch', rfl, ?_⟩
    rw [List.cons_append, List.filter_cons, if_pos hwant] at hview
    show view req w.routes = rebuilt ((w.written ++ [ev]) ++ List.filter _ (batch' ++ w.pending))
    rw [List.append_assoc]
    exact hview
  | close => exact .inl rfl

/-! ### Runs -/

/-- The stream is open and nothing waits in its queue. -/
def Watch.Drained (w : Watch) : Prop := w.phase = .streaming [] ∧ w.pending = []

instance (w : Watch) : Decidable w.Drained := inferInstanceAs (Decidable (_ ∧ _))

theorem Mirrors.drained {req : WatchRoutesRequest} {w : Watch} (hw : Mirrors req w)
    (hd : w.Drained) : rebuilt w.written = view req w.routes := by
  obtain ⟨hp, hpend⟩ := hd
  rcases hw with hclosed | ⟨batch, hp', hview⟩
  · rw [hp] at hclosed
    cases hclosed
  · rw [hp] at hp'
    cases hp'
    rw [hview, hpend]
    simp

/-- **Initial state and stream**: from the registration on, in every run whose `addRoute` calls draw ids that
are not in the table, every state with an empty queue shows the client the subscribed part of the table,
exactly when the registration finds the same routes as the listing did. -/
theorem watch_rebuilds_iff (req : WatchRoutesRequest) (routes : Routes) (acts : List WatchAction)
    (w w' : Watch) (snapshot : List Route) (ts : ℤ)
    (hrun : run (watchStep req) (opened routes) acts = some w)
    (hphase : w.phase = .initial snapshot ts [])
    (hreg : watchStep req w .register = some w') :
    (∀ acts' t, run (watchStep req) w' acts' = some t → Along (watchStep req) UnusedId w' acts' →
        t.Drained → rebuilt t.written = view req t.routes) ↔
      ∀ route, route ∈ snapshot ↔ route ∈ listRoutes w.routes (listRequest req) := by
  have hlisting : Listing req w.phase w.pending w.written :=
    run_preserves (fun _ _ _ hw h => listing_step hw h)
      (show Listing req (opened routes).phase (opened routes).pending (opened routes).written from
        ⟨rfl, rfl⟩) hrun
  rw [hphase] at hlisting
  obtain ⟨hpend, ⟨routes₀, hsnap⟩, taken, htaken, hwritten⟩ := hlisting
  rw [List.append_nil] at htaken
  subst htaken
  obtain rfl : w' = { w with phase := .streaming [] } := by
    rw [watchStep, hphase] at hreg
    exact (Option.some.inj hreg).symm
  -- what the client has been sent so far
  have hsent : ∀ id route, rebuilt w.written id = some route ↔ route ∈ snapshot ∧ route.id = id := by
    intro id route
    rw [hwritten, hsnap]
    exact rebuilt_initial
  have hsame : rebuilt w.written = view req w.routes ↔
      ∀ route, route ∈ snapshot ↔ route ∈ listRoutes w.routes (listRequest req) := by
    refine ⟨fun heq route => ?_, fun hmem => ?_⟩
    · have h := hsent route.id route
      rw [heq, view_eq_some] at h
      simpa using h.symm
    · funext id
      refine Option.ext fun route => ?_
      rw [hsent, view_eq_some, hmem route]
  rw [← hsame]
  refine ⟨fun hall => hall [] { w with phase := .streaming [] } rfl trivial ⟨rfl, hpend⟩,
    fun heq acts' t hrun' hfresh hd => ?_⟩
  have hstart : Mirrors req { w with phase := .streaming [] } := by
    refine .inr ⟨[], rfl, ?_⟩
    rw [hpend]
    simpa using heq.symm
  exact (run_invariant (fun _ _ _ hw hu h => mirrors_step hw hu h) hstart hfresh hrun').drained hd

/-- A stream that asks for the initial state of all families. -/
def watchAll : WatchRoutesRequest := ⟨.UNSPECIFIED, true⟩

instance (w : Watch) : ∀ a, Decidable (UnusedId w a)
  | .add _ id _ => inferInstanceAs (Decidable (w.routes.contents id = none))
  | .remove .. | .list .. | .writeInitial .. | .register | .swap | .writeEvent .. | .cancel =>
    .isTrue trivial

theorem watch_rebuilds_listed :
    ∃ w w', run (watchStep watchAll) (opened .empty) [.add defaultRequest "r" 1, .list 2,
        .writeInitial true] = some w ∧
      watchStep watchAll w .register = some w' ∧
      ((∀ acts' t, run (watchStep watchAll) w' acts' = some t →
          Along (watchStep watchAll) UnusedId w' acts' → t.Drained →
            rebuilt t.written = view watchAll t.routes) ↔
        ∀ route, route ∈ [newRoute defaultRequest "r" 1] ↔
          route ∈ listRoutes w.routes (listRequest watchAll)) :=
  ⟨_, _, rfl, rfl, watch_rebuilds_iff watchAll .empty [.add defaultRequest "r" 1, .list 2,
    .writeInitial true] _ _ [newRoute defaultRequest "r" 1] 2 rfl rfl rfl⟩

/-- A route added between the listing and the registration is never announced. -/
theorem watch_misses_gap :
    ¬ ∀ (req : WatchRoutesRequest) (routes : Routes) (acts : List WatchAction) (w : Watch),
      req.send_initial_state = true → run (watchStep req) (opened routes) acts = some w →
        Along (watchStep req) UnusedId (opened routes) acts → w.Drained →
          rebuilt w.written = view req w.routes := by
  intro hall
  have heq := hall watchAll .empty [.list 1, .add defaultRequest "r" 2, .register] _ rfl rfl
    (by decide) (by decide)
  exact absurd (congrFun heq "r") (by decide)

/-! ### The complete call and its small steps -/

/-- **A complete call in small steps**: where the stream is registered under `h`, what the run of one
call's small steps adds to the observer is what `announce` adds to the queue. -/
theorem announce_refines {s : Shared} (hs : Handles s) {h : ℕ} (hreg : h ∈ s.observers) {w : Watch}
    (hw : w.phase.registered = true) (hroutes : w.routes = s.routes) {a : Action} {wa : WatchAction}
    (hsame : (∃ req id now, a = .add req id now ∧ wa = .add req id now) ∨
      ∃ id now, a = .remove id now ∧ wa = .remove id now) {routes : Routes} {ev : RouteEvent}
    (hup : Updates w wa routes ev) :
    ∃ acts s', run step s (a :: acts) = some s' ∧ s'.routes = (w.announce routes ev).routes ∧
      ∃ evs, s'.received h = s.received h ++ evs ∧
        (w.announce routes ev).pending = w.pending ++ evs := by
  have hstep : step s a = some { s with routes := routes, calls := s.calls ++ [.updated ev] } := by
    rcases hup with ⟨req, id, now, rfl, hr⟩ | ⟨id, now, rfl, hr⟩
    · rcases hsame with ⟨_, _, _, rfl, heq⟩ | ⟨_, _, -, heq⟩
      · cases heq
        rw [hroutes] at hr
        rw [step, hr]
      · cases heq
    · rcases hsame with ⟨_, _, _, -, heq⟩ | ⟨_, _, rfl, heq⟩
      · cases heq
      · cases heq
        rw [hroutes] at hr
        rw [step, hr]
  refine ⟨_, _, run_complete_call hs hstep, rfl, [ev], ?_, ?_⟩
  · exact if_pos hreg
  · rw [Watch.announce, hw]
    rfl

end Rtsrv.Server
