import Mathlib.Algebra.Group.Nat.Defs
import Rtsrv.Lib.Run
import Rtsrv.Server.RouteManager

/-!
# Rtsrv.Server.RouteIds — the ids that routes are stored under (`server/src/route_manager.cpp`)

`generateId` takes a line of the kernel's UUID file, and without one the reading of the steady clock: two
calls in one tick then draw the same id.  `addRoute` does not look at what `emplace` answers, so for an id
that is stored it reports and announces a route that is not in the table.
-/

namespace Rtsrv.Server

open Lib

/-- What `generateId` finds: the first line of the UUID file, if it can be opened, and the steady clock. -/
structure IdSource where
  uuid : Option String
  ns : Int64
  deriving DecidableEq, Repr

/-- The last hexadecimal digits of a number, as many as are asked for. -/
def hexDigits : ℕ → ℕ → List Char
  | 0, _ => []
  | width + 1, n => hexDigits width (n / 16) ++ [Nat.digitChar (n % 16)]

/-- The timestamp-based pseudo-UUID, with the 16 digits of `{:016x}`. -/
def fallbackId (ns : Int64) : String := "srmd-" ++ String.ofList (hexDigits 16 ns.toUInt64.toNat) ++ "-route"

def generateId (source : IdSource) : String :=
  match source.uuid with
  | some uuid => if uuid.isEmpty then fallbackId source.ns else uuid
  | none => fallbackId source.ns

/-- What a successful `addRoute` leaves: the table, the route that it returns and the event that it sends. -/
structure AddedRoute where
  routes : Routes
  returned : Route
  event : RouteEvent

/-- `addRoute` with the id that it generates and the route that it returns. -/
def addRouteCall (routes : Routes) (req : AddRouteRequest) (source : IdSource) (now : ℤ) :
    Except String AddedRoute :=
  if req.destination.isEmpty then .error "destination must not be empty"
  else
    let id := generateId source
    let route := newRoute req id now
    .ok { routes := routes.emplace route, returned := route, event := ⟨.ADDED, route, now⟩ }

def getRoute (routes : Routes) (id : String) : Except String Route :=
  match routes.map.lookup id with
  | none => .error ("Route '" ++ id ++ "' not found")
  | some route => .ok route

/-- `routes_.size()`. -/
def Routes.size (routes : Routes) : ℕ := routes.map.entries.length

/-- A call that can change the table. -/
inductive ManagerCall where
  | addRoute (req : AddRouteRequest) (source : IdSource) (now : ℤ)
  | removeRoute (id : String) (now : ℤ)

/-- The table after the critical section of a call; one that fails leaves it. -/
def managerStep (routes : Routes) : ManagerCall → Option Routes
  | .addRoute req source now =>
    match addRouteCall routes req source now with
    | .error _ => some routes
    | .ok added => some added.routes
  | .removeRoute id now =>
    match removeRoute routes id now with
    | .error _ => some routes
    | .ok (routes', _) => some routes'

/-! ### Reported and done -/

/-- The table afterwards is the table before and the returned route under its id, and the event announces
it. -/
structure ReallyInserted (before : Routes) (added : AddedRoute) : Prop where
  found : getRoute added.routes added.returned.id = .ok added.returned
  grown : added.routes.size = before.size + 1
  others : ∀ id, id ≠ added.returned.id → getRoute added.routes id = getRoute before id
  type : added.event.type = .ADDED
  announced : added.event.route = added.returned

/-- An insertion that the call reports really happened. -/
def Reported (routes : Routes) : ManagerCall → Prop
  | .addRoute req source now => ∀ added, addRouteCall routes req source now = .ok added →
      ReallyInserted routes added
  | .removeRoute _ _ => True

/-- What an `addRoute` draws its id from, if it comes so far. -/
def ManagerCall.source : ManagerCall → Option IdSource
  | .addRoute req source _ => if req.destination.isEmpty then none else some source
  | .removeRoute _ _ => none

def ManagerCall.drawn (call : ManagerCall) : Option String := call.source.map generateId

/-- The id that the call draws is not stored. -/
def DrawsNewId (routes : Routes) (call : ManagerCall) : Prop :=
  ∀ id ∈ call.drawn, routes.contents id = none

/-- The other view of an `addRoute`, which is given its id. -/
theorem addRouteCall_eq (routes : Routes) (req : AddRouteRequest) (source : IdSource) (now : ℤ) :
    (fun added : AddedRoute => (added.routes, added.event)) <$> addRouteCall routes req source now =
      addRoute routes req (generateId source) now := by
  unfold addRouteCall addRoute
  split_ifs <;> rfl

theorem getRoute_eq {routes : Routes} {id : String} {route : Route} :
    getRoute routes id = .ok route ↔ routes.contents id = some route := by
  show (match routes.contents id with
    | none => _
    | some route => _) = _ ↔ _
  cases routes.contents id with
  | none => simp
  | some r => simp

theorem getRoute_congr {routes routes' : Routes} {id : String}
    (h : routes.contents id = routes'.contents id) : getRoute routes id = getRoute routes' id := by
  have hlookup : routes.map.lookup id = routes'.map.lookup id := h
  rw [getRoute, getRoute, hlookup]

/-- An id that is stored stops the insertion. -/
theorem emplace_stored {routes : Routes} {route : Route} (h : routes.contents route.id ≠ none) :
    routes.emplace route = routes :=
  if_pos (by
    by_contra hnot
    exact h (AList.lookup_eq_none.mpr hnot))

theorem size_emplace {routes : Routes} {route : Route} (h : routes.contents route.id = none) :
    (routes.emplace route).size = routes.size + 1 := by
  have hnot : route.id ∉ routes.map := AList.lookup_eq_none.mp h
  rw [Routes.emplace, if_neg hnot, Routes.size]
  show (routes.map.insert route.id route).entries.length = _
  rw [AList.entries_insert_of_notMem hnot]
  rfl

/-- **What `addRoute` reports has happened exactly when its id was new.** -/
theorem reallyInserted_iff {routes : Routes} {route : Route} {now : ℤ} :
    ReallyInserted routes ⟨routes.emplace route, route, ⟨.ADDED, route, now⟩⟩ ↔
      routes.contents route.id = none := by
  constructor
  · intro h
    by_contra hstored
    have hgrown : (routes.emplace route).size = routes.size + 1 := h.grown
    rw [emplace_stored hstored] at hgrown
    omega
  · intro hnew
    have hcontents := Routes.contents_emplace hnew
    refine ⟨?_, size_emplace hnew, fun id hid => ?_, rfl, rfl⟩
    · exact getRoute_eq.mpr (by rw [hcontents, Function.update_self])
    · exact getRoute_congr (by rw [hcontents, Function.update_of_ne hid])

theorem addRouteCall_ok {routes : Routes} {req : AddRouteRequest} {source : IdSource} {now : ℤ}
    {added : AddedRoute} : addRouteCall routes req source now = .ok added ↔ req.destination.isEmpty = false ∧
      added = { routes := routes.emplace (newRoute req (generateId source) now)
                returned := newRoute req (generateId source) now
                event := ⟨.ADDED, newRoute req (generateId source) now, now⟩ } := by
  unfold addRouteCall
  split_ifs with hempty
  · exact iff_of_false nofun fun h => absurd (hempty.symm.trans h.1) (by decide)
  · refine ⟨fun h => ⟨Bool.not_eq_true _ ▸ hempty, (Except.ok.inj h).symm⟩, fun h => ?_⟩
    rw [h.2]

theorem mem_drawn {req : AddRouteRequest} {source : IdSource} {now : ℤ} {id : String} :
    id ∈ (ManagerCall.addRoute req source now).drawn ↔
      req.destination.isEmpty = false ∧ generateId source = id := by
  unfold ManagerCall.drawn ManagerCall.source
  dsimp only
  cases hempty : req.destination.isEmpty with
  | true => exact iff_of_false nofun nofun
  | false => exact Option.some_inj.trans (and_iff_right rfl).symm

theorem reported_iff (routes : Routes) (call : ManagerCall) :
    Reported routes call ↔ DrawsNewId routes call := by
  cases call with
  | removeRoute id now => exact iff_of_true trivial fun _ hid => nomatch hid
  | addRoute req source now =>
    have hinserted := @reallyInserted_iff routes (newRoute req (generateId source) now) now
    constructor
    · intro h id hid
      obtain ⟨hdest, rfl⟩ := mem_drawn.mp hid
      exact hinserted.mp (h _ (addRouteCall_ok.mpr ⟨hdest, rfl⟩))
    · intro h added hadded
      obtain ⟨hdest, rfl⟩ := addRouteCall_ok.mp hadded
      exact hinserted.mpr (h _ (mem_drawn.mpr ⟨hdest, rfl⟩))

/-! ### Runs -/

/-- **Every insertion that a run of calls reports really happened exactly when every id that the run draws is
new to the table at that moment.** -/
theorem insertions_iff (calls : List ManagerCall) :
    Along managerStep Reported .empty calls ↔ Along managerStep DrawsNewId .empty calls :=
  ⟨Along.mono fun routes call => (reported_iff routes call).mp,
    Along.mono fun routes call => (reported_iff routes call).mpr⟩

/-- Two calls in one tick of the clock, without the UUID file. -/
def sameTick : List ManagerCall :=
  [.addRoute defaultRequest ⟨none, 0⟩ 0,
    .addRoute { defaultRequest with destination := "10.0.0.0/8" } ⟨none, 0⟩ 1]

/-- The second route is reported, but the first one stays under the id. -/
theorem insertions_sameTick : ¬ ∀ calls, Along managerStep Reported .empty calls := by
  intro h
  have hnew : Along managerStep DrawsNewId .empty sameTick :=
    (h sameTick).mono fun routes call => (reported_iff routes call).mp
  obtain ⟨-, hsecond, -⟩ := hnew
  have hnone := hsecond (generateId ⟨none, 0⟩) (mem_drawn.mpr ⟨rfl, rfl⟩)
  rw [@Routes.contents_emplace .empty (newRoute defaultRequest (generateId ⟨none, 0⟩) 0)
    (congrFun Routes.contents_empty _)] at hnone
  exact absurd ((Function.update_self _ _ _).symm.trans hnone) nofun

/-! ### Ids that differ -/

theorem contents_emplace_of_ne (routes : Routes) {route : Route} {id : String} (h : id ≠ route.id) :
    (routes.emplace route).contents id = routes.contents id := by
  by_cases hnew : routes.contents route.id = none
  · rw [Routes.contents_emplace hnew, Function.update_of_ne h]
  · rw [emplace_stored hnew]

theorem managerStep_some (routes : Routes) (call : ManagerCall) :
    ∃ routes', managerStep routes call = some routes' := by
  unfold managerStep
  split <;> split <;> exact ⟨_, rfl⟩

/-- An id that is not stored and not drawn is not stored afterwards. -/
theorem managerStep_absent {routes routes' : Routes} {call : ManagerCall}
    (h : managerStep routes call = some routes') {id : String} (habsent : routes.contents id = none)
    (hdrawn : id ∉ call.drawn) : routes'.contents id = none := by
  cases call with
  | addRoute req source now =>
    rw [managerStep] at h
    cases hadd : addRouteCall routes req source now with
    | error e =>
      simp only [hadd] at h
      rwa [← Option.some.inj h]
    | ok added =>
      simp only [hadd] at h
      rw [← Option.some.inj h]
      obtain ⟨hdest, rfl⟩ := addRouteCall_ok.mp hadd
      have hne : id ≠ generateId source := fun heq => hdrawn (mem_drawn.mpr ⟨hdest, heq.symm⟩)
      exact (contents_emplace_of_ne routes hne).trans habsent
  | removeRoute removed now =>
    rw [managerStep] at h
    cases hremove : removeRoute routes removed now with
    | error e =>
      simp only [hremove] at h
      rwa [← Option.some.inj h]
    | ok out =>
      simp only [hremove] at h
      rw [← Option.some.inj h]
      obtain ⟨htype, hid, -, hcontents⟩ := removeRoute_ok hremove
      have herase : out.2.change.value = none := by
        rw [RouteEvent.change, htype]
        rfl
      rw [hcontents, applyChange, Function.update_apply, herase, habsent, ite_self]

/-- **While no id is drawn twice, every insertion that is reported really happens.** -/
theorem insertions_of_distinct {calls : List ManagerCall} (h : (calls.filterMap ManagerCall.drawn).Nodup) :
    Along managerStep Reported .empty calls := by
  have hrun : ∀ (calls : List ManagerCall) (routes : Routes), (calls.filterMap ManagerCall.drawn).Nodup →
      (∀ id ∈ calls.filterMap ManagerCall.drawn, routes.contents id = none) →
        Along managerStep DrawsNewId routes calls := by
    intro calls
    induction calls with
    | nil => exact fun _ _ _ => trivial
    | cons call calls ih =>
      intro routes hnodup hnew
      have hsplit : (call :: calls).filterMap ManagerCall.drawn =
          call.drawn.toList ++ calls.filterMap ManagerCall.drawn := by
        rw [List.filterMap_cons]
        cases call.drawn <;> rfl
      rw [hsplit] at hnodup hnew
      obtain ⟨-, hrest, hdisjoint⟩ := List.nodup_append.mp hnodup
      obtain ⟨routes', hstep⟩ := managerStep_some routes call
      refine (along_cons hstep).mpr ⟨fun id hid => ?_, ih routes' hrest fun id hid => ?_⟩
      · exact hnew id (List.mem_append_left _ (Option.mem_toList.mpr hid))
      · refine managerStep_absent hstep (hnew id (List.mem_append_right _ hid)) fun hdrawn => ?_
        exact hdisjoint id (Option.mem_toList.mpr hdrawn) id hid rfl
  exact (hrun calls .empty h fun id _ => congrFun Routes.contents_empty id).mono
    fun routes call => (reported_iff routes call).mpr

/-! ### Ids of the clock -/

/-- Numbers that have no more digits than are written are told apart by them. -/
theorem hexDigits_inj {width n k : ℕ} (hn : n < 16 ^ width) (hk : k < 16 ^ width)
    (h : hexDigits width n = hexDigits width k) : n = k := by
  induction width generalizing n k with
  | zero => omega
  | succ width ih =>
    rw [hexDigits, hexDigits] at h
    obtain ⟨hfront, hlast⟩ := List.append_inj' h rfl
    have hdigit : ∀ a b : Fin 16, Nat.digitChar a = Nat.digitChar b → a = b := by decide
    have hmod : n % 16 = k % 16 := congrArg Fin.val (hdigit ⟨n % 16, by omega⟩ ⟨k % 16, by omega⟩
      (List.singleton_inj.mp hlast))
    have hdiv : n / 16 = k / 16 := ih (by omega) (by omega) hfront
    omega

/-- Only calls in one tick draw the same id from the clock. -/
theorem fallbackId_injective : Function.Injective fallbackId := by
  intro a b h
  have hchars := congrArg String.toList h
  simp only [fallbackId, String.toList_append, String.toList_ofList] at hchars
  have hdigits := List.append_cancel_left (List.append_cancel_right hchars)
  have hns := hexDigits_inj a.toUInt64.toNat_lt b.toUInt64.toNat_lt hdigits
  exact Int64.toBitVec.inj (congrArg UInt64.toBitVec (UInt64.toNat_inj.mp hns))

/-- **Without the UUID file it is enough that no two calls fall into one tick of the clock.** -/
theorem insertions_of_ticks {calls : List ManagerCall}
    (hfile : ∀ source ∈ calls.filterMap ManagerCall.source, source.uuid = none)
    (hticks : ((calls.filterMap ManagerCall.source).map IdSource.ns).Nodup) :
    Along managerStep Reported .empty calls := by
  refine insertions_of_distinct ?_
  have hdrawn : calls.filterMap ManagerCall.drawn =
      ((calls.filterMap ManagerCall.source).map IdSource.ns).map fallbackId := by
    have hmap : calls.filterMap ManagerCall.drawn = (calls.filterMap ManagerCall.source).map generateId :=
      List.map_filterMap.symm
    rw [hmap, List.map_map]
    refine List.map_congr_left fun source hsource => ?_
    rw [generateId, hfile source hsource]
    rfl
  rw [hdrawn]
  exact hticks.map fallbackId_injective

end Rtsrv.Server
