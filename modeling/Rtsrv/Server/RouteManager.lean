import Mathlib.Data.List.AList
import Mathlib.Data.List.Sort
import Rtsrv.Lib.Replay

/-!
# Rtsrv.Server.RouteManager — the in-memory route table (`server/src/route_manager.cpp`)

The table and the critical sections of its operations: what `addRoute` and `removeRoute` do under the
lock, the event they then announce, and the filtered listing.  Identifiers and clock readings are
arguments.  The order of an association list is the iteration order of the hash map.
-/

namespace Rtsrv.Server

open Lib

/-- An open enumeration: values the schema does not name are kept. -/
inductive AddressFamily where
  | UNSPECIFIED
  | IPV4
  | IPV6
  | unrecognized (value : ℤ)
  deriving DecidableEq, Repr

inductive RouteProtocol where
  | UNSPECIFIED
  | STATIC
  | CONNECTED
  | OSPF
  | BGP
  | RIP
  | unrecognized (value : ℤ)
  deriving DecidableEq, Repr

structure Route where
  id : String
  address_family : AddressFamily
  destination : String
  gateway : String
  interface_name : String
  metric : UInt32
  protocol : RouteProtocol
  active : Bool
  created_at_us : ℤ
  updated_at_us : ℤ
  tags : List (String × String)
  deriving DecidableEq, Repr

structure AddRouteRequest where
  address_family : AddressFamily
  destination : String
  gateway : String
  interface_name : String
  metric : UInt32
  protocol : RouteProtocol
  tags : List (String × String)
  deriving DecidableEq, Repr

structure ListRoutesRequest where
  address_family : AddressFamily
  protocol : RouteProtocol
  active_only : Bool
  deriving DecidableEq, Repr

/-- The event types that the route manager emits. -/
inductive RouteEventType where
  | ADDED
  | REMOVED
  deriving DecidableEq, Repr

structure RouteEvent where
  type : RouteEventType
  route : Route
  event_ts_us : ℤ
  deriving DecidableEq, Repr

/-- `routes_`: a hash map in which each route is stored under its own id. -/
structure Routes where
  map : AList (fun _ : String => Route)
  keyed : ∀ id route, map.lookup id = some route → route.id = id

namespace Routes

def empty : Routes := ⟨∅, fun _ _ h => by rw [AList.lookup_empty] at h; cases h⟩

/-- `routes_.emplace(route.id, route)`: an existing entry stays. -/
def emplace (routes : Routes) (route : Route) : Routes :=
  if route.id ∈ routes.map then routes
  else
    { map := routes.map.insert route.id route
      keyed := fun id r h => by
        by_cases hid : id = route.id
        · subst hid
          rw [AList.lookup_insert, Option.some.injEq] at h
          rw [h]
        · rw [AList.lookup_insert_ne hid] at h
          exact routes.keyed id r h }

def erase (routes : Routes) (id : String) : Routes where
  map := routes.map.erase id
  keyed := fun k r h => by
    by_cases hk : k = id
    · rw [hk, AList.lookup_erase] at h
      cases h
    · rw [AList.lookup_erase_ne hk] at h
      exact routes.keyed k r h

/-- The contents of the table. -/
def contents (routes : Routes) : Table String Route := fun id => routes.map.lookup id

end Routes

/-! ### Operations -/

def newRoute (req : AddRouteRequest) (id : String) (now : ℤ) : Route where
  id := id
  address_family := req.address_family
  destination := req.destination
  gateway := req.gateway
  interface_name := req.interface_name
  metric := req.metric
  protocol := req.protocol
  active := true
  created_at_us := now
  updated_at_us := now
  tags := req.tags

/-- `addRoute` up to the end of its critical section, and the event it then sends. -/
def addRoute (routes : Routes) (req : AddRouteRequest) (id : String) (now : ℤ) :
    Except String (Routes × RouteEvent) :=
  if req.destination.isEmpty then .error "destination must not be empty"
  else
    let route := newRoute req id now
    .ok (routes.emplace route, ⟨.ADDED, route, now⟩)

def removeRoute (routes : Routes) (id : String) (now : ℤ) : Except String (Routes × RouteEvent) :=
  match routes.map.lookup id with
  | none => .error ("Route '" ++ id ++ "' not found")
  | some removed => .ok (routes.erase id, ⟨.REMOVED, removed, now⟩)

/-- The three filters of `listRoutes`. -/
def listed (req : ListRoutesRequest) (route : Route) : Bool :=
  !(req.address_family != .UNSPECIFIED && route.address_family != req.address_family) &&
  !(req.protocol != .UNSPECIFIED && route.protocol != req.protocol) &&
  !(req.active_only && !route.active)

/-- The order of the result: by metric, then by id. -/
def listedBefore (a b : Route) : Bool :=
  if a.metric ≠ b.metric then a.metric < b.metric else a.id < b.id

def listRoutes (routes : Routes) (req : ListRoutesRequest) : List Route :=
  ((routes.map.entries.map (·.2)).filter (listed req)).insertionSort fun a b => ¬ listedBefore b a

/-- A request for an IPv4 default route. -/
def defaultRequest : AddRouteRequest := ⟨.IPV4, "default", "10.0.0.1", "eth0", 0, .STATIC, []⟩

/-! ### What the operations do to the contents -/

/-- An event as a change of the table: insert by id, erase by id. -/
def RouteEvent.change (ev : RouteEvent) : Change String Route :=
  match ev.type with
  | .ADDED => .put ev.route.id ev.route
  | .REMOVED => .del ev.route.id

@[simp] theorem RouteEvent.change_key (ev : RouteEvent) : ev.change.key = ev.route.id := by
  unfold RouteEvent.change
  cases ev.type <;> rfl

namespace Routes

theorem contents_empty : empty.contents = fun _ => none := by
  funext id
  exact AList.lookup_empty id

theorem contents_emplace {routes : Routes} {route : Route} (h : routes.contents route.id = none) :
    (routes.emplace route).contents =
      Function.update routes.contents route.id (some route) := by
  have hnot : route.id ∉ routes.map := AList.lookup_eq_none.mp h
  funext k
  rw [emplace, if_neg hnot]
  by_cases hk : k = route.id
  · subst hk
    rw [Function.update_self]
    exact AList.lookup_insert routes.map
  · rw [Function.update_of_ne hk]
    exact AList.lookup_insert_ne hk

theorem contents_erase (routes : Routes) (id : String) :
    (routes.erase id).contents = Function.update routes.contents id none := by
  funext k
  by_cases hk : k = id
  · subst hk
    rw [Function.update_self]
    exact AList.lookup_erase k routes.map
  · rw [Function.update_of_ne hk]
    exact AList.lookup_erase_ne hk

end Routes

/-- A successful `addRoute` with a new id makes the change that its event announces. -/
theorem addRoute_ok {routes routes' : Routes} {req : AddRouteRequest} {id : String} {now : ℤ}
    {ev : RouteEvent} (hid : routes.contents id = none)
    (h : addRoute routes req id now = .ok (routes', ev)) :
    ev.type = .ADDED ∧ ev.route.id = id ∧
      routes'.contents = applyChange routes.contents ev.change := by
  unfold addRoute at h
  split_ifs at h
  obtain ⟨rfl, rfl⟩ := Prod.mk.inj (Except.ok.inj h)
  refine ⟨rfl, rfl, ?_⟩
  rw [Routes.contents_emplace hid]
  rfl

/-- A successful `removeRoute` makes the change that its event announces. -/
theorem removeRoute_ok {routes routes' : Routes} {id : String} {now : ℤ} {ev : RouteEvent}
    (h : removeRoute routes id now = .ok (routes', ev)) :
    ev.type = .REMOVED ∧ ev.route.id = id ∧ routes.contents id = some ev.route ∧
      routes'.contents = applyChange routes.contents ev.change := by
  unfold removeRoute at h
  cases hl : routes.map.lookup id with
  | none => rw [hl] at h; cases h
  | some removed =>
    rw [hl] at h
    obtain ⟨rfl, rfl⟩ := Prod.mk.inj (Except.ok.inj h)
    have hid : removed.id = id := routes.keyed id removed hl
    refine ⟨rfl, hid, hl, ?_⟩
    show (routes.erase id).contents = Function.update routes.contents removed.id none
    rw [Routes.contents_erase, hid]

end Rtsrv.Server
