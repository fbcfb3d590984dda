import Rtsrv.Lib.Linear
import Rtsrv.Server.RouteListing
import Rtsrv.Server.Service

/-!
# Rtsrv.Client.RouteClient — the route and loopback calls, from client to client (`route_client.cpp`,
`service_impl.cpp`)

What `RouteClient` makes of an answer, and the handlers that give it.  Whatever several clients call at the
same time, and whichever calls a channel breaks, the answers are those of one store of routes by id and one
loopback address.
-/

namespace Rtsrv.Server

open Lib

/-! ### The handlers -/

structure ListRoutesResponse where
  code : StatusCode
  routes : List Route
  deriving DecidableEq, Repr

/-- `SetLoopbackResponse` and `GetLoopbackResponse`. -/
structure LoopbackResponse where
  code : StatusCode
  message : String
  address : String
  deriving DecidableEq, Repr

namespace Service

/-- `GetRoute`, with `RouteManager::getRoute` in it. -/
def getRoute (routes : Routes) (id : String) : RouteResponse :=
  if id.isEmpty then ⟨.INVALID_ARGUMENT, "id must not be empty", none⟩
  else
    match routes.map.lookup id with
    | none => ⟨.NOT_FOUND, "Route '" ++ id ++ "' not found", none⟩
    | some route => ⟨.OK, "OK", some route⟩

def listRoutes (routes : Routes) (req : ListRoutesRequest) : ListRoutesResponse :=
  ⟨.OK, Server.listRoutes routes req⟩

def setLoopback (loopbackAddress address : String) : LoopbackResponse × String :=
  if address.isEmpty then (⟨.INVALID_ARGUMENT, "address must not be empty", ""⟩, loopbackAddress)
  else (⟨.OK, "Loopback address set", address⟩, address)

def getLoopback (loopbackAddress : String) : LoopbackResponse := ⟨.OK, "OK", loopbackAddress⟩

end Service

end Rtsrv.Server

namespace Rtsrv.Client

open Lib Server

/-! ### The client -/

def StatusCode_Name : StatusCode → String
  | .OK => "STATUS_CODE_OK"
  | .NOT_FOUND => "STATUS_CODE_NOT_FOUND"
  | .ALREADY_EXISTS => "STATUS_CODE_ALREADY_EXISTS"
  | .INVALID_ARGUMENT => "STATUS_CODE_INVALID_ARGUMENT"
  | .INTERNAL_ERROR => "STATUS_CODE_INTERNAL_ERROR"
  | .PERMISSION_DENIED => "STATUS_CODE_PERMISSION_DENIED"

/-- What a call of `RouteClient` returns on a response that has come. -/
def accepted {α : Type} (rpc : String) (code : StatusCode) (message : String) (value : α) : Except String α :=
  if code ≠ .OK then .error (rpc ++ " failed (" ++ StatusCode_Name code ++ "): " ++ message) else .ok value

/-- The default instance of the message. -/
def Route.default : Route := ⟨"", .UNSPECIFIED, "", "", "", 0, .UNSPECIFIED, false, 0, 0, []⟩

inductive RouteOp where
  | addRoute (destination gateway interfaceName : String) (metric : UInt32) (family : AddressFamily)
      (protocol : RouteProtocol)
  | removeRoute (id : String)
  | getRoute (id : String)
  | listRoutes (activeOnly : Bool)
  | setLoopback (address : String)
  | getLoopback
  deriving DecidableEq, Repr

/-- What the calls return. -/
inductive RouteAnswer where
  | route (r : Except String Route)
  | removed (r : Except String Unit)
  | routes (r : Except String (List Route))
  | address (r : Except String String)

/-- The request of `RouteClient::addRoute`. -/
def addRequest (destination gateway interfaceName : String) (metric : UInt32) (family : AddressFamily)
    (protocol : RouteProtocol) : AddRouteRequest :=
  ⟨family, destination, gateway, interfaceName, metric, protocol, []⟩

def listRequest (activeOnly : Bool) : ListRoutesRequest := ⟨.UNSPECIFIED, .UNSPECIFIED, activeOnly⟩

/-- `routeManager_` and `loopbackAddress_`. -/
structure ServiceState where
  routes : Routes
  loopbackAddress : String

/-- A call, through the handler and back.  The handler of `AddRoute` draws an id, and the handlers that store
a time read the clock. -/
def serve (s : ServiceState) (op : RouteOp) (drawn : String × ℤ) : ServiceState × RouteAnswer :=
  match op with
  | .addRoute destination gateway interfaceName metric family protocol =>
    let r := Service.addRoute s.routes
      (addRequest destination gateway interfaceName metric family protocol) drawn.1 drawn.2
    ({ s with routes := r.2 },
      .route (accepted "AddRoute" r.1.code r.1.message (r.1.route.getD Route.default)))
  | .removeRoute id =>
    let r := Service.removeRoute s.routes id drawn.2
    ({ s with routes := r.2 }, .removed (accepted "RemoveRoute" r.1.code r.1.message ()))
  | .getRoute id =>
    let resp := Service.getRoute s.routes id
    (s, .route (accepted "GetRoute" resp.code resp.message (resp.route.getD Route.default)))
  | .listRoutes activeOnly =>
    let resp := Service.listRoutes s.routes (listRequest activeOnly)
    -- this one has no message in its error
    (s, .routes (if resp.code ≠ .OK then .error ("ListRoutes failed (" ++ StatusCode_Name resp.code ++ ")")
      else .ok resp.routes))
  | .setLoopback address =>
    let r := Service.setLoopback s.loopbackAddress address
    ({ s with loopbackAddress := r.2 }, .address (accepted "SetLoopback" r.1.code r.1.message r.1.address))
  | .getLoopback =>
    let resp := Service.getLoopback s.loopbackAddress
    (s, .address (accepted "GetLoopback" resp.code resp.message resp.address))

/-! ### The store -/

/-- What the service is for: routes by their ids, and an address. -/
structure RouteStore where
  routes : Table String Route
  loopback : String

def RouteStore.empty : RouteStore := ⟨fun _ => none, ""⟩

/-- The list has the routes that are stored, and active if that is asked for, each once, by metric and id. -/
structure Lists (routes : Table String Route) (activeOnly : Bool) (rs : List Route) : Prop where
  sorted : rs.Pairwise fun a b => a.metric < b.metric ∨ (a.metric = b.metric ∧ a.id < b.id)
  mem : ∀ route, route ∈ rs ↔ routes route.id = some route ∧ (activeOnly = true → route.active = true)

/-- The operations on the store, with their answers.  A new route has what it was asked for and an id, and
stays out of the store where that id is taken. -/
def RouteSpec (t : RouteStore) (op : RouteOp) (answer : RouteAnswer) (t' : RouteStore) : Prop :=
  match op with
  | .addRoute destination gateway interfaceName metric family protocol =>
    (destination = "" ∧ t' = t ∧ answer = .route
      (.error "AddRoute failed (STATUS_CODE_INVALID_ARGUMENT): destination must not be empty")) ∨
    (destination ≠ "" ∧ ∃ id now,
      let route : Route :=
        ⟨id, family, destination, gateway, interfaceName, metric, protocol, true, now, now, []⟩
      answer = .route (.ok route) ∧ t' = { t with
        routes := if t.routes id = none then Function.update t.routes id (some route) else t.routes })
  | .removeRoute id =>
    (id = "" ∧ t' = t ∧ answer = .removed
      (.error "RemoveRoute failed (STATUS_CODE_INVALID_ARGUMENT): id must not be empty")) ∨
    (id ≠ "" ∧ t.routes id = none ∧ t' = t ∧ answer = .removed
      (.error ("RemoveRoute failed (STATUS_CODE_NOT_FOUND): Route '" ++ id ++ "' not found"))) ∨
    (id ≠ "" ∧ t.routes id ≠ none ∧ t' = { t with routes := Function.update t.routes id none } ∧
      answer = .removed (.ok ()))
  | .getRoute id =>
    t' = t ∧
      ((id = "" ∧ answer = .route
        (.error "GetRoute failed (STATUS_CODE_INVALID_ARGUMENT): id must not be empty")) ∨
      (id ≠ "" ∧ t.routes id = none ∧ answer = .route
        (.error ("GetRoute failed (STATUS_CODE_NOT_FOUND): Route '" ++ id ++ "' not found"))) ∨
      (id ≠ "" ∧ ∃ route, t.routes id = some route ∧ answer = .route (.ok route)))
  | .listRoutes activeOnly => t' = t ∧ ∃ rs, Lists t.routes activeOnly rs ∧ answer = .routes (.ok rs)
  | .setLoopback address =>
    (address = "" ∧ t' = t ∧ answer = .address
      (.error "SetLoopback failed (STATUS_CODE_INVALID_ARGUMENT): address must not be empty")) ∨
    (address ≠ "" ∧ t' = { t with loopback := address } ∧ answer = .address (.ok address))
  | .getLoopback => t' = t ∧ answer = .address (.ok t.loopback)

/-- The store that a state of the service stands for. -/
def ServiceState.store (s : ServiceState) : RouteStore := ⟨s.routes.contents, s.loopbackAddress⟩

theorem addRoute_implements (s : ServiceState) {destination gateway interfaceName : String}
    {metric : UInt32} {family : AddressFamily} {protocol : RouteProtocol} (drawn : String × ℤ) :
    RouteSpec s.store (.addRoute destination gateway interfaceName metric family protocol)
      (serve s (.addRoute destination gateway interfaceName metric family protocol) drawn).2
      (serve s (.addRoute destination gateway interfaceName metric family protocol) drawn).1.store := by
  by_cases hdest : destination = ""
  · subst hdest
    exact .inl ⟨rfl, rfl, rfl⟩
  · have hne : ¬(addRequest destination gateway interfaceName metric family protocol).destination.isEmpty :=
      fun h => hdest (String.isEmpty_iff.mp h)
    refine .inr ⟨hdest, drawn.1, drawn.2, ?_⟩
    rw [serve, Service.addRoute, Server.addRoute, if_neg hne]
    refine ⟨rfl, ?_⟩
    show RouteStore.mk _ _ = _
    congr 1
    by_cases hnew : s.store.routes drawn.1 = none
    · rw [if_pos hnew]
      exact Routes.contents_emplace hnew
    · rw [if_neg hnew]
      dsimp only
      rw [Routes.emplace, if_pos]
      · rfl
      · by_contra hnot
        exact hnew (AList.lookup_eq_none.mpr hnot)

theorem removeRoute_implements (s : ServiceState) (id : String) (drawn : String × ℤ) :
    RouteSpec s.store (.removeRoute id) (serve s (.removeRoute id) drawn).2
      (serve s (.removeRoute id) drawn).1.store := by
  by_cases hid : id = ""
  · subst hid
    exact .inl ⟨rfl, rfl, rfl⟩
  have hne : ¬id.isEmpty := by rwa [String.isEmpty_iff]
  rw [serve, Service.removeRoute, if_neg hne, Server.removeRoute]
  cases hl : s.routes.map.lookup id with
  | none => exact .inr (.inl ⟨hid, hl, rfl, rfl⟩)
  | some route =>
    have hstored : s.store.routes id ≠ none := fun h => by cases hl.symm.trans h
    refine .inr (.inr ⟨hid, hstored, ?_, rfl⟩)
    show RouteStore.mk _ _ = _
    rw [Routes.contents_erase]
    rfl

theorem getRoute_implements (s : ServiceState) (id : String) (drawn : String × ℤ) :
    RouteSpec s.store (.getRoute id) (serve s (.getRoute id) drawn).2
      (serve s (.getRoute id) drawn).1.store := by
  refine ⟨rfl, ?_⟩
  by_cases hid : id = ""
  · subst hid
    exact .inl ⟨rfl, rfl⟩
  have hne : ¬id.isEmpty := by rwa [String.isEmpty_iff]
  rw [serve, Service.getRoute, if_neg hne]
  cases hl : s.routes.map.lookup id with
  | none => exact .inr (.inl ⟨hid, hl, rfl⟩)
  | some route => exact .inr (.inr ⟨hid, route, hl, rfl⟩)

theorem listRoutes_lists (routes : Routes) (activeOnly : Bool) :
    Lists routes.contents activeOnly (Server.listRoutes routes (listRequest activeOnly)) := by
  refine ⟨(listRoutes_strict routes _).imp fun {a b} h => ?_, fun route => ?_⟩
  · rw [listedBefore] at h
    split_ifs at h with hmetric
    · exact .inl (of_decide_eq_true h)
    · exact .inr ⟨not_not.mp hmetric, of_decide_eq_true h⟩
  · rw [mem_listRoutes]
    refine and_congr_right fun _ => ?_
    cases activeOnly <;> simp [listed, listRequest]

theorem setLoopback_implements (s : ServiceState) (address : String) (drawn : String × ℤ) :
    RouteSpec s.store (.setLoopback address) (serve s (.setLoopback address) drawn).2
      (serve s (.setLoopback address) drawn).1.store := by
  by_cases haddr : address = ""
  · subst haddr
    exact .inl ⟨rfl, rfl, rfl⟩
  · have hne : ¬address.isEmpty := by rwa [String.isEmpty_iff]
    rw [serve, Service.setLoopback, if_neg hne]
    exact .inr ⟨haddr, rfl, rfl⟩

/-- **The handlers implement the store.** -/
theorem serve_implements : Implements RouteSpec serve fun s t => s.store = t := by
  rintro s _ op drawn rfl
  refine ⟨_, ?_, rfl⟩
  cases op with
  | addRoute destination gateway interfaceName metric family protocol => exact addRoute_implements s drawn
  | removeRoute id => exact removeRoute_implements s id drawn
  | getRoute id => exact getRoute_implements s id drawn
  | listRoutes activeOnly => exact ⟨rfl, _, listRoutes_lists s.routes activeOnly, rfl⟩
  | setLoopback address => exact setLoopback_implements s address drawn
  | getLoopback => exact ⟨rfl, rfl⟩

def ServiceState.initial : ServiceState := ⟨.empty, ""⟩

/-- **The calls of any number of clients are linearizable**: whatever overlaps, and whichever calls get an
error from their channel before or after their handlers have run, the answers are those of one store that is
asked one thing at a time, in an order that keeps that of calls which do not overlap. -/
theorem route_calls_linearizable {ι : Type} [DecidableEq ι]
    (as : List (CallAction ι RouteOp (String × ℤ))) (s : Calls ServiceState ι RouteOp RouteAnswer)
    (h : run (callsStep serve) (.start .initial) as = some s) :
    ∃ es, Linearizes RouteSpec as s.given .empty s.obj.store es := by
  have hempty : ServiceState.initial.store = .empty :=
    congrArg (RouteStore.mk · "") Routes.contents_empty
  obtain ⟨t, hlinear, rfl⟩ := linearizable serve_implements hempty h
  exact ⟨s.effects, hlinear⟩

/-- Two clients: one adds a route and is not told, the other finds it. -/
def twoClients : List (CallAction ℕ RouteOp (String × ℤ)) :=
  [.invoke 0 (.addRoute "10.0.0.0/8" "10.0.0.1" "eth0" 20 .IPV4 .STATIC), .invoke 1 (.getRoute "a"), .fail 0,
    .handle 0 ("a", 1), .handle 1 ("", 2), .reply 1]

theorem route_calls_linearizable_twoClients :
    ∃ s, run (callsStep serve) (.start .initial) twoClients = some s ∧
      ∃ es, Linearizes RouteSpec twoClients s.given .empty s.obj.store es := by
  have hrun : ∃ s, run (callsStep serve) (.start .initial) twoClients = some s := ⟨_, rfl⟩
  obtain ⟨s, h⟩ := hrun
  exact ⟨s, h, route_calls_linearizable twoClients s h⟩

end Rtsrv.Client
