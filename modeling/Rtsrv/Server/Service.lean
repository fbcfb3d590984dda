import Rtsrv.Lib.Run
import Rtsrv.Server.RouteManager

/-!
# Rtsrv.Server.Service — the route calls of the service (`server/src/service_impl.cpp`)

`AddRoute` and `RemoveRoute` around the route manager, one call after the other.  The schema promises
that a route with the destination, gateway and interface of a stored one is refused; the table is keyed
by a generated id and nothing compares the three fields, so each repetition is stored.
-/

namespace Rtsrv.Server

open Lib

inductive StatusCode where
  | OK
  | NOT_FOUND
  | ALREADY_EXISTS
  | INVALID_ARGUMENT
  | INTERNAL_ERROR
  | PERMISSION_DENIED
  deriving DecidableEq, Repr

structure RouteResponse where
  code : StatusCode
  message : String
  route : Option Route
  deriving DecidableEq, Repr

structure StatusResponse where
  code : StatusCode
  message : String
  deriving DecidableEq, Repr

namespace Service

def addRoute (routes : Routes) (req : AddRouteRequest) (id : String) (now : ℤ) :
    RouteResponse × Routes :=
  match Server.addRoute routes req id now with
  | .error err => (⟨.INVALID_ARGUMENT, err, none⟩, routes)
  | .ok (routes', ev) => (⟨.OK, "Route added successfully", some ev.route⟩, routes')

def removeRoute (routes : Routes) (id : String) (now : ℤ) : StatusResponse × Routes :=
  if id.isEmpty then (⟨.INVALID_ARGUMENT, "id must not be empty"⟩, routes)
  else
    match Server.removeRoute routes id now with
    | .error err => (⟨.NOT_FOUND, err⟩, routes)
    | .ok (routes', _) => (⟨.OK, "Route removed"⟩, routes')

end Service

/-- A call, with the id that is generated and the clock reading. -/
inductive RouteCall where
  | AddRoute (req : AddRouteRequest) (id : String) (now : ℤ)
  | RemoveRoute (id : String) (now : ℤ)
  deriving DecidableEq, Repr

def callStep (routes : Routes) : RouteCall → Option Routes
  | .AddRoute req id now => some (Service.addRoute routes req id now).2
  | .RemoveRoute id now => some (Service.removeRoute routes id now).2

/-! ### Routes with the same destination, gateway and interface -/

def Route.hop (route : Route) : String × String × String :=
  (route.destination, route.gateway, route.interface_name)

def AddRouteRequest.hop (req : AddRouteRequest) : String × String × String :=
  (req.destination, req.gateway, req.interface_name)

/-- The hop of each stored route. -/
def Routes.hops (routes : Routes) : List (String × String × String) :=
  routes.map.entries.map fun entry => entry.2.hop

/-- An `AddRoute` of a stored hop is refused and changes nothing. -/
def Refuses (routes : Routes) : RouteCall → Prop
  | .AddRoute req id now => req.hop ∈ routes.hops →
      (Service.addRoute routes req id now).1.code ≠ .OK ∧
        (Service.addRoute routes req id now).2 = routes
  | .RemoveRoute _ _ => True

/-- The call does not add a hop that is stored. -/
def NewHop (routes : Routes) : RouteCall → Prop
  | .AddRoute req _ _ => req.hop ∉ routes.hops
  | .RemoveRoute _ _ => True

instance (routes : Routes) (c : RouteCall) : Decidable (NewHop routes c) :=
  match c with
  | .AddRoute req _ _ => inferInstanceAs (Decidable (req.hop ∉ routes.hops))
  | .RemoveRoute _ _ => .isTrue trivial

/-! ### What a call does to the hops -/

theorem hops_emplace (routes : Routes) (route : Route) :
    (routes.emplace route).hops = routes.hops ∨
      (routes.emplace route).hops = route.hop :: routes.hops := by
  unfold Routes.emplace
  split_ifs with h
  · exact .inl rfl
  · right
    show (routes.map.insert route.id route).entries.map _ = _
    rw [AList.entries_insert_of_notMem h]
    rfl

theorem hops_erase_sublist (routes : Routes) (id : String) :
    (routes.erase id).hops.Sublist routes.hops :=
  (List.kerase_sublist id routes.map.entries).map _

/-- What `AddRoute` does: it refuses an empty destination, and only that. -/
theorem serviceAddRoute_cases (routes : Routes) (req : AddRouteRequest) (id : String) (now : ℤ) :
    (req.destination = "" ∧ (Service.addRoute routes req id now).1.code = .INVALID_ARGUMENT ∧
      (Service.addRoute routes req id now).2 = routes) ∨
    (req.destination ≠ "" ∧ (Service.addRoute routes req id now).1.code = .OK ∧
      (Service.addRoute routes req id now).2 = routes.emplace (newRoute req id now)) := by
  unfold Service.addRoute Server.addRoute
  by_cases hdest : req.destination.isEmpty
  · rw [if_pos hdest]
    exact .inl ⟨String.isEmpty_iff.mp hdest, rfl, rfl⟩
  · rw [if_neg hdest]
    exact .inr ⟨fun h => hdest (String.isEmpty_iff.mpr h), rfl, rfl⟩

/-- What a call can do to the stored hops. -/
theorem callStep_hops {routes routes' : Routes} {c : RouteCall} (h : callStep routes c = some routes') :
    routes'.hops.Sublist routes.hops ∨
      ∃ req id now, c = .AddRoute req id now ∧ req.destination ≠ "" ∧
        routes'.hops = req.hop :: routes.hops := by
  cases c with
  | AddRoute req id now =>
    obtain rfl := Option.some.inj h
    rcases serviceAddRoute_cases routes req id now with ⟨-, -, heq⟩ | ⟨hdest, -, heq⟩
    · rw [heq]
      exact .inl (List.Sublist.refl _)
    · rw [heq]
      rcases hops_emplace routes (newRoute req id now) with hsame | hcons
      · rw [hsame]
        exact .inl (List.Sublist.refl _)
      · exact .inr ⟨req, id, now, rfl, hdest, hcons⟩
  | RemoveRoute id now =>
    obtain rfl := Option.some.inj h
    left
    show (Service.removeRoute routes id now).2.hops.Sublist _
    unfold Service.removeRoute Server.removeRoute
    split_ifs
    · exact List.Sublist.refl _
    · cases routes.map.lookup id with
      | none => exact List.Sublist.refl _
      | some removed => exact hops_erase_sublist routes id

/-- Every stored route has a destination. -/
def Routed (routes : Routes) : Prop := ∀ hop ∈ routes.hops, hop.1 ≠ ""

theorem routed_step {routes routes' : Routes} {c : RouteCall} (hr : Routed routes)
    (h : callStep routes c = some routes') : Routed routes' := by
  rcases callStep_hops h with hsub | ⟨req, id, now, -, hdest, hcons⟩
  · exact fun hop hhop => hr hop (hsub.subset hhop)
  · intro hop hhop
    rw [hcons] at hhop
    rcases List.mem_cons.mp hhop with rfl | hhop
    · exact hdest
    · exact hr hop hhop

theorem nodup_step {routes routes' : Routes} {c : RouteCall} (hn : routes.hops.Nodup)
    (hnew : NewHop routes c) (h : callStep routes c = some routes') : routes'.hops.Nodup := by
  rcases callStep_hops h with hsub | ⟨req, id, now, rfl, -, hcons⟩
  · exact hn.sublist hsub
  · rw [hcons]
    exact List.nodup_cons.mpr ⟨hnew, hn⟩

/-- A stored hop is refused only for want of a destination, which no stored hop has. -/
theorem refuses_iff {routes : Routes} (hr : Routed routes) (c : RouteCall) :
    Refuses routes c ↔ NewHop routes c := by
  cases c with
  | AddRoute req id now =>
    refine ⟨fun h hstored => ?_, fun h hstored => absurd hstored h⟩
    rcases serviceAddRoute_cases routes req id now with ⟨hdest, -⟩ | ⟨-, hok, -⟩
    · exact hr req.hop hstored hdest
    · exact (h hstored).1 hok
  | RemoveRoute id now => exact Iff.rfl

/-- **The route table stays free of duplicates exactly as long as no `AddRoute` repeats the destination,
gateway and interface of a stored route**: then no two stored routes share them, and every such call is
refused without a change. -/
theorem no_duplicates_iff (calls : List RouteCall) :
    (Along callStep (fun routes c => routes.hops.Nodup ∧ Refuses routes c) .empty calls ∧
      ∀ routes, run callStep .empty calls = some routes → routes.hops.Nodup) ↔
    Along callStep NewHop .empty calls := by
  have hempty : Routes.empty.hops.Nodup := List.nodup_nil
  have hrouted : Along callStep (fun routes _ => Routed routes) .empty calls :=
    along_invariant (P := fun _ _ => True) (fun _ _ _ hr _ h => routed_step hr h)
      (fun hop hhop => absurd hhop List.not_mem_nil) (along_of_mem (fun _ _ _ => trivial) _)
  refine ⟨fun ⟨h, _⟩ => ?_, fun h => ⟨?_, fun routes hrun => ?_⟩⟩
  · exact (h.and hrouted).mono fun routes c ⟨⟨_, hrefuses⟩, hr⟩ => (refuses_iff hr c).mp hrefuses
  · have hnodup := along_invariant (fun _ _ _ hn hnew h => nodup_step hn hnew h) hempty h
    exact ((hnodup.and hrouted).and h).mono fun routes c ⟨⟨hn, hr⟩, hnew⟩ =>
      ⟨hn, (refuses_iff hr c).mpr hnew⟩
  · exact run_invariant (fun _ _ _ hn hnew h => nodup_step hn hnew h) hempty h hrun

/-- The same route announced twice is stored twice. -/
theorem duplicates_after_repeat :
    ∃ routes, run callStep .empty
        [.AddRoute defaultRequest "a" 1, .AddRoute defaultRequest "b" 2] = some routes ∧
      routes.hops = [defaultRequest.hop, defaultRequest.hop] := by
  exact ⟨_, rfl, by decide⟩

end Rtsrv.Server
