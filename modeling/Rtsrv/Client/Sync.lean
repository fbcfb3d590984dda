import Rtsrv.Client.RouteClient
import Rtsrv.Client.WatchTables
import Rtsrv.Config.Switches
import Rtsrv.Lib.Collect

/-!
# Rtsrv.Client.Sync — the command `sync` (`client/src/main.cpp`)

The command reads both files before it calls anything, and then asks each server for one route after the other
with what the source of truth has for its node.  A call that fails stops nothing and does not show in the exit
code: this only says whether each switch has a node.  The servers compare nothing, so that a second sync adds
the routes again.
-/

namespace Rtsrv.Client

open Lib Server Config Switches

/-! ### Calls -/

/-- What becomes of a call: its handler is not reached, or runs with an id and a time of the server, and the
answer is lost or comes back. -/
inductive Fate where
  | unreached (error : String)
  | unanswered (error : String) (drawn : String × ℤ)
  | answered (drawn : String × ℤ)
  deriving DecidableEq, Repr

/-- What a handler has drawn, if one has run. -/
def Fate.drawn : Fate → Option (String × ℤ)
  | unreached _ => none
  | unanswered _ drawn => some drawn
  | answered drawn => some drawn

/-- The servers by the targets of their channels, and the number of calls that have been made. -/
structure Servers where
  service : String → ServiceState
  calls : ℕ

/-- What `pushNodeRoutes` asks a server for. -/
structure Ask where
  destination : String
  gateway : String
  interfaceName : String
  metric : UInt32
  deriving DecidableEq, Repr

def Ask.request (ask : Ask) : AddRouteRequest :=
  addRequest ask.destination ask.gateway ask.interfaceName ask.metric .IPV4 .STATIC

/-- A server behind the handler of `AddRoute`. -/
def ServiceState.added (s : ServiceState) (ask : Ask) (drawn : String × ℤ) : ServiceState :=
  { s with routes := (Service.addRoute s.routes ask.request drawn.1 drawn.2).2 }

def Servers.added (net : Servers) (target : String) (ask : Ask) (drawn : String × ℤ) : Servers where
  service := Function.update net.service target ((net.service target).added ask drawn)
  calls := net.calls + 1

variable (fate : ℕ → Fate)

/-- `RouteClient::addRoute` on the channel to `target`. -/
def addRouteTo (target : String) (ask : Ask) (net : Servers) : Except String Route × Servers :=
  match fate net.calls with
  | .unreached error => (.error error, { net with calls := net.calls + 1 })
  | .unanswered error drawn => (.error error, net.added target ask drawn)
  | .answered drawn =>
    let resp := (Service.addRoute (net.service target).routes ask.request drawn.1 drawn.2).1
    (accepted "AddRoute" resp.code resp.message (resp.route.getD Route.default), net.added target ask drawn)

/-! ### `sync` -/

def prefixAsk (iface : SotInterface) (pfx : SotPrefix) : Ask where
  destination := pfx.prefix_
  gateway := iface.nexthop
  interfaceName := iface.name
  metric := pfx.weight

/-- A round of the innermost loop, with the number of routes that have been pushed. -/
def pushPrefix (target : String) (iface : SotInterface) (s : ℕ × Servers) (pfx : SotPrefix) : ℕ × Servers :=
  match addRouteTo fate target (prefixAsk iface pfx) s.2 with
  | (.ok _, net) => (s.1 + 1, net)
  | (.error _, net) => (s.1, net)

def pushInterface (target : String) (s : ℕ × Servers) (iface : SotInterface) : ℕ × Servers :=
  iface.prefixes.foldl (pushPrefix fate target iface) s

def pushVrf (target : String) (s : ℕ × Servers) (vrf : Sra.SotVrf) : ℕ × Servers :=
  vrf.ipv4.interfaces.foldl (pushInterface fate target) s

def pushNodeRoutes (target : String) (node : SotNode Sra.SotVrf) (net : Servers) : ℕ × Servers :=
  node.vrfs.foldl (pushVrf fate target) (0, net)

/-- The exit code does not depend on the number of routes that were pushed. -/
def syncOneServer (target managementIp : String) (sot : SotConfig Sra.SotVrf) (net : Servers) :
    ℤ × Servers :=
  match sot.findByManagementIp managementIp with
  | none => (EXIT_FAILURE, net)
  | some node => (EXIT_SUCCESS, (pushNodeRoutes fate target node net).2)

/-- A round of `cmdSyncMulti`, with the results. -/
def syncSwitch (sot : SotConfig Sra.SotVrf) (s : List (String × ℤ) × Servers) (sw : SwitchEntry) :
    List (String × ℤ) × Servers :=
  let (rc, net) := syncOneServer fate sw.target sw.ipv4 sot s.2
  (s.1 ++ [(sw.label, rc)], net)

def cmdSyncMulti (sot : SotConfig Sra.SotVrf) (switches : List SwitchEntry) (net : Servers) : ℤ × Servers :=
  let (results, net) := switches.foldl (syncSwitch fate sot) ([], net)
  (if results.any fun r => r.2 ≠ EXIT_SUCCESS then EXIT_FAILURE else EXIT_SUCCESS, net)

/-- The command in `main`, with the paths, the node and the server of the command line. -/
def cmdSync (files : Files) (sotPath switchesPath nodeIp server : String) (net : Servers) : ℤ × Servers :=
  if sotPath.isEmpty then (EXIT_FAILURE, net)
  else
    match Sra.loadSotConfig files sotPath with
    | .error _ => (EXIT_FAILURE, net)
    | .ok sot =>
      if ¬switchesPath.isEmpty then
        match loadSwitchConfig files switchesPath with
        | .error _ => (EXIT_FAILURE, net)
        | .ok switches => cmdSyncMulti fate sot switches net
      else if nodeIp.isEmpty then (EXIT_FAILURE, net)
      else syncOneServer fate server nodeIp sot net

/-! ### The calls of a sync -/

def interfaceAsks (iface : SotInterface) : List Ask := iface.prefixes.map (prefixAsk iface)

/-- What a server is asked for with a node. -/
def nodeAsks (node : SotNode Sra.SotVrf) : List Ask :=
  node.vrfs.flatMap fun vrf => vrf.ipv4.interfaces.flatMap interfaceAsks

/-- The calls for some targets with the addresses of their nodes. -/
def planned (sot : SotConfig Sra.SotVrf) (goals : List (String × String)) : List (String × Ask) :=
  goals.flatMap fun goal =>
    match sot.findByManagementIp goal.2 with
    | none => []
    | some node => (nodeAsks node).map (Prod.mk goal.1)

variable {fate}

/-- The calls one after the other. -/
abbrev calling (fate : ℕ → Fate) (plan : List (String × Ask)) (net : Servers) : Servers :=
  (attempts (fun call => addRouteTo fate call.1 call.2) plan net).2

theorem pushInterface_eq (target : String) (s : ℕ × Servers) (iface : SotInterface) :
    pushInterface fate target s iface = (interfaceAsks iface).foldl (attemptCount (addRouteTo fate target)) s := by
  rw [interfaceAsks, List.foldl_map]
  refine List.foldl_ext _ _ _ fun s pfx _ => ?_
  rw [pushPrefix, attemptCount]
  rcases addRouteTo fate target (prefixAsk iface pfx) s.2 with ⟨_ | _, net⟩
  · rfl
  · rfl

/-- The loops over a node make the calls for it, and count those that succeed. -/
theorem pushNodeRoutes_eq (target : String) (node : SotNode Sra.SotVrf) (net : Servers) :
    pushNodeRoutes fate target node net =
      ((attempts (addRouteTo fate target) (nodeAsks node) net).1.countP Except.isOk,
        calling fate ((nodeAsks node).map (Prod.mk target)) net) := by
  have hvrf : ∀ (s : ℕ × Servers) (vrf : Sra.SotVrf), pushVrf fate target s vrf =
      (vrf.ipv4.interfaces.flatMap interfaceAsks).foldl (attemptCount (addRouteTo fate target)) s := by
    intro s vrf
    rw [List.foldl_flatMap]
    exact List.foldl_ext _ _ _ fun s iface _ => pushInterface_eq target s iface
  have hnode : pushNodeRoutes fate target node net =
      (nodeAsks node).foldl (attemptCount (addRouteTo fate target)) (0, net) := by
    rw [nodeAsks, List.foldl_flatMap]
    exact List.foldl_ext _ _ _ fun s vrf _ => hvrf s vrf
  rw [hnode, foldl_attemptCount, Nat.zero_add, calling, attempts_map]

/-- Each switch is called with what its node has. -/
theorem syncOneServer_eq (target managementIp : String) (sot : SotConfig Sra.SotVrf) (net : Servers) :
    syncOneServer fate target managementIp sot net =
      (if sot.findByManagementIp managementIp = none then EXIT_FAILURE else EXIT_SUCCESS,
        calling fate (planned sot [(target, managementIp)]) net) := by
  unfold syncOneServer planned
  rw [List.flatMap_singleton]
  dsimp only
  cases sot.findByManagementIp managementIp with
  | none => rfl
  | some node =>
    dsimp only
    rw [pushNodeRoutes_eq, if_neg nofun]

theorem planned_cons (sot : SotConfig Sra.SotVrf) (goal : String × String) (goals : List (String × String)) :
    planned sot (goal :: goals) = planned sot [goal] ++ planned sot goals := by
  rw [planned, List.flatMap_cons, planned, List.flatMap_singleton]
  rfl

theorem foldl_syncSwitch (sot : SotConfig Sra.SotVrf) :
    ∀ (switches : List SwitchEntry) (s : List (String × ℤ) × Servers),
      switches.foldl (syncSwitch fate sot) s =
        (s.1 ++ switches.map fun sw => (sw.label,
            if sot.findByManagementIp sw.ipv4 = none then EXIT_FAILURE else EXIT_SUCCESS),
          calling fate (planned sot (switches.map fun sw => (sw.target, sw.ipv4))) s.2)
  | [], s => by
    rw [List.foldl_nil, List.map_nil, List.map_nil, List.append_nil]
    rfl
  | sw :: switches, s => by
    rw [List.foldl_cons, foldl_syncSwitch sot switches, syncSwitch, syncOneServer_eq, List.map_cons,
      List.map_cons, planned_cons sot (sw.target, sw.ipv4) (switches.map _), calling, calling, calling,
      attempts_append, List.append_assoc]
    rfl

theorem cmdSyncMulti_eq (sot : SotConfig Sra.SotVrf) (switches : List SwitchEntry) (net : Servers) :
    cmdSyncMulti fate sot switches net =
      (if ∃ sw ∈ switches, sot.findByManagementIp sw.ipv4 = none then EXIT_FAILURE else EXIT_SUCCESS,
        calling fate (planned sot (switches.map fun sw => (sw.target, sw.ipv4))) net) := by
  unfold cmdSyncMulti
  rw [foldl_syncSwitch]
  refine Prod.ext (if_congr ?_ rfl rfl) rfl
  rw [List.nil_append, List.any_map, List.any_eq_true]
  refine exists_congr fun sw => and_congr_right fun _ => ?_
  show decide _ = true ↔ _
  rw [decide_eq_true_eq]
  dsimp only
  split_ifs with hnone
  · exact iff_of_true (by decide) hnone
  · exact iff_of_false (fun h => h rfl) hnone

/-! ### What the servers get -/

/-- What a route has of the call that it was added by. -/
def routeAsk (route : Route) : Ask where
  destination := route.destination
  gateway := route.gateway
  interfaceName := route.interface_name
  metric := route.metric

/-- The route that a call to the target adds, if its handler runs and the destination is not empty. -/
def deliveredBy (target : String) (call : String × Ask) (fate : Fate) : Option Route :=
  if call.1 = target ∧ call.2.destination ≠ "" then
    fate.drawn.map fun drawn => newRoute call.2.request drawn.1 drawn.2
  else none

/-- The routes that the calls from the `n`-th on add at a target. -/
def delivered (fate : ℕ → Fate) (target : String) : ℕ → List (String × Ask) → List Route
  | _, [] => []
  | n, call :: plan => (deliveredBy target call (fate n)).toList ++ delivered fate target (n + 1) plan

/-- A server to which some routes have been added. -/
def ServiceState.withRoutes (s : ServiceState) (rs : List Route) : ServiceState :=
  ⟨rs.foldl Routes.emplace s.routes, s.loopbackAddress⟩

theorem ServiceState.withRoutes_append (s : ServiceState) (rs rs' : List Route) :
    s.withRoutes (rs ++ rs') = (s.withRoutes rs).withRoutes rs' := by
  unfold withRoutes
  rw [List.foldl_append]

/-- The handler adds the route of the call. -/
theorem ServiceState.added_eq (s : ServiceState) (ask : Ask) (drawn : String × ℤ) :
    s.added ask drawn =
      s.withRoutes (if ask.destination ≠ "" then [newRoute ask.request drawn.1 drawn.2] else []) := by
  have hdest : ask.request.destination = ask.destination := rfl
  unfold ServiceState.added
  rcases serviceAddRoute_cases s.routes ask.request drawn.1 drawn.2 with ⟨hempty, -, hroutes⟩ | ⟨hne, -, hroutes⟩
  · rw [hroutes, if_neg (not_not.mpr (hdest ▸ hempty))]
    rfl
  · rw [hroutes, if_pos (hdest ▸ hne)]
    rfl

theorem Servers.added_service (net : Servers) (call : String × Ask) (drawn : String × ℤ) (target : String) :
    (net.added call.1 call.2 drawn).service target = (net.service target).withRoutes
      (if call.1 = target ∧ call.2.destination ≠ "" then [newRoute call.2.request drawn.1 drawn.2] else []) := by
  show Function.update net.service call.1 ((net.service call.1).added call.2 drawn) target = _
  by_cases htarget : call.1 = target
  · subst htarget
    rw [Function.update_self, ServiceState.added_eq]
    simp only [true_and]
  · rw [Function.update_of_ne (Ne.symm htarget), if_neg fun h => htarget h.1]
    rfl

/-- A call adds its route at its target and changes no other server. -/
theorem addRouteTo_service (call : String × Ask) (net : Servers) (target : String) :
    (addRouteTo fate call.1 call.2 net).2.calls = net.calls + 1 ∧
    (addRouteTo fate call.1 call.2 net).2.service target =
      (net.service target).withRoutes (deliveredBy target call (fate net.calls)).toList := by
  have hdelivered : ∀ drawn, (fate net.calls).drawn = some drawn →
      (deliveredBy target call (fate net.calls)).toList =
        if call.1 = target ∧ call.2.destination ≠ "" then [newRoute call.2.request drawn.1 drawn.2] else [] := by
    intro drawn hdrawn
    rw [deliveredBy, hdrawn]
    split_ifs
    · rfl
    · rfl
  unfold addRouteTo
  rcases hfate : fate net.calls with error | ⟨error, drawn⟩ | drawn
  · refine ⟨rfl, ?_⟩
    unfold deliveredBy
    split_ifs
    · rfl
    · rfl
  · have hdrawn : (fate net.calls).drawn = some drawn := by rw [hfate]; rfl
    rw [hfate] at hdelivered hdrawn
    exact ⟨rfl, (net.added_service call drawn target).trans (by rw [hdelivered drawn hdrawn])⟩
  · have hdrawn : (fate net.calls).drawn = some drawn := by rw [hfate]; rfl
    rw [hfate] at hdelivered hdrawn
    exact ⟨rfl, (net.added_service call drawn target).trans (by rw [hdelivered drawn hdrawn])⟩

/-- Each server has the routes that it had and those of the calls to it. -/
theorem service_calling (target : String) : ∀ (plan : List (String × Ask)) (net : Servers),
    (calling fate plan net).calls = net.calls + plan.length ∧
    (calling fate plan net).service target =
      (net.service target).withRoutes (delivered fate target net.calls plan)
  | [], net => ⟨rfl, rfl⟩
  | call :: plan, net => by
    obtain ⟨hcalls, hservice⟩ := @addRouteTo_service fate call net target
    obtain ⟨hcalls', hservice'⟩ := service_calling target plan (addRouteTo fate call.1 call.2 net).2
    refine ⟨?_, ?_⟩
    · refine hcalls'.trans ?_
      rw [hcalls, List.length_cons]
      omega
    · refine hservice'.trans ?_
      rw [hcalls, hservice, delivered, ServiceState.withRoutes_append]

/-- What is asked of a target. -/
def asksOf (target : String) (plan : List (String × Ask)) : List Ask :=
  (plan.filter fun call => call.1 = target).map Prod.snd

theorem deliveredBy_some {target : String} {call : String × Ask} {f : Fate} {route : Route}
    (h : deliveredBy target call f = some route) :
    call.1 = target ∧ ∃ drawn, f.drawn = some drawn ∧ route = newRoute call.2.request drawn.1 drawn.2 := by
  unfold deliveredBy at h
  split_ifs at h with hcall
  obtain ⟨drawn, hdrawn, rfl⟩ := Option.map_eq_some_iff.mp h
  exact ⟨hcall.1, drawn, hdrawn, rfl⟩

/-- The routes are some of those that were asked for, in their order. -/
theorem delivered_sublist (target : String) : ∀ (plan : List (String × Ask)) (n : ℕ),
    ((delivered fate target n plan).map routeAsk).Sublist (asksOf target plan)
  | [], _ => .slnil
  | call :: plan, n => by
    have ih := delivered_sublist target plan (n + 1)
    rw [delivered, List.map_append, asksOf, List.filter_cons]
    by_cases htarget : call.1 = target
    · rw [if_pos (decide_eq_true htarget), List.map_cons]
      rcases hroute : deliveredBy target call (fate n) with _ | route
      · exact ih.cons _
      · obtain ⟨-, drawn, -, rfl⟩ := deliveredBy_some hroute
        exact ih.cons_cons _
    · rw [if_neg (by simpa using htarget), deliveredBy, if_neg fun h => htarget h.1]
      exact ih

/-- All of them, where every handler runs and no destination is empty. -/
theorem delivered_all (target : String) (hdrawn : ∀ i, (fate i).drawn ≠ none) :
    ∀ (plan : List (String × Ask)) (n : ℕ), (∀ ask ∈ asksOf target plan, ask.destination ≠ "") →
      (delivered fate target n plan).map routeAsk = asksOf target plan
  | [], _, _ => rfl
  | call :: plan, n, hdest => by
    rw [delivered, List.map_append]
    by_cases htarget : call.1 = target
    · have hasks : asksOf target (call :: plan) = call.2 :: asksOf target plan := by
        rw [asksOf, List.filter_cons_of_pos (by simpa using htarget)]
        rfl
      rw [hasks] at hdest ⊢
      obtain ⟨hcall, hplan⟩ := List.forall_mem_cons.mp hdest
      obtain ⟨drawn, hsome⟩ := Option.ne_none_iff_exists'.mp (hdrawn n)
      rw [delivered_all target hdrawn plan (n + 1) hplan, deliveredBy, if_pos ⟨htarget, hcall⟩, hsome]
      rfl
    · have hasks : asksOf target (call :: plan) = asksOf target plan := by
        rw [asksOf, List.filter_cons_of_neg (by simpa using htarget)]
        rfl
      rw [hasks] at hdest ⊢
      rw [delivered_all target hdrawn plan (n + 1) hdest, deliveredBy, if_neg fun h => htarget h.1]
      rfl

/-- A route says the call that it was added by, and has its id. -/
theorem mem_delivered {target : String} {route : Route} : ∀ {plan : List (String × Ask)} {n : ℕ},
    route ∈ delivered fate target n plan →
      (∃ ask : Ask, route = newRoute ask.request route.id route.created_at_us) ∧
      ∃ i, n ≤ i ∧ i < n + plan.length ∧ (fate i).drawn = some (route.id, route.created_at_us)
  | call :: plan, n, h => by
    rw [delivered, List.mem_append] at h
    rcases h with h | h
    · obtain ⟨-, drawn, hdrawn, rfl⟩ := deliveredBy_some (Option.mem_toList.mp h)
      exact ⟨⟨call.2, rfl⟩, n, le_rfl, by simp, hdrawn⟩
    · obtain ⟨hask, i, hlow, hhigh, hdrawn⟩ := mem_delivered h
      rw [List.length_cons]
      exact ⟨hask, i, by omega, by omega, hdrawn⟩

/-! ### What the servers store -/

/-- The ids of the stored routes. -/
def storedIds (routes : Routes) : Set String := {id | routes.contents id ≠ none}

theorem stored_emplace {routes : Routes} {route : Route} (h : route.id ∉ storedIds routes) :
    (routes.emplace route).stored = route :: routes.stored ∧
      storedIds (routes.emplace route) = insert route.id (storedIds routes) := by
  have hnone : routes.contents route.id = none := not_not.mp h
  have hnot : route.id ∉ routes.map := AList.lookup_eq_none.mp hnone
  refine ⟨?_, ?_⟩
  · rw [Routes.emplace, if_neg hnot]
    show (routes.map.insert route.id route).entries.map _ = _
    rw [AList.entries_insert_of_notMem hnot]
    rfl
  · ext id
    show (routes.emplace route).contents id ≠ none ↔ id = route.id ∨ routes.contents id ≠ none
    rw [Routes.contents_emplace hnone]
    by_cases hid : id = route.id
    · subst hid
      simp
    · simp [hid]

/-- Routes with fresh ids come on top of those that are stored. -/
theorem stored_withRoutes : ∀ (rs : List Route) (s : ServiceState),
    Fresh (storedIds s.routes) (rs.map Route.id) →
      (s.withRoutes rs).routes.stored.Perm (rs ++ s.routes.stored) ∧
        storedIds (s.withRoutes rs).routes = storedIds s.routes ∪ {id | id ∈ rs.map Route.id}
  | [], s, _ => ⟨.rfl, by simp [ServiceState.withRoutes]⟩
  | route :: rs, s, hfresh => by
    rw [List.map_cons, fresh_cons] at hfresh
    obtain ⟨hstored, hids⟩ := stored_emplace hfresh.1
    obtain ⟨hperm, hids'⟩ := stored_withRoutes rs ⟨s.routes.emplace route, s.loopbackAddress⟩
      (by rw [hids]; exact hfresh.2)
    refine ⟨?_, ?_⟩
    · refine hperm.trans ?_
      rw [hstored]
      exact List.perm_middle
    · refine hids'.trans ?_
      rw [hids]
      ext id
      show (id = route.id ∨ id ∈ storedIds s.routes) ∨ id ∈ rs.map Route.id ↔
        id ∈ storedIds s.routes ∨ id ∈ route.id :: rs.map Route.id
      rw [List.mem_cons]
      tauto

/-! ### A sync -/

/-- The targets of a sync with the addresses of their nodes: those of the switches, or the one of the command
line. -/
def syncGoals (files : Files) (switchesPath nodeIp server : String) : Option (List (String × String)) :=
  if switchesPath ≠ "" then
    (loadSwitchConfig files switchesPath).toOption.map (List.map fun sw => (sw.target, sw.ipv4))
  else if nodeIp = "" then none
  else some [(server, nodeIp)]

/-- Both files are read before the first call, and the exit code says whether each target has a node. -/
theorem cmdSync_eq (files : Files) (sotPath switchesPath nodeIp server : String) (net : Servers) :
    cmdSync fate files sotPath switchesPath nodeIp server net =
      if sotPath = "" then (EXIT_FAILURE, net)
      else
        match Sra.loadSotConfig files sotPath, syncGoals files switchesPath nodeIp server with
        | .ok sot, some goals =>
          (if ∃ goal ∈ goals, sot.findByManagementIp goal.2 = none then EXIT_FAILURE else EXIT_SUCCESS,
            calling fate (planned sot goals) net)
        | _, _ => (EXIT_FAILURE, net) := by
  unfold cmdSync syncGoals
  simp only [String.isEmpty_iff]
  by_cases hsot : sotPath = ""
  · rw [if_pos hsot, if_pos hsot]
  rw [if_neg hsot, if_neg hsot]
  cases Sra.loadSotConfig files sotPath with
  | error e => rfl
  | ok sot =>
    dsimp only
    by_cases hswitches : switchesPath = ""
    · rw [if_neg (not_not.mpr hswitches), if_neg (not_not.mpr hswitches)]
      by_cases hnode : nodeIp = ""
      · rw [if_pos hnode, if_pos hnode]
      · rw [if_neg hnode, if_neg hnode, syncOneServer_eq]
        simp only [List.mem_singleton, exists_eq_left]
    · rw [if_pos hswitches, if_pos hswitches]
      cases loadSwitchConfig files switchesPath with
      | error e => rfl
      | ok switches =>
        dsimp only [Except.toOption, Option.map]
        rw [cmdSyncMulti_eq]
        simp only [List.mem_map, exists_exists_and_eq_and]

/-- **A sync adds to each server the routes of its node, and nothing else.**  Before both files are read nothing
is called.  From then on every call is made, and every server keeps its loopback and gets, in their order, one route
for each call to it that reaches its handler, if its destination is not empty; these are all of its node's where
every handler runs and no destination is empty.  Where the ids are new the routes come beside those that it had.
The exit code does not depend on that: it is a success when each target has a node. -/
theorem sync_delivers (fate : ℕ → Fate) (files : Files) (sotPath switchesPath nodeIp server : String)
    (net : Servers) :
    (cmdSync fate files sotPath switchesPath nodeIp server net = (EXIT_FAILURE, net) ∧
      ¬∃ sot goals, sotPath ≠ "" ∧ Sra.loadSotConfig files sotPath = .ok sot ∧
        syncGoals files switchesPath nodeIp server = some goals) ∨
    ∃ sot goals, Sra.loadSotConfig files sotPath = .ok sot ∧
      syncGoals files switchesPath nodeIp server = some goals ∧
      ((cmdSync fate files sotPath switchesPath nodeIp server net).1 = EXIT_SUCCESS ↔
        ∀ goal ∈ goals, sot.findByManagementIp goal.2 ≠ none) ∧
      (cmdSync fate files sotPath switchesPath nodeIp server net).2.calls =
        net.calls + (planned sot goals).length ∧
      ∀ target, ∃ rs : List Route, rs = delivered fate target net.calls (planned sot goals) ∧
        (cmdSync fate files sotPath switchesPath nodeIp server net).2.service target =
          (net.service target).withRoutes rs ∧
        (∀ route ∈ rs, ∃ ask : Ask, route = newRoute ask.request route.id route.created_at_us) ∧
        (rs.map routeAsk).Sublist (asksOf target (planned sot goals)) ∧
        ((∀ i, (fate i).drawn ≠ none) → (∀ ask ∈ asksOf target (planned sot goals), ask.destination ≠ "") →
          rs.map routeAsk = asksOf target (planned sot goals)) ∧
        (Fresh (storedIds (net.service target).routes) (rs.map Route.id) →
          ((cmdSync fate files sotPath switchesPath nodeIp server net).2.service target).routes.stored.Perm
            (rs ++ (net.service target).routes.stored)) := by
  rw [cmdSync_eq]
  by_cases hpath : sotPath = ""
  · rw [if_pos hpath]
    exact .inl ⟨rfl, fun ⟨_, _, hne, _⟩ => hne hpath⟩
  rw [if_neg hpath]
  rcases hsot : Sra.loadSotConfig files sotPath with e | sot
  · exact .inl ⟨rfl, fun ⟨_, _, _, hok, _⟩ => by cases hok⟩
  rcases hgoals : syncGoals files switchesPath nodeIp server with _ | goals
  · exact .inl ⟨rfl, fun ⟨_, _, _, _, hsome⟩ => by cases hsome⟩
  refine .inr ⟨sot, goals, rfl, rfl, ?_, (service_calling "" (planned sot goals) net).1, fun target => ?_⟩
  · dsimp only
    split_ifs with hmissing
    · refine iff_of_false (by decide) fun hall => ?_
      obtain ⟨goal, hgoal, hnone⟩ := hmissing
      exact hall goal hgoal hnone
    · exact iff_of_true rfl fun goal hgoal hnone => hmissing ⟨goal, hgoal, hnone⟩
  · have hservice := (@service_calling fate target (planned sot goals) net).2
    refine ⟨_, rfl, hservice, fun route hroute => (mem_delivered hroute).1, delivered_sublist target _ _,
      fun hdrawn hdest => delivered_all target hdrawn _ _ hdest, fun hfresh => ?_⟩
    dsimp only
    rw [hservice]
    exact (stored_withRoutes _ _ hfresh).1

/-! ### Syncs one after the other -/

/-- The servers behind `n` syncs. -/
def syncs (fate : ℕ → Fate) (files : Files) (sotPath switchesPath nodeIp server : String) (n : ℕ)
    (net : Servers) : Servers :=
  (fun net => (cmdSync fate files sotPath switchesPath nodeIp server net).2)^[n] net

/-- Every handler draws an id that no other one draws. -/
structure DistinctDraws (fate : ℕ → Fate) : Prop where
  drawn : ∀ i, (fate i).drawn ≠ none
  distinct : ∀ i j drawn drawn', (fate i).drawn = some drawn → (fate j).drawn = some drawn' →
    drawn.1 = drawn'.1 → i = j

theorem delivered_nodup (h : DistinctDraws fate) (target : String) : ∀ (plan : List (String × Ask)) (n : ℕ),
    ((delivered fate target n plan).map Route.id).Nodup
  | [], _ => List.nodup_nil
  | call :: plan, n => by
    have ih := delivered_nodup h target plan (n + 1)
    rw [delivered, List.map_append]
    rcases hroute : deliveredBy target call (fate n) with _ | route
    · exact ih
    · obtain ⟨-, drawn, hdrawn, rfl⟩ := deliveredBy_some hroute
      refine List.nodup_cons.mpr ⟨fun hmem => ?_, ih⟩
      obtain ⟨later, hlater, hid⟩ := List.mem_map.mp hmem
      obtain ⟨-, i, hlow, -, hdrawn'⟩ := mem_delivered hlater
      have heq := h.distinct i n _ drawn hdrawn' hdrawn hid
      omega

/-- The ids that are stored were there at the start, or were drawn since then. -/
def IdsSince (fate : ℕ → Fate) (target : String) (start net : Servers) : Prop :=
  start.calls ≤ net.calls ∧ ∀ id ∈ storedIds (net.service target).routes,
    id ∈ storedIds (start.service target).routes ∨
      ∃ i now, i < net.calls ∧ (fate i).drawn = some (id, now)

theorem fresh_delivered (h : DistinctDraws fate) {target : String} {start net : Servers}
    (hsince : IdsSince fate target start net)
    (hnew : ∀ i drawn, start.calls ≤ i → (fate i).drawn = some drawn →
      drawn.1 ∉ storedIds (start.service target).routes) (plan : List (String × Ask)) :
    Fresh (storedIds (net.service target).routes) ((delivered fate target net.calls plan).map Route.id) := by
  refine ⟨delivered_nodup h target plan net.calls, fun id hid hmem => ?_⟩
  obtain ⟨route, hroute, rfl⟩ := List.mem_map.mp hid
  obtain ⟨-, i, hlow, -, hdrawn⟩ := mem_delivered hroute
  rcases hsince.2 route.id hmem with hstart | ⟨j, now, hj, hdrawn'⟩
  · exact hnew i _ (hsince.1.trans hlow) hdrawn hstart
  · have heq := h.distinct i j _ _ hdrawn hdrawn' rfl
    omega

/-- **A further sync adds the routes again**: where every call is handled and every id is new, each of `n` syncs
in a row adds every route of the node once more. -/
theorem sync_repeats (h : DistinctDraws fate) {files : Files} {sotPath switchesPath nodeIp server : String}
    (hpath : sotPath ≠ "") {sot : SotConfig Sra.SotVrf} (hsot : Sra.loadSotConfig files sotPath = .ok sot)
    {goals : List (String × String)} (hgoals : syncGoals files switchesPath nodeIp server = some goals)
    {target : String} (hdest : ∀ ask ∈ asksOf target (planned sot goals), ask.destination ≠ "")
    {net : Servers} (hnew : ∀ i drawn, net.calls ≤ i → (fate i).drawn = some drawn →
      drawn.1 ∉ storedIds (net.service target).routes) (n : ℕ) :
    (((syncs fate files sotPath switchesPath nodeIp server n net).service target).routes.stored.map routeAsk).Perm
      ((List.replicate n (asksOf target (planned sot goals))).flatten ++
        (net.service target).routes.stored.map routeAsk) := by
  have hone : ∀ net', (cmdSync fate files sotPath switchesPath nodeIp server net').2 =
      calling fate (planned sot goals) net' := by
    intro net'
    rw [cmdSync_eq, if_neg hpath, hsot, hgoals]
  suffices hrun : IdsSince fate target net (syncs fate files sotPath switchesPath nodeIp server n net) ∧
      (((syncs fate files sotPath switchesPath nodeIp server n net).service target).routes.stored.map
        routeAsk).Perm ((List.replicate n (asksOf target (planned sot goals))).flatten ++
          (net.service target).routes.stored.map routeAsk) from hrun.2
  induction n with
  | zero => exact ⟨⟨le_rfl, fun id hid => .inl hid⟩, .rfl⟩
  | succ n ih =>
    obtain ⟨hsince, hperm⟩ := ih
    rw [syncs, Function.iterate_succ_apply', hone]
    rw [syncs] at hsince hperm
    generalize (fun net => (cmdSync fate files sotPath switchesPath nodeIp server net).2)^[n] net = net'
      at hsince hperm ⊢
    obtain ⟨hcalls, hservice⟩ := @service_calling fate target (planned sot goals) net'
    obtain ⟨hstored, hids⟩ := stored_withRoutes _ _ (fresh_delivered h hsince hnew (planned sot goals))
    refine ⟨⟨by rw [hcalls]; have := hsince.1; omega, fun id hid => ?_⟩, ?_⟩
    · rw [hservice, hids] at hid
      rcases hid with hid | hid
      · refine (hsince.2 id hid).imp_right ?_
        rintro ⟨i, now, hi, hdrawn⟩
        exact ⟨i, now, by omega, hdrawn⟩
      · obtain ⟨route, hroute, rfl⟩ := List.mem_map.mp hid
        obtain ⟨-, i, -, hhigh, hdrawn⟩ := mem_delivered hroute
        exact .inr ⟨i, _, by omega, hdrawn⟩
    · rw [hservice]
      refine (hstored.map routeAsk).trans ?_
      rw [List.map_append, delivered_all target h.drawn _ _ hdest, List.replicate_succ, List.flatten_cons,
        List.append_assoc]
      exact hperm.append_left _

/-- Ids that get longer with every call. -/
def longerIds (i : ℕ) : Fate := .answered (String.ofList (List.replicate i 'a'), 0)

theorem longerIds_distinct : DistinctDraws longerIds where
  drawn _ := nofun
  distinct i j drawn drawn' hi hj heq := by
    obtain rfl := Option.some.inj hi
    obtain rfl := Option.some.inj hj
    have hlist : List.replicate i 'a' = List.replicate j 'a' := String.ofList_injective heq
    simpa using congrArg List.length hlist

/-- Servers without routes. -/
def emptyServers : Servers := ⟨fun _ => .initial, 0⟩

theorem ids_initial (id : String) : id ∉ storedIds ServiceState.initial.routes := by
  show ¬Routes.empty.contents id ≠ none
  rw [Routes.contents_empty]
  exact not_not.mpr rfl

/-- The sample node, two times. -/
theorem sync_repeats_twice :
    (((syncs longerIds (oneFile sampleDocument) "sot.json" "" "10.124.224.60" "leaf:50051" 2
        emptyServers).service "leaf:50051").routes.stored.map routeAsk).Perm
      [⟨"10.0.1.0/24", "", "Ethernet0", 1⟩, ⟨"10.0.1.0/24", "", "Ethernet0", 1⟩] := by
  obtain ⟨sot, hsot⟩ : ∃ sot, Sra.loadSotConfig (oneFile sampleDocument) "sot.json" = .ok sot := ⟨_, rfl⟩
  have hasks : asksOf "leaf:50051" (planned sot [("leaf:50051", "10.124.224.60")]) =
      [⟨"10.0.1.0/24", "", "Ethernet0", 1⟩] := by
    obtain rfl := Except.ok.inj hsot
    rfl
  have hdest : ∀ ask ∈ asksOf "leaf:50051" (planned sot [("leaf:50051", "10.124.224.60")]),
      ask.destination ≠ "" := by
    rw [hasks]
    exact List.forall_mem_singleton.mpr (by decide)
  have htwice := @sync_repeats longerIds longerIds_distinct (oneFile sampleDocument) "sot.json" ""
    "10.124.224.60" "leaf:50051" (by decide) sot hsot _ rfl "leaf:50051" hdest emptyServers
    (fun _ _ _ _ => ids_initial _) 2
  rwa [hasks] at htwice

end Rtsrv.Client
