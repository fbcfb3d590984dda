import Rtsrv.Client.VrfRequests
import Rtsrv.Lib.Postings

/-!
# Rtsrv.Client.VrfTable — the routes of the server, looked up by nexthop (`vrf_table.cpp`, `main.cpp`)

`VrfTable` keeps the routes of a `GetAllRoutes` response with an index by gateway.  On a nexthop event
`sendVrfRouteForNexthop` builds a request from what the index finds: a third copy of the conversion in the
`run` and `vrf-route-add` commands.
-/

namespace Rtsrv.Client

open Lib CmdProto Server

/-! ### `VrfTable` -/

/-- The index has the positions of the routes with a nexthop, under that nexthop. -/
structure VrfTable where
  routes_ : List VrfRoute
  byNexthop_ : Postings String
  indexed : ∀ gateway, byNexthop_.positions gateway =
    positionsOf (fun r => r.nexthop ≠ "" ∧ r.nexthop = gateway) routes_

namespace VrfTable

/-- The table after the two calls of `clear`. -/
def empty : VrfTable where
  routes_ := []
  byNexthop_ := .empty
  indexed := fun gateway => Postings.positions_empty gateway

/-- A round of the loop of `load`. -/
def push (t : VrfTable) (r : VrfRoute) : VrfTable where
  routes_ := t.routes_ ++ [r]
  byNexthop_ := if r.nexthop ≠ "" then t.byNexthop_.note r.nexthop t.routes_.length else t.byNexthop_
  indexed := by
    intro gateway
    rw [positionsOf_concat, ← t.indexed]
    by_cases hne : r.nexthop ≠ ""
    · rw [if_pos hne, Postings.positions_note]
      simp [hne]
    · rw [if_neg hne]
      simp [hne]

/-- `load` replaces what the table had. -/
def load (resp : GetAllRoutesResponse) : VrfTable := resp.routes.foldl push empty

def hasNexthop (t : VrfTable) (gateway : String) : Bool := (t.byNexthop_.find gateway).isSome

theorem positions_lt (t : VrfTable) (gateway : String) :
    ∀ idx ∈ t.byNexthop_.positions gateway, idx < t.routes_.length := by
  rw [t.indexed]
  exact positionsOf_lt

def findByNexthop (t : VrfTable) (gateway : String) : List VrfRoute :=
  (t.byNexthop_.positions gateway).pmap (fun idx hidx => t.routes_.get ⟨idx, hidx⟩) (t.positions_lt gateway)

theorem foldl_push_routes :
    ∀ (rs : List VrfRoute) (t : VrfTable), (rs.foldl push t).routes_ = t.routes_ ++ rs
  | [], t => (List.append_nil _).symm
  | r :: rs, t => by
    rw [List.foldl_cons, foldl_push_routes rs, push, List.append_assoc]
    rfl

theorem load_routes (resp : GetAllRoutesResponse) : (load resp).routes_ = resp.routes :=
  foldl_push_routes resp.routes empty

/-- The index finds the routes with the nexthop, in their order. -/
theorem findByNexthop_eq (t : VrfTable) (gateway : String) :
    t.findByNexthop gateway = t.routes_.filter fun r => r.nexthop ≠ "" ∧ r.nexthop = gateway := by
  refine List.map_injective_iff.mpr (Option.some_injective _) ?_
  have hget : (t.findByNexthop gateway).map some =
      (t.byNexthop_.positions gateway).map fun idx => t.routes_[idx]? := by
    rw [findByNexthop, List.map_pmap]
    refine (List.pmap_congr_left _ fun idx _ hidx _ => ?_).trans (List.pmap_eq_map (t.positions_lt gateway))
    exact (List.getElem?_eq_getElem hidx).symm
  rw [hget, t.indexed, map_positionsOf]

theorem hasNexthop_iff (t : VrfTable) (gateway : String) :
    t.hasNexthop gateway = true ↔ t.findByNexthop gateway ≠ [] := by
  rw [hasNexthop, Option.isSome_iff_ne_none, Postings.find_ne_none, findByNexthop, ne_eq, ne_eq,
    List.pmap_eq_nil_iff]

end VrfTable

/-! ### `sendVrfRouteForNexthop` -/

/-- A round of the loop: the address and the id are those of the nexthop. -/
def nexthopEntry (nh : NetlinkNexthop) (nhAddr : Ipv4Addr) (route : VrfRoute) :
    Except StoError (Option VrfsRequest) :=
  vrfsRequest (some nhAddr) (fixedArray IFACE_NAME_SIZE route.interface_name) nh.id prefixIpv4 route

/-- The entries that are submitted for a nexthop, if there are any. -/
def sendVrfRouteForNexthop (nh : NetlinkNexthop) (vrfTable : VrfTable) : Except StoError (List VrfsRequest) :=
  if nh.gateway = "" then pure []
  else if vrfTable.hasNexthop nh.gateway then
    match inetPton (cStr nh.gateway.toList) with
    | none => pure []
    | some nhAddr => (vrfTable.findByNexthop nh.gateway).filterMapM (nexthopEntry nh nhAddr)
  else pure []

/-! ### The three builders -/

/-- A prefix text that the conversion in the other two takes is taken alike in the `vrf-route-add` command. -/
theorem addPrefixIpv4_of_ok {text : List Char} {o : Option PrefixIpv4} (h : prefixIpv4 text = .ok o) :
    addPrefixIpv4 text = .ok o := by
  unfold prefixIpv4 at h
  unfold addPrefixIpv4
  cases hslash : rfind text '/' with
  | none => rwa [hslash] at h
  | some slash =>
    rw [hslash] at h
    obtain ⟨maskLen, hmask, h⟩ := except_bind_ok.mp h
    dsimp only
    rw [hmask]
    cases haddr : inetPton (cStr (text.take slash)) with
    | none => rwa [haddr] at h
    | some pfxAddr => rwa [haddr] at h

/-- Each prefix text is a dotted IPv4 address, a slash and a decimal number up to 32. -/
def WellFormed (arResult : GetAllRoutesResponse) : Prop :=
  ∀ route ∈ arResult.routes, ∀ pfx ∈ route.prefixes, prefixOf pfx.prefix_.toList ≠ none

/-- An entry up to its nexthop id. -/
def withoutId (vr : VrfsRequest) : VrfsRequest := { vr with nexthop_id_ipv4 := 0 }

/-- The entries of the `run` command, each with the route that it is made from. -/
def runBuilt (nexthops : List NexthopEntry) (arResult : GetAllRoutesResponse) :
    Except StoError (List (VrfRoute × VrfsRequest)) :=
  arResult.routes.filterMapM fun route => Option.map (Prod.mk route) <$> runEntry nexthops route

/-- The three builders agree up to the nexthop ids: the `vrf-route-add` command builds the entries of the
`run` command, and for a nexthop those are sent, in order, whose route has its gateway. -/
def BuildersAgree (nexthops : List NexthopEntry) (arResult : GetAllRoutesResponse) : Prop :=
  ∃ built add, runBuilt nexthops arResult = .ok built ∧
    runRequests nexthops arResult = .ok (built.map Prod.snd) ∧ addRequests arResult = .ok add ∧
    (built.map Prod.snd).map withoutId = add.map withoutId ∧
    ∀ nh : NetlinkNexthop, ∃ sent, sendVrfRouteForNexthop nh (.load arResult) = .ok sent ∧
      sent.map withoutId = (built.filter fun b => b.1.nexthop = nh.gateway).map fun b => withoutId b.2

/-- The first 32 bytes of the interface name are zero, as in an empty name. -/
def NamesNoInterface (route : VrfRoute) : Prop :=
  ∀ b ∈ (chars route.interface_name).take IFACE_NAME_SIZE, b = 0

/-- What the builders make of a route whose prefix texts are well-formed. -/
def plainEntry (iface_name : IfaceName) (nexthop_id : UInt32) (route : VrfRoute) : Option VrfsRequest :=
  if route.interface_type = "nni" then
    (inetPton (cStr route.nexthop.toList)).map fun nhAddr =>
      entryFor route nhAddr iface_name nexthop_id
        (route.prefixes.filterMap fun pfx => prefixOf pfx.prefix_.toList)
  else none

theorem plainEntry_ne_none {iface_name : IfaceName} {nexthop_id : UInt32} {route : VrfRoute} :
    plainEntry iface_name nexthop_id route ≠ none ↔ Taken route := by
  unfold plainEntry Taken
  by_cases htype : route.interface_type = "nni"
  · rw [if_pos htype, and_iff_right htype, ne_eq, ne_eq, Option.map_eq_none_iff]
  · rw [if_neg htype]
    exact iff_of_false (fun h => h rfl) fun h => htype h.1

theorem plainEntry_not_taken {route : VrfRoute} (h : ¬ Taken route) (iface_name : IfaceName)
    (nexthop_id : UInt32) : plainEntry iface_name nexthop_id route = none :=
  not_not.mp fun hne => h (plainEntry_ne_none.mp hne)

theorem withoutId_plainEntry (iface_name : IfaceName) (nexthop_id : UInt32) (route : VrfRoute) :
    (plainEntry iface_name nexthop_id route).map withoutId = plainEntry iface_name 0 route := by
  unfold plainEntry
  split_ifs
  · rw [Option.map_map]
    rfl
  · rfl

/-- Entries of one route differ in the interface name alone. -/
theorem plainEntry_eq_iff {iface_name iface_name' : IfaceName} {nexthop_id : UInt32} {route : VrfRoute} :
    plainEntry iface_name nexthop_id route = plainEntry iface_name' nexthop_id route ↔
      (Taken route → iface_name = iface_name') := by
  constructor
  · rintro h ⟨htype, haddr⟩
    obtain ⟨nhAddr, haddr⟩ := Option.ne_none_iff_exists'.mp haddr
    rw [plainEntry, plainEntry, if_pos htype, if_pos htype, haddr] at h
    exact congrArg VrfsRequest.iface_name (Option.some.inj h)
  · intro h
    by_cases htaken : Taken route
    · rw [h htaken]
    · rw [plainEntry_not_taken htaken, plainEntry_not_taken htaken]

/-- A loop whose conversion takes well-formed texts as they are makes the plain entry. -/
theorem vrfsRequest_plain {convert : List Char → Except StoError (Option PrefixIpv4)} {route : VrfRoute}
    (iface_name : IfaceName) (nexthop_id : UInt32)
    (h : ∀ pfx ∈ route.prefixes, convert pfx.prefix_.toList = .ok (prefixOf pfx.prefix_.toList)) :
    vrfsRequest (inetPton (cStr route.nexthop.toList)) iface_name nexthop_id convert route =
      .ok (plainEntry iface_name nexthop_id route) := by
  by_cases htaken : Taken route
  · obtain ⟨nhAddr, haddr⟩ := Option.ne_none_iff_exists'.mp htaken.2
    rw [haddr, vrfsRequest_taken _ _ _ _ htaken, filterMapM_ok h, plainEntry, if_pos htaken.1, haddr]
    rfl
  · rw [vrfsRequest_not_taken _ _ _ htaken, plainEntry_not_taken htaken]

theorem fixedArray_eq_zero {n : ℕ} {s : String} :
    fixedArray n s = .replicate n 0 ↔ ∀ b ∈ (chars s).take n, b = 0 := by
  have hlen : (fixedArray n s).items.length = n := (fixedArray n s).length_eq
  have hitems : fixedArray n s = .replicate n 0 ↔ (fixedArray n s).items = List.replicate n 0 := by
    rw [Block.replicate, ← Block.mk.injEq (fixedArray n s).items hlen]
  rw [hitems, List.eq_replicate_iff, and_iff_right hlen, fixedArray, List.forall_mem_append]
  exact and_iff_left fun b hb => List.eq_of_mem_replicate hb

/-- What the `run` command makes of a route whose prefix texts are well-formed. -/
def runPlain (nexthops : List NexthopEntry) (route : VrfRoute) : Option VrfsRequest :=
  plainEntry (fixedArray IFACE_NAME_SIZE route.interface_name) (nexthopId nexthops route.nexthop) route

section WellFormedPrefixes

variable {arResult : GetAllRoutesResponse} (hwell : WellFormed arResult)

include hwell

theorem prefixIpv4_wellFormed : ∀ route ∈ arResult.routes, ∀ pfx ∈ route.prefixes,
    prefixIpv4 pfx.prefix_.toList = .ok (prefixOf pfx.prefix_.toList) := by
  intro route hroute pfx hpfx
  obtain ⟨p, hp⟩ := Option.ne_none_iff_exists'.mp (hwell route hroute pfx hpfx)
  rw [hp, prefixIpv4_of_prefixOf hp]

theorem runEntry_wellFormed (nexthops : List NexthopEntry) : ∀ route ∈ arResult.routes,
    runEntry nexthops route = .ok (runPlain nexthops route) :=
  fun route hroute => vrfsRequest_plain _ _ (prefixIpv4_wellFormed hwell route hroute)

theorem runRequests_wellFormed (nexthops : List NexthopEntry) :
    runRequests nexthops arResult = .ok (arResult.routes.filterMap (runPlain nexthops)) :=
  filterMapM_ok (runEntry_wellFormed hwell nexthops)

theorem runBuilt_wellFormed (nexthops : List NexthopEntry) : runBuilt nexthops arResult =
    .ok (arResult.routes.filterMap fun route => (runPlain nexthops route).map (Prod.mk route)) := by
  refine filterMapM_ok fun route hroute => ?_
  rw [runEntry_wellFormed hwell nexthops route hroute]
  rfl

theorem addRequests_wellFormed :
    addRequests arResult = .ok (arResult.routes.filterMap (plainEntry (.replicate _ 0) 0)) :=
  filterMapM_ok fun route hroute => vrfsRequest_plain _ _ fun pfx hpfx =>
    addPrefixIpv4_of_ok (prefixIpv4_wellFormed hwell route hroute pfx hpfx)

/-- What is sent for a nexthop are the plain entries of the routes with its gateway. -/
theorem sendVrfRouteForNexthop_wellFormed (nh : NetlinkNexthop) :
    sendVrfRouteForNexthop nh (.load arResult) =
      .ok ((arResult.routes.filter fun r => r.nexthop = nh.gateway).filterMap fun r =>
        plainEntry (fixedArray IFACE_NAME_SIZE r.interface_name) nh.id r) := by
  have hfind := VrfTable.findByNexthop_eq (.load arResult) nh.gateway
  rw [VrfTable.load_routes] at hfind
  -- without an address there is nothing to send
  have hnone : inetPton (cStr nh.gateway.toList) = none →
      ((arResult.routes.filter fun r => r.nexthop = nh.gateway).filterMap fun r =>
        plainEntry (fixedArray IFACE_NAME_SIZE r.interface_name) nh.id r) = [] := by
    intro haddr
    refine List.filterMap_eq_nil_iff.mpr fun r hr => plainEntry_not_taken (fun htaken => htaken.2 ?_) _ _
    rw [of_decide_eq_true (List.mem_filter.mp hr).2, haddr]
  unfold sendVrfRouteForNexthop
  by_cases hempty : nh.gateway = ""
  · rw [if_pos hempty, hnone (by rw [hempty]; rfl)]
    rfl
  have hsame : (arResult.routes.filter fun r => r.nexthop ≠ "" ∧ r.nexthop = nh.gateway) =
      arResult.routes.filter fun r => r.nexthop = nh.gateway := by
    refine List.filter_congr fun r _ => decide_eq_decide.mpr ⟨And.right, fun h => ⟨?_, h⟩⟩
    rw [h]
    exact hempty
  rw [if_neg hempty]
  by_cases hhas : (VrfTable.load arResult).hasNexthop nh.gateway = true
  · rw [if_pos hhas]
    cases haddr : inetPton (cStr nh.gateway.toList) with
    | none =>
      rw [hnone haddr]
      rfl
    | some nhAddr =>
      rw [hfind, hsame]
      refine filterMapM_ok fun r hr => ?_
      obtain ⟨hr, hgateway⟩ := List.mem_filter.mp hr
      rw [nexthopEntry, ← haddr, ← of_decide_eq_true hgateway]
      exact vrfsRequest_plain _ _ (prefixIpv4_wellFormed hwell r hr)
  · rw [if_neg hhas]
    rw [VrfTable.hasNexthop_iff, not_not, hfind, hsame] at hhas
    rw [hhas]
    rfl

end WellFormedPrefixes

/-- The entries of the two commands are the same up to the nexthop ids when the interface names are empty. -/
theorem run_add_iff (nexthops : List NexthopEntry) (routes : List VrfRoute) :
    (routes.filterMap (runPlain nexthops)).map withoutId =
        (routes.filterMap (plainEntry (.replicate _ 0) 0)).map withoutId ↔
      ∀ route ∈ routes, Taken route → NamesNoInterface route := by
  have htaken : ∀ route ∈ routes, plainEntry (.replicate _ 0) 0 route ≠ none →
      plainEntry (fixedArray IFACE_NAME_SIZE route.interface_name) 0 route ≠ none :=
    fun route _ hne => plainEntry_ne_none.mpr (plainEntry_ne_none.mp hne)
  rw [List.map_filterMap, List.map_filterMap]
  simp only [runPlain, withoutId_plainEntry]
  rw [filterMap_eq_filterMap htaken]
  refine forall₂_congr fun route _ => ?_
  rw [plainEntry_eq_iff, fixedArray_eq_zero, NamesNoInterface]

/-- For a nexthop the entries of the `run` command are sent whose routes have its gateway. -/
theorem sent_of_run (nexthops : List NexthopEntry) (routes : List VrfRoute) (nh : NetlinkNexthop) :
    ((routes.filter fun r => r.nexthop = nh.gateway).filterMap fun r =>
        plainEntry (fixedArray IFACE_NAME_SIZE r.interface_name) nh.id r).map withoutId =
      ((routes.filterMap fun route => (runPlain nexthops route).map (Prod.mk route)).filter
        fun b => b.1.nexthop = nh.gateway).map fun b => withoutId b.2 := by
  rw [filter_filterMap_tag (fun r : VrfRoute => decide (r.nexthop = nh.gateway)), List.map_filterMap,
    List.map_filterMap]
  refine congrArg (List.filterMap · _) (funext fun r => ?_)
  rw [withoutId_plainEntry, Option.map_map]
  exact (withoutId_plainEntry _ _ r).symm

/-- **The three builders agree exactly when no route that they take names its interface**: the
`vrf-route-add` command leaves the interface name out. -/
theorem builders_agree_iff (nexthops : List NexthopEntry) {arResult : GetAllRoutesResponse}
    (hwell : WellFormed arResult) :
    BuildersAgree nexthops arResult ↔ ∀ route ∈ arResult.routes, Taken route → NamesNoInterface route := by
  have hbuilt := runBuilt_wellFormed hwell nexthops
  have hadd := addRequests_wellFormed hwell
  have hsnd : (arResult.routes.filterMap fun route => (runPlain nexthops route).map (Prod.mk route)).map
      Prod.snd = arResult.routes.filterMap (runPlain nexthops) := by
    rw [List.map_filterMap]
    refine congrArg (List.filterMap · _) (funext fun route => ?_)
    rw [Option.map_map]
    exact Option.map_id'
  rw [← run_add_iff nexthops]
  constructor
  · rintro ⟨built, add, hbuilt', -, hadd', hsame, -⟩
    obtain rfl := Except.ok.inj (hbuilt.symm.trans hbuilt')
    obtain rfl := Except.ok.inj (hadd.symm.trans hadd')
    rwa [hsnd] at hsame
  · intro hsame
    refine ⟨_, _, hbuilt, ?_, hadd, by rwa [hsnd], fun nh => ?_⟩
    · rw [hsnd, runRequests_wellFormed hwell]
    · exact ⟨_, sendVrfRouteForNexthop_wellFormed hwell nh, sent_of_run nexthops arResult.routes nh⟩

theorem builders_agree_unnamed : BuildersAgree [] (nniResponse "" ["10.0.0.0/8"]) := by
  have hwell : WellFormed (nniResponse "" ["10.0.0.0/8"]) := by
    unfold WellFormed
    decide
  refine (builders_agree_iff [] hwell).mpr fun route hroute _ => ?_
  obtain rfl := List.mem_singleton.mp hroute
  have hchars : (chars "").take IFACE_NAME_SIZE = [] := by decide
  intro b hb
  rw [hchars] at hb
  cases hb

/-- Only the `run` command names the interface of a route. -/
theorem builders_differ :
    WellFormed (nniResponse "eth0" ["10.0.0.0/8"]) ∧
      ¬ BuildersAgree [] (nniResponse "eth0" ["10.0.0.0/8"]) := by
  have hdiffer : (runRequests [] (nniResponse "eth0" ["10.0.0.0/8"])).map (List.map withoutId) ≠
      (addRequests (nniResponse "eth0" ["10.0.0.0/8"])).map (List.map withoutId) := by decide
  refine ⟨?_, ?_⟩
  · unfold WellFormed
    decide
  · rintro ⟨built, add, -, hrun, hadd, hsame, -⟩
    rw [hrun, hadd] at hdiffer
    exact hdiffer (congrArg Except.ok hsame)

end Rtsrv.Client
