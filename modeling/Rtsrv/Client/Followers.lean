import Rtsrv.Client.NetlinkTables
import Rtsrv.Client.NlWatch

/-!
# Rtsrv.Client.Followers — the client's tables as followers of the kernel's

The three startup tables put and erase rows, so each is a `RowReader`; `cmdNetlinkWatch` keeps the OSPF
routes and drops all rows of a destination on a change.  In each the dump and the live callback are the
functions of the source.
-/

namespace Rtsrv.Client

open Lib CmdProto Server

variable {ω : Type}

/-- The event that a notice is parsed to: `NLM_F_REPLACE` marks a change. -/
def eventOf : Notice ω → NetlinkEvent
  | .added _ => .ADDED
  | .changed _ => .CHANGED
  | .removed _ => .REMOVED

/-- What a reader does with a notice is what `updateTable` does with its event. -/
theorem apply_eq_update {κ ρ : Type} {key : ρ → κ} [DecidableEq κ] (R : RowReader ω key)
    (n : Notice ω) (m : Keyed key) :
    R.apply n m =
      match R.live n.obj with
      | some row => updateTable (eventOf n) row m
      | none => m := by
  cases n <;> rfl

/-! ### Host routes -/

/-- What both ways of reading a route give: not `tos` and `flags`, which the dump leaves zero, nor the
server id. -/
def WatchRoute.seen (row : WatchRoute) : WatchRoute := { row with srmdId := "", tos := 0, flags := 0 }

/-- A host route, of the kind that the client keeps. -/
def RouteMessage.IsHost (msg : RouteMessage) : Prop := msg.dst_len = 32 ∧ msg.type = RTN_UNICAST

instance (msg : RouteMessage) : Decidable msg.IsHost := inferInstanceAs (Decidable (_ ∧ _))

/-- The gateways and interfaces of a route: those of `RTA_MULTIPATH`, or else those of the message. -/
def RouteMessage.hops (msg : RouteMessage) : List (Option Ipv4Addr × Option UInt32) :=
  match msg.multipath with
  | [] => [(msg.gateway, msg.oif)]
  | nexthops => nexthops.map fun nh => (nh.gateway, some nh.ifindex)

variable (ifname : UInt32 → String)

/-- The row of a route of the kernel over one hop. -/
def RouteMessage.hopRow (msg : RouteMessage) (hop : Option Ipv4Addr × Option UInt32) : WatchRoute where
  dest := prefixText (msg.dst.getD anyAddr) msg.dst_len
  gateway := if hop.1.getD anyAddr = anyAddr then "" else inetNtop (hop.1.getD anyAddr)
  iface := (hop.2.map ifname).getD ""
  ifindex := hop.2.getD 0
  metric := msg.priority.getD 0
  table := msg.table.getD msg.table8.toUInt32
  protocol := msg.protocol
  srmdId := ""
  family := AF_INET
  dst_len := msg.dst_len
  tos := 0
  scope := msg.scope
  type := msg.type
  flags := 0

/-- The rows that the table should have of a route of the kernel: the hops of a host route are rows of their
own, as several routes to one destination are. -/
def RouteMessage.hostRows (msg : RouteMessage) : List WatchRoute :=
  if msg.IsHost then msg.hops.map (msg.hopRow ifname) else []

/-- A notice can tell a host route without `RTA_MULTIPATH`. -/
def RouteMessage.Told (msg : RouteMessage) : Prop := msg.IsHost → msg.multipath = []

/-- A dump can read a host route with a destination and no gateway `0.0.0.0`. -/
def RouteMessage.Readable (msg : RouteMessage) : Prop :=
  msg.IsHost → msg.dst ≠ none ∧ ∀ hop ∈ msg.hops, hop.1 ≠ some anyAddr

instance (msg : RouteMessage) : Decidable msg.Told := inferInstanceAs (Decidable (_ → _))

instance (msg : RouteMessage) : Decidable msg.Readable := inferInstanceAs (Decidable (_ → _ ∧ ∀ hop ∈ _, _))

theorem nlDispatch_some {msg : RouteMessage} {route : NetlinkRoute32}
    (h : msg.nlDispatch ifname = some route) : msg.IsHost := by
  rw [RouteMessage.nlDispatch] at h
  split at h
  · cases h
  next hlen =>
    split at h
    · cases h
    next htype => exact ⟨not_not.mp hlen, not_not.mp htype⟩

theorem nlDispatch_other {msg : RouteMessage} (h : ¬ msg.IsHost) : msg.nlDispatch ifname = none := by
  cases hd : msg.nlDispatch ifname with
  | none => rfl
  | some route => exact absurd (nlDispatch_some ifname hd) h

/-- A notice about a host route without `RTA_MULTIPATH` has its row in it. -/
theorem nlDispatch_told {msg : RouteMessage} (hhost : msg.IsHost) (hmulti : msg.multipath = []) :
    ∃ route, msg.nlDispatch ifname = some route ∧ route.protocol = msg.protocol ∧
      ∀ id, [(route.row id).seen] = msg.hostRows ifname := by
  obtain ⟨hlen, htype⟩ := hhost
  refine ⟨_, by rw [RouteMessage.nlDispatch, if_neg (not_not.mpr hlen), if_neg (not_not.mpr htype)], rfl,
    fun id => ?_⟩
  rw [RouteMessage.hostRows, if_pos ⟨hlen, htype⟩, RouteMessage.hops, hmulti]
  rfl

theorem nlDispatch_seen {msg : RouteMessage} (h : msg.Told) :
    (((msg.nlDispatch ifname).map (·.row "")).map WatchRoute.seen).toList = msg.hostRows ifname := by
  by_cases hhost : msg.IsHost
  · obtain ⟨route, hroute, -, hrow⟩ := nlDispatch_told ifname hhost (h hhost)
    rw [hroute]
    exact hrow ""
  · rw [nlDispatch_other ifname hhost, RouteMessage.hostRows, if_neg hhost]
    rfl

/-- The route of the dump over one hop. -/
def RouteMessage.hopRoute (msg : RouteMessage) (hop : Option Ipv4Addr × Option UInt32) : KernelRoute where
  destination := (msg.dst.map fun dst => prefixText dst msg.dst_len).getD "0.0.0.0/0"
  gateway := (hop.1.map inetNtop).getD ""
  interfaceName := (hop.2.map ifname).getD ""
  interfaceIndex := hop.2.getD 0
  metric := msg.priority.getD 0
  prefixLen := msg.dst_len
  protocol := msg.protocol
  type := msg.type
  table := msg.table.getD msg.table8.toUInt32
  scope := msg.scope
  family := AF_INET

/-- The dump has a route for each hop. -/
theorem listRoutes_hops (msg : RouteMessage) :
    msg.listRoutes ifname = msg.hops.map (msg.hopRoute ifname) := by
  rw [RouteMessage.listRoutes, RouteMessage.hops]
  cases hmulti : msg.multipath with
  | nil => rfl
  | cons nh nexthops =>
    rw [List.map_map]
    rfl

/-- Only a gateway `0.0.0.0` and a missing destination are read differently. -/
theorem hopRoute_seen {msg : RouteMessage} (hdst : msg.dst ≠ none) {hop : Option Ipv4Addr × Option UInt32}
    (hgw : hop.1 ≠ some anyAddr) (id : String) :
    ((msg.hopRoute ifname hop).row id).seen = msg.hopRow ifname hop := by
  obtain ⟨dst, hdst⟩ := Option.ne_none_iff_exists'.mp hdst
  have hgwText : (hop.1.map inetNtop).getD "" =
      if hop.1.getD anyAddr = anyAddr then "" else inetNtop (hop.1.getD anyAddr) := by
    cases hg : hop.1 with
    | none => rfl
    | some gw => exact (if_neg fun heq => hgw (hg.trans (congrArg some heq))).symm
  simp only [KernelRoute.row, RouteMessage.hopRoute, WatchRoute.seen, RouteMessage.hopRow, hdst, hgwText,
    Option.map_some, Option.getD_some]

/-- What a dump keeps of the routes of a message, as rows. -/
theorem listRoutes_seen {msg : RouteMessage} (hhost : msg.IsHost) (h : msg.Readable) :
    (msg.listRoutes ifname).map (fun kr => (kr.row "").seen) = msg.hostRows ifname := by
  obtain ⟨hdst, hgws⟩ := h hhost
  rw [listRoutes_hops, List.map_map, RouteMessage.hostRows, if_pos hhost]
  exact List.map_congr_left fun hop hhop => hopRoute_seen ifname hdst (hgws hop hhop) ""

theorem listRoutes_header {msg : RouteMessage} {kr : KernelRoute} (h : kr ∈ msg.listRoutes ifname) :
    kr.prefixLen = msg.dst_len ∧ kr.type = msg.type ∧ kr.protocol = msg.protocol := by
  rw [listRoutes_hops] at h
  obtain ⟨hop, -, rfl⟩ := List.mem_map.mp h
  exact ⟨rfl, rfl, rfl⟩

theorem startupRows_seen {msg : RouteMessage} (h : msg.Readable) :
    (msg.startupRows ifname).map WatchRoute.seen = msg.hostRows ifname := by
  rw [RouteMessage.startupRows, List.map_map]
  by_cases hhost : msg.IsHost
  · have hall : (msg.listRoutes ifname).filter (fun kr => kr.prefixLen = 32 && kr.type = RTN_UNICAST) =
        msg.listRoutes ifname := by
      refine List.filter_eq_self.mpr fun kr hkr => ?_
      obtain ⟨hlen, htype, -⟩ := listRoutes_header ifname hkr
      rw [hlen, htype]
      simpa [RouteMessage.IsHost] using hhost
    rw [hall]
    exact listRoutes_seen ifname hhost h
  · have hnil : (msg.listRoutes ifname).filter (fun kr => kr.prefixLen = 32 && kr.type = RTN_UNICAST) = [] := by
      refine List.filter_eq_nil_iff.mpr fun kr hkr => ?_
      obtain ⟨hlen, htype, -⟩ := listRoutes_header ifname hkr
      rw [hlen, htype]
      simpa [RouteMessage.IsHost] using hhost
    rw [hnil, RouteMessage.hostRows, if_neg hhost]
    rfl

def routeReader : RowReader RouteMessage WatchRoute.key where
  rowsOf := fun msg => msg.hostRows ifname
  live := fun msg => (msg.nlDispatch ifname).map (·.row "")
  dump := fun msg => msg.startupRows ifname
  seen := WatchRoute.seen
  told := RouteMessage.Told
  dumpable := RouteMessage.Readable
  key_seen := fun _ => rfl
  told_seen := fun _ h => nlDispatch_seen ifname h
  dump_seen := fun _ h => startupRows_seen ifname h

/-- The live socket's callback on the message of a notice. -/
def onRoute (n : Notice RouteMessage) (routes : WatchRoutes) : WatchRoutes :=
  match n.obj.nlDispatch ifname with
  | none => routes
  | some route => startupRouteLiveCb (eventOf n) route routes

theorem onRoute_eq (n : Notice RouteMessage) (routes : WatchRoutes) :
    onRoute ifname n routes = (routeReader ifname).apply n routes := by
  have hlive : (routeReader ifname).live n.obj = (n.obj.nlDispatch ifname).map (·.row "") := rfl
  rw [apply_eq_update, onRoute, hlive]
  cases n.obj.nlDispatch ifname <;> rfl

/-- `startupRouteCtx`. -/
def startupRoutes : Follower RouteMessage String WatchRoute WatchRoutes Unit Unit :=
  { (routeReader ifname).follower with
    live := fun _ => onRoute ifname
    contents_live := fun _ n routes => by
      rw [onRoute_eq]
      exact (routeReader ifname).seenBy_apply n routes }

/-! ### Neighbors and nexthop objects -/

def neighReader : RowReader NetlinkNeigh NeighEntry.key where
  rowsOf := fun n => [n.entry]
  live := fun n => some n.entry
  dump := fun n => [n.entry]
  seen := id
  told := fun _ => True
  dumpable := fun _ => True
  key_seen := fun _ => rfl
  told_seen := fun _ _ => rfl
  dump_seen := fun _ _ => rfl

/-- `startupNeighCtx`. -/
def startupNeighbors : Follower NetlinkNeigh String NeighEntry Neighbors Unit Unit :=
  { neighReader.follower with
    fill := fun _ ns => ns.foldl (fun neighbors n => nlNeighUpdate .ADDED n neighbors) .empty
    live := fun _ n => nlNeighUpdate (eventOf n) n.obj
    contents_live := fun _ n neighbors =>
      (congrArg (Keyed.seenBy id) (apply_eq_update neighReader n neighbors).symm).trans
        (neighReader.seenBy_apply n neighbors)
    fill_shows := fun _ ns hd h => by
      have hfill := neighReader.fill_shows hd h
      rw [Keyed.putAll, List.foldl_flatMap] at hfill
      exact hfill }

def nexthopReader : RowReader NetlinkNexthop NexthopEntry.id where
  rowsOf := fun nh => [nh.entry]
  live := fun nh => some nh.entry
  dump := fun nh => [nh.entry]
  seen := id
  told := fun _ => True
  dumpable := fun _ => True
  key_seen := fun _ => rfl
  told_seen := fun _ _ => rfl
  dump_seen := fun _ _ => rfl

/-- `startupNhCtx`. -/
def startupNexthops : Follower NetlinkNexthop UInt32 NexthopEntry Nexthops Unit Unit :=
  { nexthopReader.follower with
    fill := fun _ nhs => nhs.foldl (fun nexthops nh => nlNexthopUpdate .ADDED nh nexthops) .empty
    live := fun _ n => nlNexthopUpdate (eventOf n) n.obj
    contents_live := fun _ n nexthops =>
      (congrArg (Keyed.seenBy id) (apply_eq_update nexthopReader n nexthops).symm).trans
        (nexthopReader.seenBy_apply n nexthops)
    fill_shows := fun _ nhs hd h => by
      have hfill := nexthopReader.fill_shows hd h
      rw [Keyed.putAll, List.foldl_flatMap] at hfill
      exact hfill }

/-! ### The OSPF routes of `cmdNetlinkWatch` -/

/-- The routes of the dump that are kept. -/
def RouteMessage.watchRoutes (msg : RouteMessage) : List KernelRoute :=
  (msg.listRoutes ifname).filter fun kr =>
    kr.prefixLen = 32 && kr.protocol = RTPROT_OSPF && kr.type = RTN_UNICAST

/-- Step 1 of `cmdNetlinkWatch`: `ids i` is the id that the server gives to the `i`-th route, empty where
it does not add it. -/
def watchFill (ids : ℕ → String) (msgs : List RouteMessage) : WatchRoutes :=
  Keyed.empty.putAll
    ((msgs.flatMap (·.watchRoutes ifname)).zipIdx.map fun kri => kri.1.row (ids kri.2))

/-- The callback on the message of a notice. -/
def onWatch (answers : Answers) (n : Notice RouteMessage) (routes : WatchRoutes) : WatchRoutes :=
  match n.obj.nlDispatch ifname with
  | none => routes
  | some route => (nlWatchCb answers routes (eventOf n) route).1

/-- The rows that the table should have of a route of the kernel. -/
def RouteMessage.ospfRows (msg : RouteMessage) : List WatchRoute :=
  if msg.protocol = RTPROT_OSPF then msg.hostRows ifname else []

/-- The row that is seen in a notice about a route. -/
def RouteMessage.watchRow (msg : RouteMessage) : Option WatchRoute :=
  match msg.nlDispatch ifname with
  | none => none
  | some route => if mapRtProtocol route.protocol = .OSPF then some (route.row "").seen else none

/-- A notice can tell an OSPF host route without `RTA_MULTIPATH`. -/
def RouteMessage.WatchTold (msg : RouteMessage) : Prop := msg.protocol = RTPROT_OSPF → msg.Told

/-- Without the rows of a destination. -/
def dropDest (dest : String) (T : Table String WatchRoute) : Table String WatchRoute :=
  fun k => (T k).filter fun row => !decide (row.dest = dest)

def watchEffect (n : Notice RouteMessage) (T : Table String WatchRoute) : Table String WatchRoute :=
  match n with
  | .added msg => putRow WatchRoute.key (msg.watchRow ifname) T
  | .changed msg =>
    match msg.watchRow ifname with
    | none => T
    | some row => putRow WatchRoute.key (some row) (dropDest row.dest T)
  | .removed msg => dropRow WatchRoute.key (msg.watchRow ifname) T

/-- The route that a notice is about is told, and a replaced one is still an OSPF route to its destination,
and the only one. -/
def KeepsDest (msgs : List RouteMessage) : ObjChange RouteMessage → Prop
  | .replace old new => new.WatchTold ∧
    (∀ u ∈ old.ospfRows ifname, ∃ v ∈ new.ospfRows ifname, v.dest = u.dest) ∧
    ∀ v ∈ new.ospfRows ifname, ∀ msg ∈ msgs, ∀ u ∈ msg.ospfRows ifname, u.dest = v.dest → msg = old
  | .add msg | .remove msg => msg.WatchTold

theorem mapRtProtocol_ospf {p : UInt8} : mapRtProtocol p = .OSPF ↔ p = RTPROT_OSPF := by
  unfold mapRtProtocol
  refine ⟨fun h => ?_, fun h => if_pos h⟩
  by_contra hne
  rw [if_neg hne] at h
  split_ifs at h

theorem key_seen (row : WatchRoute) : row.seen.key = row.key := rfl

theorem seenBy_eraseDest (routes : WatchRoutes) (dest : String) :
    (routes.eraseIf fun r => decide (r.dest = dest)).seenBy WatchRoute.seen =
      dropDest dest (routes.seenBy WatchRoute.seen) := by
  funext k
  have h := Keyed.contents_eraseIf routes (fun r => decide (r.dest = dest)) k
  show ((routes.eraseIf _).contents k).map WatchRoute.seen =
    ((routes.contents k).map WatchRoute.seen).filter _
  rw [h]
  cases routes.contents k with
  | none => rfl
  | some row =>
    by_cases hd : row.dest = dest <;> simp [Option.filter, hd, WatchRoute.seen]

theorem watchEffect_none {n : Notice RouteMessage} (h : n.obj.watchRow ifname = none)
    (T : Table String WatchRoute) : watchEffect ifname n T = T := by
  cases n with
  | added msg =>
    rw [watchEffect, show msg.watchRow ifname = none from h]
    rfl
  | changed msg => rw [watchEffect, show msg.watchRow ifname = none from h]
  | removed msg =>
    rw [watchEffect, show msg.watchRow ifname = none from h]
    rfl

/-- Removing a route that is not in the table changes nothing. -/
theorem dropRow_of_find_none {routes : WatchRoutes} {row : WatchRoute}
    (h : routes.find row.key = none) :
    dropRow WatchRoute.key (some row.seen) (routes.seenBy WatchRoute.seen) =
      routes.seenBy WatchRoute.seen := by
  have hnone : routes.seenBy WatchRoute.seen row.seen.key = none := by
    show (routes.find row.key).map _ = none
    rw [h]
    rfl
  rw [dropRow, ← hnone]
  exact Function.update_eq_self _ _

theorem contents_onWatch (answers : Answers) (n : Notice RouteMessage) (routes : WatchRoutes) :
    (onWatch ifname answers n routes).seenBy WatchRoute.seen =
      watchEffect ifname n (routes.seenBy WatchRoute.seen) := by
  cases hd : n.obj.nlDispatch ifname with
  | none =>
    have hrow : n.obj.watchRow ifname = none := by rw [RouteMessage.watchRow, hd]
    rw [watchEffect_none ifname hrow, onWatch, hd]
  | some route =>
    rw [onWatch, hd]
    dsimp only
    by_cases hospf : mapRtProtocol route.protocol = .OSPF
    · have hrow : n.obj.watchRow ifname = some (route.row "").seen := by
        rw [RouteMessage.watchRow, hd]
        exact if_pos hospf
      rw [nlWatchCb, if_pos hospf]
      cases n with
      | added msg =>
        rw [watchEffect, show msg.watchRow ifname = _ from hrow]
        exact Keyed.seenBy_put key_seen routes (route.row (answers.added.getD ""))
      | changed msg =>
        rw [watchEffect, show msg.watchRow ifname = _ from hrow]
        have hput := Keyed.seenBy_put key_seen
          (routes.eraseIf fun r => decide (r.dest = route.destText)) (route.row (answers.added.getD ""))
        rw [seenBy_eraseDest] at hput
        exact hput
      | removed msg =>
        rw [watchEffect, show msg.watchRow ifname = _ from hrow]
        have hkey : (route.row (answers.added.getD "")).key = (route.row "").key := rfl
        dsimp only [eventOf]
        rw [hkey]
        cases hfind : routes.find (route.row "").key with
        | none => exact (dropRow_of_find_none hfind).symm
        | some r => exact Keyed.seenBy_erase key_seen routes (route.row "")
    · have hrow : n.obj.watchRow ifname = none := by
        rw [RouteMessage.watchRow, hd]
        exact if_neg hospf
      rw [watchEffect_none ifname hrow, nlWatchCb, if_neg hospf]

/-- A notice about a route that is told has its row in it. -/
theorem watchRow_told {msg : RouteMessage} (h : msg.WatchTold) :
    (msg.watchRow ifname).toList = msg.ospfRows ifname := by
  unfold RouteMessage.watchRow RouteMessage.ospfRows
  by_cases hhost : msg.IsHost
  swap
  · rw [nlDispatch_other ifname hhost, RouteMessage.hostRows, if_neg hhost, ite_self]
    rfl
  by_cases hospf : msg.protocol = RTPROT_OSPF
  · obtain ⟨route, hroute, hproto, hrow⟩ := nlDispatch_told ifname hhost (h hospf hhost)
    rw [hroute, if_pos hospf]
    dsimp only
    rw [if_pos (mapRtProtocol_ospf.mpr (hproto.trans hospf))]
    exact hrow ""
  · rw [if_neg hospf]
    cases hroute : msg.nlDispatch ifname with
    | none => rfl
    | some route =>
      have hproto : route.protocol = msg.protocol := by
        rw [RouteMessage.nlDispatch] at hroute
        split_ifs at hroute
        exact (Option.some.inj hroute) ▸ rfl
      dsimp only
      rw [if_neg fun h => hospf (hproto ▸ mapRtProtocol_ospf.mp h)]
      rfl

/-- A kept OSPF route is one that a dump can read. -/
def RouteMessage.WatchReadable (msg : RouteMessage) : Prop :=
  msg.protocol = RTPROT_OSPF → msg.Readable

theorem watchRoutes_seen {msg : RouteMessage} (h : msg.WatchReadable) :
    (msg.watchRoutes ifname).map (fun kr => (kr.row "").seen) = msg.ospfRows ifname := by
  rw [RouteMessage.watchRoutes, RouteMessage.ospfRows]
  by_cases hkept : msg.IsHost ∧ msg.protocol = RTPROT_OSPF
  · obtain ⟨hhost, hospf⟩ := hkept
    have hall : (msg.listRoutes ifname).filter (fun kr =>
        kr.prefixLen = 32 && kr.protocol = RTPROT_OSPF && kr.type = RTN_UNICAST) = msg.listRoutes ifname := by
      refine List.filter_eq_self.mpr fun kr hkr => ?_
      obtain ⟨hlen, htype, hproto⟩ := listRoutes_header ifname hkr
      rw [hlen, htype, hproto]
      simpa [hospf, RouteMessage.IsHost] using hhost
    rw [hall, if_pos hospf]
    exact listRoutes_seen ifname hhost (h hospf)
  · have hnil : (msg.listRoutes ifname).filter (fun kr =>
        kr.prefixLen = 32 && kr.protocol = RTPROT_OSPF && kr.type = RTN_UNICAST) = [] := by
      refine List.filter_eq_nil_iff.mpr fun kr hkr => ?_
      obtain ⟨hlen, htype, hproto⟩ := listRoutes_header ifname hkr
      rw [hlen, htype, hproto]
      simpa [RouteMessage.IsHost, and_right_comm] using hkept
    rw [hnil]
    split_ifs with hospf
    · rw [RouteMessage.hostRows, if_neg fun hhost => hkept ⟨hhost, hospf⟩]
      rfl
    · rfl

theorem watchFill_shows (ids : ℕ → String) {msgs : List RouteMessage}
    (hd : DistinctKeys WatchRoute.key (msgs.flatMap (·.ospfRows ifname)))
    (h : ∀ msg ∈ msgs, msg.WatchReadable) :
    Shows WatchRoute.key ((watchFill ifname ids msgs).seenBy WatchRoute.seen)
      (msgs.flatMap (·.ospfRows ifname)) := by
  have hmap : ((msgs.flatMap (·.watchRoutes ifname)).zipIdx.map
      fun kri => kri.1.row (ids kri.2)).map WatchRoute.seen = msgs.flatMap (·.ospfRows ifname) := by
    have hid : WatchRoute.seen ∘ (fun kri : KernelRoute × ℕ => kri.1.row (ids kri.2)) =
        (fun kr => (kr.row "").seen) ∘ Prod.fst := rfl
    rw [List.map_map, hid, ← List.map_map, List.zipIdx_map_fst, List.map_flatMap]
    exact List.flatMap_congr fun msg hmsg => watchRoutes_seen ifname (h msg hmsg)
  rw [← hmap] at hd ⊢
  exact Keyed.putAll_shows key_seen hd

/-- Without the rows of its destination the table is without the rows of the old route. -/
theorem dropDest_shows {msgs : List RouteMessage} {T : Table String WatchRoute} {old new : RouteMessage}
    {row : WatchRoute} (h : Shows WatchRoute.key T (msgs.flatMap (·.ospfRows ifname)))
    (hd : DistinctKeys WatchRoute.key (msgs.flatMap (·.ospfRows ifname))) (hold : old ∈ msgs)
    (hkeeps : KeepsDest ifname msgs (.replace old new)) (hrow : new.ospfRows ifname = [row]) :
    Shows WatchRoute.key (dropDest row.dest T) ((msgs.erase old).flatMap (·.ospfRows ifname)) := by
  obtain ⟨-, hdest, honly⟩ := hkeeps
  rw [hrow] at hdest honly
  have hperm := rows_perm_erase (·.ospfRows ifname) hold
  refine (h.filter fun r => !decide (r.dest = row.dest)).congr fun v => ?_
  rw [List.mem_filter, hperm.mem_iff, List.mem_append, Bool.not_eq_true', decide_eq_false_iff_not]
  refine ⟨fun ⟨hor, hne⟩ => hor.resolve_left fun hv => ?_, fun hv => ⟨.inr hv, fun heq => ?_⟩⟩
  · obtain ⟨w, hw, hwv⟩ := hdest v hv
    obtain rfl := List.mem_singleton.mp hw
    exact hne hwv.symm
  · -- the other routes have no row of the destination
    obtain ⟨msg, hmsg, hvmsg⟩ := List.mem_flatMap.mp hv
    obtain rfl := honly row (List.mem_singleton_self row) msg (List.mem_of_mem_erase hmsg) v hvmsg heq
    have hnodup := hd.perm hperm
    rw [DistinctKeys, List.map_append, List.nodup_append] at hnodup
    exact hnodup.2.2 _ (List.mem_map_of_mem hvmsg) _ (List.mem_map_of_mem hv) rfl

theorem watchEffect_shows {msgs msgs' : List RouteMessage} {c : ObjChange RouteMessage}
    {T : Table String WatchRoute}
    (hd : DistinctKeys WatchRoute.key (msgs.flatMap (·.ospfRows ifname)))
    (hkeeps : KeepsDest ifname msgs c) (hc : c.apply msgs = some msgs')
    (hd' : DistinctKeys WatchRoute.key (msgs'.flatMap (·.ospfRows ifname)))
    (h : Shows WatchRoute.key T (msgs.flatMap (·.ospfRows ifname))) :
    Shows WatchRoute.key (watchEffect ifname c.notice T) (msgs'.flatMap (·.ospfRows ifname)) := by
  have hnone : ∀ u ∈ ([] : List WatchRoute), ∀ row : Option WatchRoute, ∃ v ∈ row, v.key = u.key :=
    fun u hu => absurd hu List.not_mem_nil
  obtain ⟨msg, rfl, rfl⟩ | ⟨old, new, rfl, hold, rfl⟩ | ⟨msg, rfl, hmsg, rfl⟩ :=
    ObjChange.apply_cases hc
  · have hrow := watchRow_told ifname hkeeps
    rw [List.flatMap_cons, ← hrow] at hd' ⊢
    have h : Shows WatchRoute.key T ([] ++ msgs.flatMap (·.ospfRows ifname)) := h
    exact h.putRow (fun u hu => hnone u hu _) hd'
  · have hrow := watchRow_told ifname hkeeps.1
    show Shows WatchRoute.key (watchEffect ifname (.changed new) T) _
    rw [List.flatMap_cons] at hd' ⊢
    cases hseen : new.watchRow ifname with
    | none =>
      have hnew : new.ospfRows ifname = [] := by rw [← hrow, hseen, Option.toList_none]
      have holdRows : old.ospfRows ifname = [] := by
        refine List.eq_nil_iff_forall_not_mem.mpr fun u hu => ?_
        obtain ⟨v, hv, -⟩ := hkeeps.2.1 u hu
        rw [hnew] at hv
        exact absurd hv List.not_mem_nil
      have hperm := rows_perm_erase (·.ospfRows ifname) hold
      rw [watchEffect, hseen, hnew, ← holdRows]
      exact h.congr fun v => hperm.mem_iff
    | some row =>
      have hnew : new.ospfRows ifname = (some row).toList := by rw [← hrow, hseen]
      have hdrop := dropDest_shows ifname h hd hold hkeeps hnew
      rw [hnew] at hd' ⊢
      rw [watchEffect, hseen]
      have hdrop : Shows WatchRoute.key _ ([] ++ (msgs.erase old).flatMap (·.ospfRows ifname)) := hdrop
      exact hdrop.putRow (fun u hu => hnone u hu _) hd'
  · have hrow := watchRow_told ifname hkeeps
    have hperm := rows_perm_erase (·.ospfRows ifname) hmsg
    rw [← hrow] at hperm
    exact (h.congr fun v => hperm.mem_iff).dropRow (hd.perm hperm)

/-- The table of `cmdNetlinkWatch`. -/
def netlinkWatch : Follower RouteMessage String WatchRoute WatchRoutes (ℕ → String) Answers where
  key := WatchRoute.key
  rowsOf := fun msg => msg.ospfRows ifname
  contents := Keyed.seenBy WatchRoute.seen
  fill := watchFill ifname
  live := onWatch ifname
  effect := watchEffect ifname
  dumpable := RouteMessage.WatchReadable
  tame := KeepsDest ifname
  contents_live := contents_onWatch ifname
  fill_shows := fun ids _ hd h => watchFill_shows ifname ids hd h
  effect_shows := fun _ _ _ _ hd hk hc hd' h => watchEffect_shows ifname hd hk hc hd' h

end Rtsrv.Client
