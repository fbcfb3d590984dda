import Rtsrv.Config.Sot
import Rtsrv.Server.Service

/-!
# Rtsrv.Server.Provisioning — what a switch learns of the source of truth (`server/src/service_impl.cpp`)

`GetLoopbacks`, `RequestLoopback` and `GetAllRoutes` take the caller's address from the peer string, look
for the node that is registered under it and answer from that node alone.
-/

namespace Rtsrv.Server

open Config Config.Srmd Lib Json

/-! ### The caller -/

/-- `std::string::rfind` of one character. -/
def rfind (s : List Char) (c : Char) : Option ℕ := (s.reverse.idxOf? c).map fun i => s.length - 1 - i

def extractClientIp (peer : String) : String :=
  let chars := peer.toList
  if 5 < chars.length ∧ chars.take 5 = "ipv4:".toList then
    let rest := chars.drop 5
    match rfind rest ':' with
    | some colon => String.ofList (rest.take colon)
    | none => String.ofList rest
  else if 5 < chars.length ∧ chars.take 5 = "ipv6:".toList then
    let rest := chars.drop 5
    if rest.head? = some '[' then
      match rest.idxOf? ']' with
      | some last => String.ofList ((rest.drop 1).take (last - 1))
      | none => peer
    else peer
  else peer

theorem rfind_append {s t : List Char} {c : Char} (h : c ∉ t) : rfind (s ++ c :: t) c = some s.length := by
  have hidx : (t.reverse ++ c :: s.reverse).idxOf? c = some t.length := by
    rw [List.idxOf?_eq_some_iff]
    refine ⟨by simp, by simp, fun j hj => ?_⟩
    have hj' : j < t.reverse.length := by simpa using hj
    rw [List.getElem_append_left hj']
    intro heq
    exact h (List.mem_reverse.mp (List.mem_of_getElem heq))
  rw [rfind, List.reverse_append, List.reverse_cons, List.append_assoc, List.singleton_append, hidx,
    Option.map_some, List.length_append, List.length_cons]
  congr 1
  omega

theorem idxOf?_append {s t : List Char} {c : Char} (h : c ∉ s) : (s ++ c :: t).idxOf? c = some s.length := by
  rw [List.idxOf?_eq_some_iff]
  refine ⟨by simp, by simp, fun j hj => ?_⟩
  rw [List.getElem_append_left hj]
  intro heq
  exact h (List.mem_of_getElem heq)

theorem drop_behind (a b : List Char) (c : Char) : (a ++ c :: b).drop (a.length + 1) = b := by
  rw [← List.drop_drop, List.drop_left]
  rfl

theorem extractClientIp_ipv4 (addr : List Char) {port : List Char} (hport : ':' ∉ port) :
    extractClientIp (String.ofList ("ipv4:".toList ++ (addr ++ ':' :: port))) = String.ofList addr := by
  have hlen : 5 < ("ipv4:".toList ++ (addr ++ ':' :: port)).length := by
    rw [List.length_append, List.length_append, List.length_cons]
    show 5 < 5 + _
    omega
  simp only [extractClientIp, String.toList_ofList]
  rw [if_pos ⟨hlen, rfl⟩]
  show (match rfind (addr ++ ':' :: port) ':' with
    | some colon => String.ofList ((addr ++ ':' :: port).take colon)
    | none => String.ofList (addr ++ ':' :: port)) = _
  rw [rfind_append hport]
  show String.ofList (List.take _ _) = _
  rw [List.take_left]

theorem extractClientIp_ipv6 {addr : List Char} (rest : List Char) (haddr : ']' ∉ addr) :
    extractClientIp (String.ofList ("ipv6:[".toList ++ (addr ++ ']' :: rest))) = String.ofList addr := by
  have hlen : 5 < ("ipv6:[".toList ++ (addr ++ ']' :: rest)).length := by
    rw [List.length_append, List.length_append, List.length_cons]
    show 5 < 6 + _
    omega
  have hscheme : ("ipv6:[".toList ++ (addr ++ ']' :: rest)).take 5 = "ipv6:".toList := rfl
  simp only [extractClientIp, String.toList_ofList]
  rw [if_neg fun h => absurd (hscheme.symm.trans h.2) (by decide), if_pos ⟨hlen, hscheme⟩]
  show (match ('[' :: addr ++ ']' :: rest).idxOf? ']' with
    | some last => String.ofList ((addr ++ ']' :: rest).take (last - 1))
    | none => _) = _
  rw [idxOf?_append (by simpa using haddr)]
  show String.ofList (List.take _ _) = _
  rw [List.length_cons, Nat.add_sub_cancel, List.take_left]
/-! ### Messages -/

/-- What an RPC returns beside its response. -/
inductive GrpcStatus where
  | OK
  | PERMISSION_DENIED (message : String)
  deriving DecidableEq, Repr

structure LoopbackPrefix where
  prefix_ : String
  weight : UInt32
  role : String
  description : String
  deriving DecidableEq, Repr

structure LoopbackInterface where
  name : String
  type : String
  local_address : String
  nexthop : String
  weight : UInt32
  description : String
  prefixes : List LoopbackPrefix
  deriving DecidableEq, Repr

structure GetLoopbacksResponse where
  code : StatusCode
  message : String
  interfaces : List LoopbackInterface
  deriving DecidableEq, Repr

structure RequestLoopbackResponse where
  code : StatusCode
  message : String
  loopback : String
  deriving DecidableEq, Repr

structure VrfRoute where
  vrf_name : String
  interface_name : String
  interface_type : String
  local_address : String
  nexthop : String
  weight : UInt32
  description : String
  prefixes : List LoopbackPrefix
  deriving DecidableEq, Repr

structure GetAllRoutesResponse where
  code : StatusCode
  message : String
  hostname : String
  loopback_ipv4 : String
  routes : List VrfRoute
  deriving DecidableEq, Repr

/-! ### The handlers -/

namespace Service

/-- The body of the loops over prefixes, in `GetLoopbacks` and in `GetAllRoutes`. -/
def pbPrefix (pfx : SotPrefix) : LoopbackPrefix where
  prefix_ := pfx.prefix_
  weight := pfx.weight
  role := pfx.role
  description := pfx.description

/-- The body of the loop in `GetLoopbacks`. -/
def pbInterface (iface : SotInterface) : LoopbackInterface where
  name := iface.name
  type := iface.type
  local_address := iface.local_address
  nexthop := iface.nexthop
  weight := iface.weight
  description := iface.description
  prefixes := iface.prefixes.map pbPrefix

/-- The body of the inner loop in `GetAllRoutes`. -/
def pbRoute (vrf : SotVrf) (iface : SotInterface) : VrfRoute where
  vrf_name := vrf.name
  interface_name := iface.name
  interface_type := iface.type
  local_address := iface.local_address
  nexthop := iface.nexthop
  weight := iface.weight
  description := iface.description
  prefixes := iface.prefixes.map pbPrefix

def getLoopbacks (sotConfig : SotConfig SotVrf) (peer requestedLb : String) :
    GrpcStatus × GetLoopbacksResponse :=
  let clientIp := extractClientIp peer
  match sotConfig.findByManagementIp clientIp with
  | none =>
    (.OK, ⟨.PERMISSION_DENIED, "Access denied: IP '" ++ clientIp ++ "' is not registered in the SOT", []⟩)
  | some node =>
    let isIpv4Match := decide (node.loopbacks.ipv4 = requestedLb)
    let isIpv6Match := decide (node.loopbacks.ipv6 = requestedLb)
    if !isIpv4Match && !isIpv6Match then
      (.OK, ⟨.NOT_FOUND, "Loopback '" ++ requestedLb ++ "' does not match node '" ++ node.hostname ++
        "' (ipv4='" ++ node.loopbacks.ipv4 ++ "' ipv6='" ++ node.loopbacks.ipv6 ++ "')", []⟩)
    else
      match findVrf node "default" with
      | none => (.OK, ⟨.NOT_FOUND, "VRF 'default' not found for node '" ++ node.hostname ++ "'", []⟩)
      | some defaultVrf =>
        let interfaces :=
          if isIpv4Match then defaultVrf.ipv4.interfaces else defaultVrf.ipv6.interfaces
        (.OK, ⟨.OK, "OK: node '" ++ node.hostname ++ "' loopback '" ++ requestedLb ++ "' (" ++
          (if isIpv4Match then "ipv4" else "ipv6") ++ ") – " ++ toString interfaces.length ++
          " interface(s)", interfaces.map pbInterface⟩)

def requestLoopback (sotConfig : SotConfig SotVrf) (peer : String) :
    GrpcStatus × RequestLoopbackResponse :=
  let clientIp := extractClientIp peer
  match sotConfig.findByManagementIp clientIp with
  | none =>
    (.PERMISSION_DENIED ("SRA IP '" ++ clientIp ++ "' not in SOT nodes_by_loopback"),
      ⟨.PERMISSION_DENIED, "Client IP '" ++ clientIp ++
        "' is not registered in the SOT — connection rejected", ""⟩)
  | some node =>
    (.OK, ⟨.OK, "OK: node '" ++ node.hostname ++ "' (" ++ clientIp ++ ")", node.loopbacks.ipv4⟩)

def getAllRoutes (sotConfig : SotConfig SotVrf) (peer : String) : GrpcStatus × GetAllRoutesResponse :=
  let clientIp := extractClientIp peer
  match sotConfig.findByManagementIp clientIp with
  | none =>
    (.OK, ⟨.NOT_FOUND, "Client IP '" ++ clientIp ++ "' is not registered in the SOT", "", "", []⟩)
  | some node =>
    let routes := node.vrfs.flatMap fun vrf => vrf.ipv4.interfaces.map (pbRoute vrf)
    (.OK, ⟨.OK, "OK: node '" ++ node.hostname ++ "' loopback '" ++ node.loopbacks.ipv4 ++ "' — " ++
      toString routes.length ++ " VRF interface(s)", node.hostname, node.loopbacks.ipv4, routes⟩)

end Service

/-! ### Registered callers -/

/-- The caller is registered with this node. -/
def Registered (cfg : SotConfig SotVrf) (peer : String) (node : SotNode SotVrf) : Prop :=
  node ∈ cfg.nodes ∧ node.management_ip = extractClientIp peer

/-- The VRF of the node that is named `default`. -/
def DefaultVrf (node : SotNode SotVrf) (vrf : SotVrf) : Prop := vrf ∈ node.vrfs ∧ vrf.name = "default"

section Loaded

variable {files : Files} {path : String} {cfg : SotConfig SotVrf}

theorem parseVrf_name {vrfName nodeCtx : String} {obj : Object} {vrf : SotVrf}
    (h : parseVrf vrfName obj nodeCtx = .ok vrf) : vrf.name = vrfName := by
  simp only [parseVrf, except_bind_ok, except_pure_ok] at h
  obtain ⟨ipv4, -, ipv6, -, rfl⟩ := h
  rfl

theorem loadSotConfig_distinct (h : loadSotConfig files path = .ok cfg) :
    (cfg.nodes.map SotNode.management_ip).Nodup ∧
      ∀ node ∈ cfg.nodes, (node.vrfs.map SotVrf.name).Nodup := by
  obtain ⟨document, -, hload⟩ := loadConfig_ok.mp h
  exact loaded_distinct (fun _ _ _ _ hvrf => parseVrf_name hvrf) hload

theorem find_loaded {document : Document} (hdoc : readDocument files path = .ok document)
    (h : loadSotConfig files path = .ok cfg) (ip : String) :
    cfg.findByManagementIp ip = (entry document.root ip).bind (nodeAt parseVrf ip) :=
  findByManagementIp_loaded (loadConfig_document hdoc h) ip

theorem findByManagementIp_eq_some (h : loadSotConfig files path = .ok cfg) {peer : String}
    {node : SotNode SotVrf} :
    cfg.findByManagementIp (extractClientIp peer) = some node ↔ Registered cfg peer node :=
  Keyed.find_eq_some (m := ⟨cfg.nodes, (loadSotConfig_distinct h).1⟩)

theorem findVrf_eq_some {node : SotNode SotVrf} (hnodup : (node.vrfs.map SotVrf.name).Nodup)
    {vrf : SotVrf} : findVrf node "default" = some vrf ↔ DefaultVrf node vrf :=
  Keyed.find_eq_some (m := ⟨node.vrfs, hnodup⟩)

end Loaded

/-! ### A switch learns of its own node only -/

/-- **The three answers depend on the caller's own entry of the document alone**, and without such an
entry they hold no loopback, no interface and no prefix. -/
theorem own_entry_only {files files' : Files} {path path' : String} {document document' : Document}
    {cfg cfg' : SotConfig SotVrf} (hdoc : readDocument files path = .ok document)
    (hload : loadSotConfig files path = .ok cfg) (hdoc' : readDocument files' path' = .ok document')
    (hload' : loadSotConfig files' path' = .ok cfg') {peer : String}
    (hentry : entry document.root (extractClientIp peer) = entry document'.root (extractClientIp peer)) :
    (∀ requestedLb, Service.getLoopbacks cfg peer requestedLb = Service.getLoopbacks cfg' peer requestedLb) ∧
    Service.requestLoopback cfg peer = Service.requestLoopback cfg' peer ∧
    Service.getAllRoutes cfg peer = Service.getAllRoutes cfg' peer ∧
    (entry document.root (extractClientIp peer) = none →
      (∀ requestedLb, (Service.getLoopbacks cfg peer requestedLb).2.interfaces = []) ∧
      (Service.requestLoopback cfg peer).2.loopback = "" ∧
      (Service.getAllRoutes cfg peer).2.routes = [] ∧
      (Service.getAllRoutes cfg peer).2.loopback_ipv4 = "" ∧
      (Service.getAllRoutes cfg peer).2.hostname = "") := by
  have hsame : cfg.findByManagementIp (extractClientIp peer) =
      cfg'.findByManagementIp (extractClientIp peer) := by
    rw [find_loaded hdoc hload, find_loaded hdoc' hload', hentry]
  refine ⟨fun requestedLb => ?_, ?_, ?_, fun hnone => ?_⟩
  · simp only [Service.getLoopbacks, hsame]
  · simp only [Service.requestLoopback, hsame]
  · simp only [Service.getAllRoutes, hsame]
  · have hunregistered : cfg.findByManagementIp (extractClientIp peer) = none := by
      rw [find_loaded hdoc hload, hnone, Option.bind_none]
    simp only [Service.getLoopbacks, Service.requestLoopback, Service.getAllRoutes, hunregistered,
      implies_true, and_self]

/-- A second switch beside the sample, which it does not change anything for. -/
def otherDocument : Document :=
  ⟨.object [("nodes_by_loopback", .object [("10.0.0.9", sampleNode [] (.int64 1)),
    ("10.124.224.60", sampleNode [("ipv4", .string "1.1.1.1")] (.int64 5))])], by decide⟩

theorem own_entry_only_sample :
    ∃ cfg cfg', loadSotConfig (oneFile sampleDocument) "sot.json" = .ok cfg ∧
      loadSotConfig (oneFile otherDocument) "sot.json" = .ok cfg' ∧ cfg.nodes.length ≠ cfg'.nodes.length ∧
      Service.getAllRoutes cfg "ipv4:10.124.224.60:1" = Service.getAllRoutes cfg' "ipv4:10.124.224.60:1" :=
  ⟨_, _, rfl, rfl, by decide,
    (@own_entry_only (oneFile sampleDocument) (oneFile otherDocument) "sot.json" "sot.json" _ _ _ _
      rfl rfl rfl rfl _ rfl).2.2.1⟩

/-! ### The three answers agree -/

/-- A route of `GetAllRoutes` as `GetLoopbacks` gives its interface. -/
def VrfRoute.toInterface (route : VrfRoute) : LoopbackInterface where
  name := route.interface_name
  type := route.interface_type
  local_address := route.local_address
  nexthop := route.nexthop
  weight := route.weight
  description := route.description
  prefixes := route.prefixes

/-- The test of the handler: neither loopback is the requested one. -/
theorem unmatched_iff {node : SotNode SotVrf} {requestedLb : String} :
    (!decide (node.loopbacks.ipv4 = requestedLb) && !decide (node.loopbacks.ipv6 = requestedLb)) = true ↔
      ¬(node.loopbacks.ipv4 = requestedLb ∨ node.loopbacks.ipv6 = requestedLb) := by
  rw [Bool.and_eq_true, Bool.not_eq_true', Bool.not_eq_true', decide_eq_false_iff_not,
    decide_eq_false_iff_not, not_or]

theorem getLoopbacks_registered {cfg : SotConfig SotVrf} {peer requestedLb : String}
    {node : SotNode SotVrf} {vrf : SotVrf}
    (hnode : cfg.findByManagementIp (extractClientIp peer) = some node)
    (hvrf : findVrf node "default" = some vrf)
    (hlb : node.loopbacks.ipv4 = requestedLb ∨ node.loopbacks.ipv6 = requestedLb) :
    (Service.getLoopbacks cfg peer requestedLb).1 = .OK ∧
    (Service.getLoopbacks cfg peer requestedLb).2.code = .OK ∧
    (Service.getLoopbacks cfg peer requestedLb).2.interfaces =
      (if node.loopbacks.ipv4 = requestedLb then vrf.ipv4.interfaces
        else vrf.ipv6.interfaces).map Service.pbInterface := by
  have hmatch := mt unmatched_iff.mp (not_not.mpr hlb)
  simp only [Service.getLoopbacks, hnode, hvrf, if_neg hmatch, decide_eq_true_eq, and_self]

theorem getAllRoutes_registered {cfg : SotConfig SotVrf} {peer : String} {node : SotNode SotVrf}
    (hnode : cfg.findByManagementIp (extractClientIp peer) = some node) :
    (Service.getAllRoutes cfg peer).2.routes =
      node.vrfs.flatMap fun vrf => vrf.ipv4.interfaces.map (Service.pbRoute vrf) := by
  simp only [Service.getAllRoutes, hnode]

/-- The routes of one VRF among all of them. -/
theorem filter_routes {vrfs : List SotVrf} (hnodup : (vrfs.map SotVrf.name).Nodup) {vrf : SotVrf}
    (hvrf : vrf ∈ vrfs) :
    (vrfs.flatMap fun v => v.ipv4.interfaces.map (Service.pbRoute v)).filter
        (fun route => route.vrf_name = vrf.name) = vrf.ipv4.interfaces.map (Service.pbRoute vrf) := by
  have hfind : (⟨vrfs, hnodup⟩ : Keyed SotVrf.name).find vrf.name = some vrf :=
    Keyed.find_eq_some.mpr ⟨hvrf, rfl⟩
  have hsingle : vrfs.filter (fun v => v.name = vrf.name) = [vrf] := by
    have hfilter := Keyed.filter_key (⟨vrfs, hnodup⟩ : Keyed SotVrf.name) vrf.name
    rwa [hfind] at hfilter
  have hlabel : ∀ v : SotVrf, ∀ route ∈ v.ipv4.interfaces.map (Service.pbRoute v),
      route.vrf_name = v.name := by
    intro v route hroute
    obtain ⟨iface, -, rfl⟩ := List.mem_map.mp hroute
    rfl
  rw [filter_flatMap_label hlabel, hsingle, List.flatMap_singleton]

/-- **`GetLoopbacks` for the address that `RequestLoopback` gives returns what `GetAllRoutes` has under
the VRF `default`**, entry by entry. -/
theorem default_interfaces_agree {files : Files} {path : String} {cfg : SotConfig SotVrf}
    (h : loadSotConfig files path = .ok cfg) {peer : String} {node : SotNode SotVrf} {vrf : SotVrf}
    (hnode : Registered cfg peer node) (hvrf : DefaultVrf node vrf) :
    let reply := Service.getLoopbacks cfg peer (Service.requestLoopback cfg peer).2.loopback
    reply.1 = .OK ∧ reply.2.code = .OK ∧
      reply.2.interfaces =
        ((Service.getAllRoutes cfg peer).2.routes.filter fun route => route.vrf_name = "default").map
          VrfRoute.toInterface := by
  have hfind := (findByManagementIp_eq_some h).mpr hnode
  have hnodup := (loadSotConfig_distinct h).2 node hnode.1
  have hloopback : (Service.requestLoopback cfg peer).2.loopback = node.loopbacks.ipv4 := by
    simp only [Service.requestLoopback, hfind]
  rw [hloopback]
  obtain ⟨hstatus, hcode, hinterfaces⟩ :=
    getLoopbacks_registered hfind ((findVrf_eq_some hnodup).mpr hvrf) (.inl rfl)
  refine ⟨hstatus, hcode, ?_⟩
  rw [hinterfaces, if_pos rfl, getAllRoutes_registered hfind, ← hvrf.2, filter_routes hnodup hvrf.1,
    List.map_map]
  rfl

theorem default_interfaces_agree_sample :
    ∃ cfg node vrf, loadSotConfig (oneFile sampleDocument) "sot.json" = .ok cfg ∧
      Registered cfg "ipv4:10.124.224.60:1" node ∧ DefaultVrf node vrf ∧
      (Service.getLoopbacks cfg "ipv4:10.124.224.60:1"
        (Service.requestLoopback cfg "ipv4:10.124.224.60:1").2.loopback).2.code = .OK := by
  refine ⟨_, _, _, rfl, ⟨List.mem_singleton_self _, rfl⟩, ⟨List.mem_singleton_self _, rfl⟩, ?_⟩
  exact (@default_interfaces_agree (oneFile sampleDocument) "sot.json" _ rfl _ _ _
    ⟨List.mem_singleton_self _, rfl⟩ ⟨List.mem_singleton_self _, rfl⟩).2.1

/-! ### Unset loopbacks -/

/-- The request is answered when, and only when, the caller is registered, asks for a loopback that its
node has, and the node has the VRF `default`; the interfaces are of the family that was asked for. -/
def AnswersOwnLoopback (cfg : SotConfig SotVrf) (peer requestedLb : String) : Prop :=
  let reply := (Service.getLoopbacks cfg peer requestedLb).2
  (reply.code = .OK ↔ requestedLb ≠ "" ∧ ∃ node vrf, Registered cfg peer node ∧ DefaultVrf node vrf ∧
    (node.loopbacks.ipv4 = requestedLb ∨ node.loopbacks.ipv6 = requestedLb)) ∧
  (reply.code = .OK → ∃ node vrf, Registered cfg peer node ∧ DefaultVrf node vrf ∧
    (node.loopbacks.ipv4 = requestedLb ∧ reply.interfaces = vrf.ipv4.interfaces.map Service.pbInterface ∨
      node.loopbacks.ipv6 = requestedLb ∧ reply.interfaces = vrf.ipv6.interfaces.map Service.pbInterface))

/-- The caller's node has the VRF `default` and leaves a loopback unset. -/
def UnsetLoopback (cfg : SotConfig SotVrf) (peer : String) : Prop :=
  ∃ node vrf, Registered cfg peer node ∧ DefaultVrf node vrf ∧
    (node.loopbacks.ipv4 = "" ∨ node.loopbacks.ipv6 = "")

/-- When the code is `OK`. -/
theorem getLoopbacks_code {files : Files} {path : String} {cfg : SotConfig SotVrf}
    (h : loadSotConfig files path = .ok cfg) (peer requestedLb : String) :
    (Service.getLoopbacks cfg peer requestedLb).2.code = .OK ↔
      ∃ node vrf, Registered cfg peer node ∧ DefaultVrf node vrf ∧
        (node.loopbacks.ipv4 = requestedLb ∨ node.loopbacks.ipv6 = requestedLb) := by
  constructor
  · intro hok
    cases hfind : cfg.findByManagementIp (extractClientIp peer) with
    | none => simp [Service.getLoopbacks, hfind] at hok
    | some node =>
      have hnode := (findByManagementIp_eq_some h).mp hfind
      have hnodup := (loadSotConfig_distinct h).2 node hnode.1
      by_cases hlb : node.loopbacks.ipv4 = requestedLb ∨ node.loopbacks.ipv6 = requestedLb
      · have hmatch := mt unmatched_iff.mp (not_not.mpr hlb)
        cases hvrf : findVrf node "default" with
        | none =>
          simp only [Service.getLoopbacks, hfind, hvrf, if_neg hmatch] at hok
          cases hok
        | some vrf => exact ⟨node, vrf, hnode, (findVrf_eq_some hnodup).mp hvrf, hlb⟩
      · simp only [Service.getLoopbacks, hfind, if_pos (unmatched_iff.mpr hlb)] at hok
        cases hok
  · rintro ⟨node, vrf, hnode, hvrf, hlb⟩
    have hnodup := (loadSotConfig_distinct h).2 node hnode.1
    exact (getLoopbacks_registered ((findByManagementIp_eq_some h).mpr hnode)
      ((findVrf_eq_some hnodup).mpr hvrf) hlb).2.1

/-- **`GetLoopbacks` answers for the node's own loopbacks exactly as long as an empty request does not
meet a loopback that is left unset**, which stands in the configuration as the empty string. -/
theorem getLoopbacks_iff {files : Files} {path : String} {cfg : SotConfig SotVrf}
    (h : loadSotConfig files path = .ok cfg) (peer requestedLb : String) :
    AnswersOwnLoopback cfg peer requestedLb ↔ ¬(requestedLb = "" ∧ UnsetLoopback cfg peer) := by
  have hcode := getLoopbacks_code h peer requestedLb
  constructor
  · rintro ⟨hiff, -⟩ ⟨rfl, hunset⟩
    exact (hiff.mp (hcode.mpr hunset)).1 rfl
  · intro hset
    refine ⟨⟨fun hok => ⟨?_, hcode.mp hok⟩, fun hown => hcode.mpr hown.2⟩, fun hok => ?_⟩
    · rintro rfl
      exact hset ⟨rfl, hcode.mp hok⟩
    · obtain ⟨node, vrf, hnode, hvrf, hlb⟩ := hcode.mp hok
      have hnodup := (loadSotConfig_distinct h).2 node hnode.1
      have hinterfaces := (getLoopbacks_registered ((findByManagementIp_eq_some h).mpr hnode)
        ((findVrf_eq_some hnodup).mpr hvrf) hlb).2.2
      refine ⟨node, vrf, hnode, hvrf, ?_⟩
      by_cases hipv4 : node.loopbacks.ipv4 = requestedLb
      · exact .inl ⟨hipv4, by rw [hinterfaces, if_pos hipv4]⟩
      · exact .inr ⟨hlb.resolve_left hipv4, by rw [hinterfaces, if_neg hipv4]⟩

theorem getLoopbacks_iff_sample :
    ∃ cfg, loadSotConfig (oneFile sampleDocument) "sot.json" = .ok cfg ∧
      AnswersOwnLoopback cfg "ipv4:10.124.224.60:1" "1.1.1.1" :=
  ⟨_, rfl, (@getLoopbacks_iff (oneFile sampleDocument) "sot.json" _ rfl _ _).mpr
    fun h => absurd h.1 (by decide)⟩

/-- The sample has no IPv6 loopback, and an empty request is answered with its IPv6 interfaces. -/
theorem getLoopbacks_empty_request :
    ∃ cfg, loadSotConfig (oneFile sampleDocument) "sot.json" = .ok cfg ∧
      (Service.getLoopbacks cfg "ipv4:10.124.224.60:1" "").2.code = .OK ∧
      ¬AnswersOwnLoopback cfg "ipv4:10.124.224.60:1" "" :=
  ⟨_, rfl, rfl, fun h => (h.1.mp rfl).1 rfl⟩

end Rtsrv.Server
