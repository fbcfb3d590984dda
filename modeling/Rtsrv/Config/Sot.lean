import Rtsrv.Lib.Json
import Rtsrv.Lib.Keyed

/-!
# Rtsrv.Config.Sot — the two loaders of the source of truth (`sot_config.cpp` of server and client)

`srmd::loadSotConfig` and `sra::loadSotConfig` are copies of one validator: the helpers, `parsePrefix`,
`parseInterface`, `parseVrfIpv4` and, around `parseVrf`, `parseNode` and the loader itself read the same.
They part in `parseVrf`, where only the server looks at `ipv6`.  What is common is defined once, over the
type of a parsed VRF where it matters.
-/

namespace Rtsrv.Config

open Lib Json

/-! ### Fields -/

/-- A `std::string` made from a C string: it ends before the first NUL. -/
def cStr (s : String) : String := String.ofList (s.toList.takeWhile (· ≠ Char.ofNat 0))

def requireField (obj : Object) (key ctx : String) : Except String Json :=
  match ifContains obj key with
  | none => .error (ctx ++ ": missing required field '" ++ key ++ "'")
  | some v => .ok v

def getString (obj : Object) (key ctx : String) : Except String String := do
  let field ← requireField obj key ctx
  match field.ifString with
  | none => .error (ctx ++ ": field '" ++ key ++ "' must be a string")
  | some str => .ok (cStr str)

/-- Every caller leaves the fallback at the empty string. -/
def getStringOpt (obj : Object) (key : String) : String :=
  match ifContains obj key with
  | none => ""
  | some v =>
    match v.ifString with
    | none => ""
    | some s => cStr s

def getUint (obj : Object) (key ctx : String) : Except String UInt32 := do
  let field ← requireField obj key ctx
  match field with
  | .int64 i =>
    if i < 0 then .error (ctx ++ ": field '" ++ key ++ "' must be non-negative")
    else .ok i.toUInt64.toUInt32
  | .uint64 u => .ok u.toUInt32
  | _ => .error (ctx ++ ": field '" ++ key ++ "' must be an integer")

/-- A value that must be an object. -/
def requireObject (v : Json) (message : String) : Except String Object :=
  match v.ifObject with
  | none => .error message
  | some obj => .ok obj

section Optional

variable {α : Type}

/-- A member that may be missing, and must be an object otherwise. -/
def optionalObject (obj : Object) (key message : String) (absent : α)
    (parse : Object → Except String α) : Except String α :=
  match ifContains obj key with
  | none => .ok absent
  | some v => do
    let inner ← requireObject v message
    parse inner

/-- A loop over the members of an object, each of which must be an object. -/
def parseMembers (obj : Object) (message : String → String) (parse : String → Object → Except String α) :
    Except String (List α) :=
  obj.mapM fun m => do
    let inner ← requireObject m.2 (message m.1)
    parse m.1 inner

end Optional

/-! ### Prefixes and interfaces -/

structure SotPrefix where
  prefix_ : String
  weight : UInt32
  role : String
  description : String
  deriving DecidableEq, Repr

structure SotInterface where
  name : String
  type : String
  local_address : String
  nexthop : String
  weight : UInt32
  description : String
  prefixes : List SotPrefix
  deriving DecidableEq, Repr

structure SotVrfIpv4 where
  interfaces : List SotInterface
  deriving DecidableEq, Repr

structure SotVrfIpv6 where
  interfaces : List SotInterface
  deriving DecidableEq, Repr

def parsePrefix (obj : Object) (ctx : String) : Except String SotPrefix := do
  let prefix_ ← getString obj "prefix" ctx
  let weight ← getUint obj "weight" ctx
  pure {
    prefix_ := prefix_
    weight := weight
    role := getStringOpt obj "role"
    description := getStringOpt obj "description" }

/-- One round of the loop over the `prefixes` array. -/
def parsePrefixAt (ifCtx : String) (item : Json × ℕ) : Except String SotPrefix := do
  let pCtx := ifCtx ++ ".prefixes[" ++ toString item.2 ++ "]"
  let pObj ← requireObject item.1 (pCtx ++ ": element must be a JSON object")
  parsePrefix pObj pCtx

def parsePrefixes (obj : Object) (ifCtx : String) : Except String (List SotPrefix) :=
  match ifContains obj "prefixes" with
  | none => .ok []
  | some prefixesVal =>
    match prefixesVal.ifArray with
    | none => .error (ifCtx ++ ": 'prefixes' must be an array")
    | some arr => arr.zipIdx.mapM (parsePrefixAt ifCtx)

def parseInterface (ifName : String) (obj : Object) (ctx : String) : Except String SotInterface := do
  let ifCtx := ctx ++ ".interfaces[" ++ ifName ++ "]"
  let type ← getString obj "type" ifCtx
  let localAddr ← getString obj "local_address" ifCtx
  let weight ← getUint obj "weight" ifCtx
  let prefixes ← parsePrefixes obj ifCtx
  pure {
    name := ifName
    type := type
    local_address := localAddr
    nexthop := getStringOpt obj "nexthop"
    weight := weight
    description := getStringOpt obj "description"
    prefixes := prefixes }

/-- The body that `parseVrfIpv4` and `parseVrfIpv6` share; `ctx` names the family. -/
def parseInterfaces (obj : Object) (ctx : String) : Except String (List SotInterface) :=
  optionalObject obj "interfaces" (ctx ++ ".interfaces: must be a JSON object") [] fun ifacesObj =>
    parseMembers ifacesObj (fun ifName => ctx ++ ".interfaces[" ++ ifName ++ "]: must be a JSON object")
      fun ifName ifObj => parseInterface ifName ifObj ctx

def parseVrfIpv4 (obj : Object) (ctx : String) : Except String SotVrfIpv4 :=
  SotVrfIpv4.mk <$> parseInterfaces obj (ctx ++ ".ipv4")

/-! ### Nodes, over the type of a parsed VRF -/

structure SotLoopbacks where
  ipv4 : String
  ipv6 : String
  deriving DecidableEq, Repr

structure SotNode (ν : Type) where
  management_ip : String
  hostname : String
  loopbacks : SotLoopbacks
  vrfs : List ν
  deriving DecidableEq, Repr

structure SotConfig (ν : Type) where
  nodes : List (SotNode ν)
  deriving DecidableEq, Repr

def SotConfig.findByManagementIp {ν : Type} (cfg : SotConfig ν) (managementIp : String) :
    Option (SotNode ν) := cfg.nodes.find? fun n => n.management_ip = managementIp

section Node

variable {ν : Type} (parseVrf : String → Object → String → Except String ν)

def parseNode (managementIp : String) (obj : Object) : Except String (SotNode ν) := do
  let ctx := "nodes_by_loopback[" ++ managementIp ++ "]"
  let hostname ← getString obj "hostname" ctx
  let loopbacks ← optionalObject obj "loopbacks" (ctx ++ ".loopbacks: must be a JSON object") ⟨"", ""⟩
    fun lbObj => .ok ⟨getStringOpt lbObj "ipv4", getStringOpt lbObj "ipv6"⟩
  let vrfs ← optionalObject obj "vrfs" (ctx ++ ".vrfs: must be a JSON object") [] fun vrfsObj =>
    parseMembers vrfsObj (fun vrfName => ctx ++ ".vrfs[" ++ vrfName ++ "]: must be a JSON object")
      fun vrfName vrfObj => parseVrf vrfName vrfObj ctx
  pure ⟨managementIp, hostname, loopbacks, vrfs⟩

/-- `loadSotConfig` from the parsed document on. -/
def loadDocument (path : String) (root : Json) : Except String (SotConfig ν) := do
  let rootObj ← requireObject root ("'" ++ path ++ "': top-level value must be a JSON object")
  match ifContains rootObj "nodes_by_loopback" with
  | none => .error ("'" ++ path ++ "': missing required top-level field 'nodes_by_loopback'")
  | some nblField => do
    let nblObj ← requireObject nblField
      ("'" ++ path ++ "': 'nodes_by_loopback' must be a JSON object")
    let nodes ← parseMembers nblObj
      (fun managementIp => "nodes_by_loopback[" ++ managementIp ++ "]: must be a JSON object")
      (parseNode parseVrf)
    pure ⟨nodes⟩

variable (files : Files)

def readFile (path : String) : Except String String :=
  match files.read path with
  | none => .error ("Cannot open file: " ++ path)
  | some file => if file.bad then .error ("Read error on file: " ++ path) else .ok file.content

/-- The document in a file. -/
def readDocument (path : String) : Except String Document := do
  let content ← readFile files path
  match files.parse content with
  | .error ex => .error ("JSON parse error in '" ++ path ++ "': " ++ ex.what)
  | .ok root => .ok root

def loadConfig (path : String) : Except String (SotConfig ν) := do
  let document ← readDocument files path
  loadDocument parseVrf path document.root

end Node

/-! ### The server -/

namespace Srmd

structure SotVrf where
  name : String
  ipv4 : SotVrfIpv4
  ipv6 : SotVrfIpv6
  deriving DecidableEq, Repr

def parseVrfIpv6 (obj : Object) (ctx : String) : Except String SotVrfIpv6 :=
  SotVrfIpv6.mk <$> parseInterfaces obj (ctx ++ ".ipv6")

def parseVrf (vrfName : String) (obj : Object) (nodeCtx : String) : Except String SotVrf := do
  let vrfCtx := nodeCtx ++ ".vrfs[" ++ vrfName ++ "]"
  let ipv4 ← optionalObject obj "ipv4" (vrfCtx ++ ".ipv4: must be a JSON object") ⟨[]⟩
    fun ipv4Obj => parseVrfIpv4 ipv4Obj vrfCtx
  let ipv6 ← optionalObject obj "ipv6" (vrfCtx ++ ".ipv6: must be a JSON object") ⟨[]⟩
    fun ipv6Obj => parseVrfIpv6 ipv6Obj vrfCtx
  pure ⟨vrfName, ipv4, ipv6⟩

def loadSotConfig (files : Files) (path : String) : Except String (SotConfig SotVrf) :=
  loadConfig parseVrf files path

def findVrf (node : SotNode SotVrf) (name : String) : Option SotVrf :=
  node.vrfs.find? fun v => v.name = name

end Srmd

/-! ### The client -/

namespace Sra

structure SotVrf where
  name : String
  ipv4 : SotVrfIpv4
  deriving DecidableEq, Repr

def parseVrf (vrfName : String) (obj : Object) (nodeCtx : String) : Except String SotVrf := do
  let vrfCtx := nodeCtx ++ ".vrfs[" ++ vrfName ++ "]"
  let ipv4 ← optionalObject obj "ipv4" (vrfCtx ++ ".ipv4: must be a JSON object") ⟨[]⟩
    fun ipv4Obj => parseVrfIpv4 ipv4Obj vrfCtx
  pure ⟨vrfName, ipv4⟩

def loadSotConfig (files : Files) (path : String) : Except String (SotConfig SotVrf) :=
  loadConfig parseVrf files path

end Sra

/-! ### What the checks let through -/

theorem requireObject_ok {v : Json} {message : String} {obj : Object} :
    requireObject v message = .ok obj ↔ v = .object obj := by
  unfold requireObject
  constructor
  · intro h
    split at h
    · cases h
    · obtain rfl := Except.ok.inj h
      exact ifObject_eq ‹_›
  · rintro rfl
    rfl

theorem optionalObject_ok {α : Type} {obj : Object} {key message : String} {absent a : α}
    {parse : Object → Except String α} :
    optionalObject obj key message absent parse = .ok a ↔
      (ifContains obj key = none ∧ a = absent) ∨
        ∃ inner, ifContains obj key = some (.object inner) ∧ parse inner = .ok a := by
  unfold optionalObject
  rcases ifContains obj key with _ | v
  · simp [eq_comm]
  · simp [except_bind_ok, requireObject_ok]

theorem parseMembers_ok {α : Type} {obj : Object} {message : String → String}
    {parse : String → Object → Except String α} {as : List α} :
    parseMembers obj message parse = .ok as ↔
      List.Forall₂ (fun m a => ∃ inner, m.2 = .object inner ∧ parse m.1 inner = .ok a) obj as := by
  unfold parseMembers
  simp only [mapM_ok, except_bind_ok, requireObject_ok]

theorem loadDocument_ok {ν : Type} {parseVrf : String → Object → String → Except String ν}
    {path : String} {root : Json} {cfg : SotConfig ν} :
    loadDocument parseVrf path root = .ok cfg ↔
      ∃ rootObj nblObj, root = .object rootObj ∧
        ifContains rootObj "nodes_by_loopback" = some (.object nblObj) ∧
        List.Forall₂ (fun m node => ∃ inner, m.2 = .object inner ∧ parseNode parseVrf m.1 inner = .ok node)
          nblObj cfg.nodes := by
  unfold loadDocument
  rw [except_bind_ok]
  simp only [requireObject_ok]
  refine exists_congr fun rootObj => ?_
  rcases ifContains rootObj "nodes_by_loopback" with _ | v
  · simp
  · simp only [except_bind_ok, requireObject_ok, parseMembers_ok, except_pure_ok, Option.some.injEq]
    constructor
    · rintro ⟨hroot, nblObj, hv, nodes, hnodes, rfl⟩
      exact ⟨nblObj, hroot, hv, hnodes⟩
    · rintro ⟨nblObj, hroot, hv, hnodes⟩
      exact ⟨hroot, nblObj, hv, cfg.nodes, hnodes, rfl⟩

theorem loadConfig_ok {ν : Type} {parseVrf : String → Object → String → Except String ν} {files : Files}
    {path : String} {cfg : SotConfig ν} :
    loadConfig parseVrf files path = .ok cfg ↔
      ∃ document, readDocument files path = .ok document ∧
        loadDocument parseVrf path document.root = .ok cfg := by
  rw [loadConfig, except_bind_ok]

/-- What `parseNode` takes over, and from where. -/
theorem parseNode_ok {ν : Type} {parseVrf : String → Object → String → Except String ν} {ip : String}
    {obj : Object} {node : SotNode ν} :
    parseNode parseVrf ip obj = .ok node ↔
      node.management_ip = ip ∧
      getString obj "hostname" ("nodes_by_loopback[" ++ ip ++ "]") = .ok node.hostname ∧
      optionalObject obj "loopbacks"
        ("nodes_by_loopback[" ++ ip ++ "]" ++ ".loopbacks: must be a JSON object") ⟨"", ""⟩
        (fun lbObj => .ok ⟨getStringOpt lbObj "ipv4", getStringOpt lbObj "ipv6"⟩) = .ok node.loopbacks ∧
      ((ifContains obj "vrfs" = none ∧ node.vrfs = []) ∨
        ∃ vrfsObj, ifContains obj "vrfs" = some (.object vrfsObj) ∧
          List.Forall₂ (fun m v => ∃ inner, m.2 = .object inner ∧
            parseVrf m.1 inner ("nodes_by_loopback[" ++ ip ++ "]") = .ok v) vrfsObj node.vrfs) := by
  simp only [parseNode, except_bind_ok, except_pure_ok]
  constructor
  · rintro ⟨hostname, hhost, loopbacks, hlb, vrfs, hvrfs, rfl⟩
    rw [optionalObject_ok] at hvrfs
    simp only [parseMembers_ok] at hvrfs
    exact ⟨rfl, hhost, hlb, hvrfs⟩
  · rintro ⟨rfl, hhost, hlb, hvrfs⟩
    refine ⟨node.hostname, hhost, node.loopbacks, hlb, node.vrfs, ?_, rfl⟩
    rw [optionalObject_ok]
    simp only [parseMembers_ok]
    exact hvrfs

theorem loadConfig_document {ν : Type} {parseVrf : String → Object → String → Except String ν} {files : Files}
    {path : String} {document : Document} {cfg : SotConfig ν} (hdoc : readDocument files path = .ok document)
    (h : loadConfig parseVrf files path = .ok cfg) :
    loadDocument parseVrf path document.root = .ok cfg := by
  obtain ⟨document', hdoc', hload⟩ := loadConfig_ok.mp h
  obtain rfl : document = document' := Except.ok.inj (hdoc.symm.trans hdoc')
  exact hload

/-! ### Where a loaded node stands in the document -/

/-- What the document has under an address. -/
def entry (root : Json) (ip : String) : Option Json := (root.member "nodes_by_loopback").bind (·.member ip)

section Entry

variable {ν : Type} {parseVrf : String → Object → String → Except String ν} {path : String}

/-- The node that a value of `nodes_by_loopback` gives under an address. -/
def nodeAt (parseVrf : String → Object → String → Except String ν) (ip : String) (v : Json) :
    Option (SotNode ν) := v.ifObject.bind fun obj => (parseNode parseVrf ip obj).toOption

/-- The lookup by address sees what the document has under that address, and nothing else. -/
theorem findByManagementIp_loaded {root : Json} {cfg : SotConfig ν}
    (h : loadDocument parseVrf path root = .ok cfg) (ip : String) :
    cfg.findByManagementIp ip = (entry root ip).bind (nodeAt parseVrf ip) := by
  obtain ⟨rootObj, nblObj, rfl, hnbl, hnodes⟩ := loadDocument_ok.mp h
  have hfind : cfg.findByManagementIp ip =
      (nblObj.find? fun m => m.1 = ip).bind fun m => nodeAt parseVrf m.1 m.2 := by
    refine find?_of_forall₂ (hnodes.imp fun m node ⟨inner, hobj, hnode⟩ => ⟨?_, ?_⟩)
    · rw [hobj]
      show (parseNode parseVrf m.1 inner).toOption = some node
      rw [hnode]
      rfl
    · rw [(parseNode_ok.mp hnode).1]
  rw [hfind, entry, member_object, hnbl]
  show _ = (ifContains nblObj ip).bind _
  unfold ifContains
  cases hm : nblObj.find? fun m => m.1 = ip with
  | none => rfl
  | some m =>
    have hip : m.1 = ip := by simpa using List.find?_some hm
    rw [Option.bind_some, Option.map_some, Option.bind_some, hip]

/-- No two nodes of a loaded configuration have the same address, and no two VRFs of a node the same
name, because no object of the document has a key twice. -/
theorem loaded_distinct {vrfName : ν → String}
    (hname : ∀ name obj ctx v, parseVrf name obj ctx = .ok v → vrfName v = name) {document : Document}
    {cfg : SotConfig ν} (h : loadDocument parseVrf path document.root = .ok cfg) :
    (cfg.nodes.map SotNode.management_ip).Nodup ∧ ∀ node ∈ cfg.nodes, (node.vrfs.map vrfName).Nodup := by
  obtain ⟨rootObj, nblObj, hroot, hnbl, hnodes⟩ := loadDocument_ok.mp h
  obtain ⟨hkeys, hmembers⟩ := distinct_object (distinct_ifContains (hroot ▸ document.distinct) hnbl)
  constructor
  · rw [← map_eq_of_forall₂ (hnodes.imp fun m node ⟨inner, _, hnode⟩ => (parseNode_ok.mp hnode).1.symm)]
    exact hkeys
  · intro node hmem
    obtain ⟨m, hm, inner, hobj, hnode⟩ := forall₂_mem_right hnodes hmem
    obtain ⟨-, -, -, ⟨-, hnil⟩ | ⟨vrfsObj, hsome, hvrfs⟩⟩ := parseNode_ok.mp hnode
    · rw [hnil]
      exact List.nodup_nil
    · have hinner : (Json.object inner).distinctKeys = true := hobj ▸ hmembers m hm
      rw [← map_eq_of_forall₂ (hvrfs.imp fun m v ⟨obj, _, hv⟩ => (hname m.1 obj _ v hv).symm)]
      exact (distinct_object (distinct_ifContains hinner hsome)).1

end Entry

/-! ### Two loaders over different VRFs -/

section Simulation

variable {ν ν' : Type} {parseVrf : String → Object → String → Except String ν}
  {parseVrf' : String → Object → String → Except String ν'} {f : ν → ν'}

def SotNode.map (f : ν → ν') (node : SotNode ν) : SotNode ν' where
  management_ip := node.management_ip
  hostname := node.hostname
  loopbacks := node.loopbacks
  vrfs := node.vrfs.map f

def SotConfig.map (f : ν → ν') (cfg : SotConfig ν) : SotConfig ν' := ⟨cfg.nodes.map (·.map f)⟩

theorem parseNode_simulates
    (hvrf : ∀ name obj ctx v, parseVrf name obj ctx = .ok v → parseVrf' name obj ctx = .ok (f v))
    {ip : String} {obj : Object} {node : SotNode ν} (h : parseNode parseVrf ip obj = .ok node) :
    parseNode parseVrf' ip obj = .ok (node.map f) := by
  obtain ⟨hip, hhost, hlb, hvrfs⟩ := parseNode_ok.mp h
  refine parseNode_ok.mpr ⟨hip, hhost, hlb, ?_⟩
  rcases hvrfs with ⟨hnone, hnil⟩ | ⟨vrfsObj, hsome, hmembers⟩
  · refine .inl ⟨hnone, ?_⟩
    show node.vrfs.map f = []
    rw [hnil, List.map_nil]
  · refine .inr ⟨vrfsObj, hsome, ?_⟩
    show List.Forall₂ _ vrfsObj (node.vrfs.map f)
    rw [List.forall₂_map_right_iff]
    exact hmembers.imp fun m v ⟨inner, hobj, hv⟩ => ⟨inner, hobj, hvrf m.1 inner _ v hv⟩

/-- A loader that takes what another takes of each VRF takes each document that the other takes. -/
theorem loadConfig_simulates
    (hvrf : ∀ name obj ctx v, parseVrf name obj ctx = .ok v → parseVrf' name obj ctx = .ok (f v))
    {files : Files} {path : String} {cfg : SotConfig ν} (h : loadConfig parseVrf files path = .ok cfg) :
    loadConfig parseVrf' files path = .ok (cfg.map f) := by
  obtain ⟨document, hdoc, hload⟩ := loadConfig_ok.mp h
  refine loadConfig_ok.mpr ⟨document, hdoc, ?_⟩
  obtain ⟨rootObj, nblObj, hroot, hnbl, hnodes⟩ := loadDocument_ok.mp hload
  refine loadDocument_ok.mpr ⟨rootObj, nblObj, hroot, hnbl, ?_⟩
  show List.Forall₂ _ nblObj (cfg.nodes.map (·.map f))
  rw [List.forall₂_map_right_iff]
  exact hnodes.imp fun m node ⟨inner, hobj, hnode⟩ => ⟨inner, hobj, parseNode_simulates hvrf hnode⟩

end Simulation

/-! ### The client takes what the server takes -/

/-- A VRF of the server as the client knows it. -/
def Srmd.SotVrf.dropIpv6 (vrf : Srmd.SotVrf) : Sra.SotVrf := ⟨vrf.name, vrf.ipv4⟩

theorem parseVrf_drops {vrfName nodeCtx : String} {obj : Object} {vrf : Srmd.SotVrf}
    (h : Srmd.parseVrf vrfName obj nodeCtx = .ok vrf) :
    Sra.parseVrf vrfName obj nodeCtx = .ok vrf.dropIpv6 := by
  simp only [Srmd.parseVrf, Sra.parseVrf, except_bind_ok, except_pure_ok] at h ⊢
  obtain ⟨ipv4, hipv4, ipv6, -, rfl⟩ := h
  exact ⟨ipv4, hipv4, rfl⟩

/-- **The client's loader takes every document that the server's loader takes**, with the same nodes,
VRFs, interfaces and prefixes in the same order, less `ipv6`. -/
theorem client_takes_server_config {files : Files} {path : String} {cfg : SotConfig Srmd.SotVrf}
    (h : Srmd.loadSotConfig files path = .ok cfg) :
    Sra.loadSotConfig files path = .ok (cfg.map Srmd.SotVrf.dropIpv6) :=
  loadConfig_simulates (fun _ _ _ _ hvrf => parseVrf_drops hvrf) h

/-! ### A document -/

/-- One file with the text of the document, for which the parser takes it. -/
def oneFile (document : Document) : Files where
  read := fun path => if path = "sot.json" then some ⟨document.root.text, false⟩ else none
  parse := fun _ => .ok document

/-- A node with the VRF `default`, one interface in each family and one prefix. -/
def sampleNode (loopbacks : List (String × Json)) (weight : Json) : Json :=
  .object [("hostname", .string "leaf"), ("loopbacks", .object loopbacks),
    ("vrfs", .object [("default", .object [
      ("ipv4", .object [("interfaces", .object [("Ethernet0", .object [
        ("type", .string "nni"), ("local_address", .string "192.168.1.2/30"), ("weight", weight),
        ("prefixes", .array [.object [("prefix", .string "10.0.1.0/24"), ("weight", .int64 1)]])])])]),
      ("ipv6", .object [("interfaces", .object [("Ethernet1", .object [
        ("type", .string "uni"), ("local_address", .string "fd00::2/64"), ("weight", .int64 7)])])])])])]

def sampleRoot (loopbacks : List (String × Json)) (weight : Json) : Json :=
  .object [("nodes_by_loopback", .object [("10.124.224.60", sampleNode loopbacks weight)])]

def sampleDocument : Document := ⟨sampleRoot [("ipv4", .string "1.1.1.1")] (.int64 5), by decide⟩

theorem client_takes_sample :
    ∃ cfg, Srmd.loadSotConfig (oneFile sampleDocument) "sot.json" = .ok cfg ∧
      Sra.loadSotConfig (oneFile sampleDocument) "sot.json" = .ok (cfg.map Srmd.SotVrf.dropIpv6) :=
  ⟨_, rfl, client_takes_server_config rfl⟩

end Rtsrv.Config
