import Mathlib.Algebra.Group.Int.Defs
import Mathlib.Algebra.Group.Nat.Defs
import Rtsrv.Config.Common

/-!
# Rtsrv.Config.Integers — the integers of a document and those of a loaded configuration

A number of the document has up to 64 bits and is cast to the type of its field before, or without, a
look at its range.  For each loader: what is loaded is what is written modulo 2³², and equals it exactly
where the written numbers fit.
-/

namespace Rtsrv.Config

open Lib Json

/-! ### One number -/

/-- The integer written under a key. -/
def written (v : Json) (key : String) : Option ℤ := (v.member key).bind integer

/-- The weight is the written number modulo 2³². -/
def Narrowed (w : UInt32) (z : Option ℤ) : Prop := ∃ n, z = some n ∧ 0 ≤ n ∧ (w.toNat : ℤ) = n % 2 ^ 32

theorem getUint_narrowed {obj : Object} {key ctx : String} {w : UInt32} (h : getUint obj key ctx = .ok w) :
    Narrowed w (written (.object obj) key) := by
  rw [getUint, except_bind_ok] at h
  obtain ⟨field, hfield, h⟩ := h
  have hkey : ifContains obj key = some field := by
    unfold requireField at hfield
    split at hfield
    · cases hfield
    · rwa [← Except.ok.inj hfield]
  have hwritten : written (.object obj) key = field.integer := by
    rw [written, member_object, hkey, Option.bind_some]
  rw [hwritten]
  cases field with
  | int64 i =>
    simp only at h
    split_ifs at h with hneg
    obtain rfl := Except.ok.inj h
    have hpos : 0 ≤ i := Int64.not_lt.mp hneg
    refine ⟨i.toInt, rfl, Int64.le_iff_toInt_le.mp hpos, ?_⟩
    rw [UInt64.toNat_toUInt32, Int64.toNat_toUInt64_of_le hpos]
    have hint : (i.toNatClampNeg : ℤ) = i.toInt :=
      Int.toNat_of_nonneg (Int64.le_iff_toInt_le.mp hpos)
    rw [← hint]
    norm_cast
  | uint64 u =>
    obtain rfl := Except.ok.inj h
    refine ⟨u.toNat, rfl, Int.natCast_nonneg _, ?_⟩
    rw [UInt64.toNat_toUInt32]
    norm_cast
  | _ => cases h

/-- Narrowed numbers are those that are written when these fit. -/
theorem narrowed_exact_iff {ws : List UInt32} {zs : List (Option ℤ)} (h : List.Forall₂ Narrowed ws zs) :
    ws.map (fun w => some (w.toNat : ℤ)) = zs ↔ ∀ n, some n ∈ zs → n < 2 ^ 32 := by
  induction h with
  | nil => exact ⟨fun _ n hn => absurd hn List.not_mem_nil, fun _ => rfl⟩
  | @cons w z ws zs hw _ ih =>
    obtain ⟨m, rfl, hpos, hm⟩ := hw
    have hhead : some (w.toNat : ℤ) = some m ↔ m < 2 ^ 32 := by
      rw [Option.some.injEq, hm]
      omega
    rw [List.map_cons, List.cons.injEq, ih, hhead]
    simp [or_imp, forall_and]

/-! ### Weights -/

def SotInterface.weights (iface : SotInterface) : List UInt32 :=
  iface.weight :: iface.prefixes.map SotPrefix.weight

def Srmd.SotVrf.weights (vrf : Srmd.SotVrf) : List UInt32 :=
  vrf.ipv4.interfaces.flatMap SotInterface.weights ++ vrf.ipv6.interfaces.flatMap SotInterface.weights

def Sra.SotVrf.weights (vrf : Sra.SotVrf) : List UInt32 :=
  vrf.ipv4.interfaces.flatMap SotInterface.weights

def SotConfig.weights {ν : Type} (vrfWeights : ν → List UInt32) (cfg : SotConfig ν) : List UInt32 :=
  cfg.nodes.flatMap fun node => node.vrfs.flatMap vrfWeights

/-! ### The same places in the document -/

def interfaceNumbers (iface : Json) : List (Option ℤ) :=
  written iface "weight" :: (iface.childrenAt "prefixes").map fun pfx => written pfx "weight"

def familyNumbers (family : String) (vrf : Json) : List (Option ℤ) :=
  match vrf.member family with
  | none => []
  | some v => (v.childrenAt "interfaces").flatMap interfaceNumbers

def Srmd.vrfNumbers (vrf : Json) : List (Option ℤ) := familyNumbers "ipv4" vrf ++ familyNumbers "ipv6" vrf

def Sra.vrfNumbers (vrf : Json) : List (Option ℤ) := familyNumbers "ipv4" vrf

def documentNumbers (vrfNumbers : Json → List (Option ℤ)) (root : Json) : List (Option ℤ) :=
  (root.childrenAt "nodes_by_loopback").flatMap fun node => (node.childrenAt "vrfs").flatMap vrfNumbers

section Members

variable {α : Type} {weights : α → List UInt32} {numbers : Json → List (Option ℤ)}
  {parse : String → Object → Except String α}

/-- What holds of each member of an object holds of all of them in order. -/
theorem members_narrowed
    (hparse : ∀ name inner a, parse name inner = .ok a →
      List.Forall₂ Narrowed (weights a) (numbers (.object inner)))
    {obj : Object} {as : List α}
    (h : List.Forall₂ (fun m a => ∃ inner, m.2 = .object inner ∧ parse m.1 inner = .ok a) obj as) :
    List.Forall₂ Narrowed (as.flatMap weights) ((Json.object obj).children.flatMap numbers) := by
  show List.Forall₂ Narrowed _ ((obj.map Prod.snd).flatMap numbers)
  rw [List.flatMap_map]
  refine List.rel_flatMap (R := fun a m => ∃ inner, m.2 = .object inner ∧ parse m.1 inner = .ok a)
    h.flip ?_
  rintro a m ⟨inner, hobj, ha⟩
  show List.Forall₂ Narrowed (weights a) (numbers m.2)
  rw [hobj]
  exact hparse m.1 inner a ha

theorem optional_narrowed
    (hparse : ∀ name inner a, parse name inner = .ok a →
      List.Forall₂ Narrowed (weights a) (numbers (.object inner)))
    {obj : Object} {key message : String} {memberMessage : String → String} {as : List α}
    (h : optionalObject obj key message [] (fun inner => parseMembers inner memberMessage parse) = .ok as) :
    List.Forall₂ Narrowed (as.flatMap weights) (((Json.object obj).childrenAt key).flatMap numbers) := by
  rcases optionalObject_ok.mp h with ⟨hnone, rfl⟩ | ⟨inner, hsome, hinner⟩
  · rw [childrenAt, member_object, hnone]
    exact .nil
  · rw [childrenAt, member_object, hsome]
    exact members_narrowed hparse (parseMembers_ok.mp hinner)

end Members

/-! ### Level by level -/

theorem parsePrefix_narrowed {obj : Object} {ctx : String} {pfx : SotPrefix}
    (h : parsePrefix obj ctx = .ok pfx) : Narrowed pfx.weight (written (.object obj) "weight") := by
  simp only [parsePrefix, except_bind_ok, except_pure_ok] at h
  obtain ⟨prefix_, -, weight, hweight, rfl⟩ := h
  exact getUint_narrowed hweight

theorem parsePrefixes_narrowed {obj : Object} {ifCtx : String} {prefixes : List SotPrefix}
    (h : parsePrefixes obj ifCtx = .ok prefixes) :
    List.Forall₂ Narrowed (prefixes.map SotPrefix.weight)
      (((Json.object obj).childrenAt "prefixes").map fun pfx => written pfx "weight") := by
  unfold parsePrefixes at h
  rw [childrenAt, member_object]
  cases hval : ifContains obj "prefixes" with
  | none =>
    rw [hval] at h
    obtain rfl := Except.ok.inj h
    exact .nil
  | some val =>
    simp only [hval] at h
    cases val with
    | array arr =>
      have hitems : ∀ item pfx, parsePrefixAt ifCtx item = .ok pfx →
          Narrowed pfx.weight (written item.1 "weight") := by
        intro item pfx hitem
        simp only [parsePrefixAt, except_bind_ok, requireObject_ok] at hitem
        obtain ⟨inner, hobj, hpfx⟩ := hitem
        rw [hobj]
        exact parsePrefix_narrowed hpfx
      have hpairs := (mapM_ok.mp h).flip.imp fun pfx item => hitems item pfx
      show List.Forall₂ Narrowed _ (arr.map _)
      rw [← List.zipIdx_map_fst 0 arr, List.map_map, List.forall₂_map_left_iff,
        List.forall₂_map_right_iff]
      exact hpairs
    | _ => cases h

theorem parseInterface_narrowed {ifName ctx : String} {obj : Object} {iface : SotInterface}
    (h : parseInterface ifName obj ctx = .ok iface) :
    List.Forall₂ Narrowed iface.weights (interfaceNumbers (.object obj)) := by
  simp only [parseInterface, except_bind_ok, except_pure_ok] at h
  obtain ⟨type, -, localAddr, -, weight, hweight, prefixes, hfrontes, rfl⟩ := h
  exact .cons (getUint_narrowed hweight) (parsePrefixes_narrowed hfrontes)

/-- The interfaces of one address family of a VRF. -/
theorem family_narrowed {σ : Type} (interfaces : σ → List SotInterface) {parse : Object → Except String σ}
    {family ctx message : String} {absent : σ} (habsent : interfaces absent = [])
    (hparse : ∀ obj v, parse obj = .ok v → parseInterfaces obj ctx = .ok (interfaces v)) {obj : Object}
    {v : σ} (h : optionalObject obj family message absent parse = .ok v) :
    List.Forall₂ Narrowed ((interfaces v).flatMap SotInterface.weights)
      (familyNumbers family (.object obj)) := by
  rw [familyNumbers, member_object]
  rcases optionalObject_ok.mp h with ⟨hnone, rfl⟩ | ⟨inner, hsome, hinner⟩
  · rw [hnone, habsent]
    exact .nil
  · rw [hsome]
    exact optional_narrowed (fun _ _ _ hiface => parseInterface_narrowed hiface) (hparse inner v hinner)

theorem parseVrfIpv4_interfaces {obj : Object} {ctx : String} {v : SotVrfIpv4}
    (h : parseVrfIpv4 obj ctx = .ok v) : parseInterfaces obj (ctx ++ ".ipv4") = .ok v.interfaces := by
  obtain ⟨interfaces, hinterfaces, rfl⟩ := except_map_ok.mp h
  exact hinterfaces

theorem Srmd.parseVrfIpv6_interfaces {obj : Object} {ctx : String} {v : SotVrfIpv6}
    (h : Srmd.parseVrfIpv6 obj ctx = .ok v) : parseInterfaces obj (ctx ++ ".ipv6") = .ok v.interfaces := by
  obtain ⟨interfaces, hinterfaces, rfl⟩ := except_map_ok.mp h
  exact hinterfaces

theorem Srmd.parseVrf_narrowed {vrfName nodeCtx : String} {obj : Object} {vrf : Srmd.SotVrf}
    (h : Srmd.parseVrf vrfName obj nodeCtx = .ok vrf) :
    List.Forall₂ Narrowed vrf.weights (Srmd.vrfNumbers (.object obj)) := by
  simp only [Srmd.parseVrf, except_bind_ok, except_pure_ok] at h
  obtain ⟨ipv4, hipv4, ipv6, hipv6, rfl⟩ := h
  exact List.rel_append
    (family_narrowed SotVrfIpv4.interfaces rfl (fun _ _ => parseVrfIpv4_interfaces) hipv4)
    (family_narrowed SotVrfIpv6.interfaces rfl (fun _ _ => Srmd.parseVrfIpv6_interfaces) hipv6)

theorem Sra.parseVrf_narrowed {vrfName nodeCtx : String} {obj : Object} {vrf : Sra.SotVrf}
    (h : Sra.parseVrf vrfName obj nodeCtx = .ok vrf) :
    List.Forall₂ Narrowed vrf.weights (Sra.vrfNumbers (.object obj)) := by
  simp only [Sra.parseVrf, except_bind_ok, except_pure_ok] at h
  obtain ⟨ipv4, hipv4, rfl⟩ := h
  exact family_narrowed SotVrfIpv4.interfaces rfl (fun _ _ => parseVrfIpv4_interfaces) hipv4

/-- The weights of a loaded configuration are the numbers of its document modulo 2³². -/
theorem loadDocument_narrowed {ν : Type} {parseVrf : String → Object → String → Except String ν}
    {vrfWeights : ν → List UInt32} {vrfNumbers : Json → List (Option ℤ)}
    (hvrf : ∀ name obj ctx v, parseVrf name obj ctx = .ok v →
      List.Forall₂ Narrowed (vrfWeights v) (vrfNumbers (.object obj)))
    {path : String} {root : Json} {cfg : SotConfig ν} (h : loadDocument parseVrf path root = .ok cfg) :
    List.Forall₂ Narrowed (cfg.weights vrfWeights) (documentNumbers vrfNumbers root) := by
  obtain ⟨rootObj, nblObj, rfl, hnbl, hnodes⟩ := loadDocument_ok.mp h
  rw [documentNumbers, childrenAt, member_object, hnbl]
  refine members_narrowed (fun ip obj node hnode => ?_) hnodes
  obtain ⟨-, -, -, ⟨hnone, hnil⟩ | ⟨vrfsObj, hsome, hvrfs⟩⟩ := parseNode_ok.mp hnode
  · rw [childrenAt, member_object, hnone, hnil]
    exact .nil
  · rw [childrenAt, member_object, hsome]
    exact members_narrowed (fun name obj v hv => hvrf name obj _ v hv) hvrfs

/-! ### Ports and the timeout -/

/-- The integer written in a section of the document. -/
def writtenIn (root : Json) (sect key : String) : Option ℤ := (root.member sect).bind (written · key)

namespace Common

theorem castInt_narrowed {v : Json} {i : Int32} {n : ℤ} (hi : castInt v = some i) (hn : n ∈ v.integer) :
    i.toInt = n.bmod (2 ^ 32) := by
  cases v with
  | int64 a =>
    obtain rfl := Option.some.inj hi
    obtain rfl := Option.some.inj hn
    exact Int64.toInt_toInt32 a
  | uint64 u =>
    obtain rfl := Option.some.inj hi
    obtain rfl := Option.some.inj hn
    show (u.toBitVec.setWidth 32).toInt = _
    rw [BitVec.toInt_setWidth]
    rfl
  | _ => cases hi

theorem getInt_narrowed {obj : Object} {key : String} {dflt i : Int32} {n : ℤ}
    (h : getInt obj key dflt = .ok i) (hn : n ∈ written (.object obj) key) : i.toInt = n.bmod (2 ^ 32) := by
  rw [written, member_object] at hn
  rcases getValue_ok.mp h with ⟨hnone, -⟩ | ⟨v, hsome, hcast⟩
  · rw [hnone] at hn
    cases hn
  · rw [hsome] at hn
    exact castInt_narrowed hcast hn

theorem getInt_exact_iff {obj : Object} {key : String} {dflt i : Int32} {n : ℤ}
    (h : getInt obj key dflt = .ok i) (hn : n ∈ written (.object obj) key) :
    i.toInt = n ↔ -2 ^ 31 ≤ n ∧ n < 2 ^ 31 := by
  constructor
  · rintro rfl
    exact ⟨Int32.le_toInt i, Int32.toInt_lt i⟩
  · rintro ⟨hlow, hhigh⟩
    rw [getInt_narrowed h hn]
    exact Int.bmod_eq_of_le (by omega) (by omega)

theorem getPort_exact_iff {obj : Object} {key : String} {p : UInt16} {n : ℤ}
    (h : getPort obj key = .ok p) (hn : n ∈ written (.object obj) key) :
    (p.toNat : ℤ) = n ↔ 1 ≤ n ∧ n ≤ 65535 := by
  obtain ⟨port, hport, hlow, hhigh, rfl⟩ := getPort_ok.mp h
  have hlow' : 1 ≤ port.toInt := Int32.le_iff_toInt_le.mp hlow
  have hhigh' : port.toInt ≤ 65535 := Int32.le_iff_toInt_le.mp hhigh
  have hcast : (port.toUInt32.toUInt16.toNat : ℤ) = port.toInt := by
    have hpos : (0 : Int32) ≤ port := Int32.le_iff_toInt_le.mpr (Int.le_trans (by decide) hlow')
    have hint : (port.toNatClampNeg : ℤ) = port.toInt := Int.toNat_of_nonneg (by omega)
    rw [UInt32.toNat_toUInt16, Int32.toNat_toUInt32_of_le hpos]
    omega
  rw [hcast]
  constructor
  · rintro rfl
    exact ⟨hlow', hhigh'⟩
  · rintro ⟨h1, h2⟩
    exact (getInt_exact_iff hport hn).mpr ⟨by omega, by omega⟩

/-- The section of the settings that a number is read from. -/
theorem section_written {σ : Type} {root : Json} {rootObj : Object} {sect key message : String}
    {absent cfg : σ} {parse : Object → Except String σ} {n : ℤ} (hroot : root = .object rootObj)
    (h : optionalObject rootObj sect message absent parse = .ok cfg) (hn : n ∈ writtenIn root sect key) :
    ∃ obj, parse obj = .ok cfg ∧ n ∈ written (.object obj) key := by
  subst hroot
  rw [writtenIn, member_object] at hn
  rcases optionalObject_ok.mp h with ⟨hnone, -⟩ | ⟨obj, hsome, hparse⟩
  · rw [hnone] at hn
    cases hn
  · rw [hsome] at hn
    exact ⟨obj, hparse, hn⟩

theorem serverConfig_port {path : String} {root : Json} {cfg : ServerConfig} {n : ℤ}
    (h : serverConfig path root = .ok cfg) (hn : n ∈ writtenIn root "server" "listen_port") :
    (cfg.server.listen_port.toNat : ℤ) = n ↔ 1 ≤ n ∧ n ≤ 65535 := by
  simp only [serverConfig, except_bind_ok, requireObject_ok, except_pure_ok] at h
  obtain ⟨rootObj, hroot, daemon, -, server, hserver, rfl⟩ := h
  obtain ⟨obj, hparse, hwritten⟩ := section_written hroot hserver hn
  simp only [parseListen, except_bind_ok, except_pure_ok] at hparse
  obtain ⟨host, -, port, hport, tlsEnabled, -, cert, -, key, -, rfl⟩ := hparse
  exact getPort_exact_iff hport hwritten

theorem clientConfig_section {path : String} {root : Json} {cfg : ClientConfig} {key : String} {n : ℤ}
    (h : clientConfig path root = .ok cfg) (hn : n ∈ writtenIn root "server" key) :
    ∃ obj, getPort obj "port" = .ok cfg.server_port ∧ getInt obj "timeout" 10 = .ok cfg.timeout_seconds ∧
      n ∈ written (.object obj) key := by
  simp only [clientConfig, except_bind_ok, requireObject_ok, except_pure_ok] at h
  obtain ⟨rootObj, hroot, config, hconfig, loopback, -, rfl⟩ := h
  obtain ⟨obj, hparse, hwritten⟩ := section_written hroot hconfig hn
  simp only [parseClient, except_bind_ok, except_pure_ok] at hparse
  obtain ⟨host, -, port, hport, tlsEnabled, -, caCert, -, timeout, htimeout, rfl⟩ := hparse
  exact ⟨obj, hport, htimeout, hwritten⟩

end Common

/-! ### The four loaders -/

/-- **The integers of a configuration are those of its document exactly when these fit the fields**: a
weight 32 bits, a port 1..65535, the timeout an `int`.  Other numbers come in reduced modulo 2³². -/
theorem integers_exact_iff (files : Files) (path : String) :
    (∀ document cfg, readDocument files path = .ok document → Srmd.loadSotConfig files path = .ok cfg →
      ((cfg.weights Srmd.SotVrf.weights).map (fun w => some (w.toNat : ℤ)) =
          documentNumbers Srmd.vrfNumbers document.root ↔
        ∀ n, some n ∈ documentNumbers Srmd.vrfNumbers document.root → n < 2 ^ 32)) ∧
    (∀ document cfg, readDocument files path = .ok document → Sra.loadSotConfig files path = .ok cfg →
      ((cfg.weights Sra.SotVrf.weights).map (fun w => some (w.toNat : ℤ)) =
          documentNumbers Sra.vrfNumbers document.root ↔
        ∀ n, some n ∈ documentNumbers Sra.vrfNumbers document.root → n < 2 ^ 32)) ∧
    (∀ document cfg, Common.readDocument files path = .ok document →
      Common.loadServerConfig files path = .ok cfg →
      ((∀ n ∈ writtenIn document.root "server" "listen_port", (cfg.server.listen_port.toNat : ℤ) = n) ↔
        ∀ n ∈ writtenIn document.root "server" "listen_port", 1 ≤ n ∧ n ≤ 65535)) ∧
    (∀ document cfg, Common.readDocument files path = .ok document →
      Common.loadClientConfig files path = .ok cfg →
      ((∀ n ∈ writtenIn document.root "server" "port", (cfg.server_port.toNat : ℤ) = n) ∧
          (∀ n ∈ writtenIn document.root "server" "timeout", cfg.timeout_seconds.toInt = n) ↔
        (∀ n ∈ writtenIn document.root "server" "port", 1 ≤ n ∧ n ≤ 65535) ∧
          ∀ n ∈ writtenIn document.root "server" "timeout", -2 ^ 31 ≤ n ∧ n < 2 ^ 31)) := by
  refine ⟨fun document cfg hdoc h => ?_, fun document cfg hdoc h => ?_, fun document cfg hdoc h => ?_,
    fun document cfg hdoc h => ?_⟩
  · exact narrowed_exact_iff
      (loadDocument_narrowed (fun _ _ _ _ => Srmd.parseVrf_narrowed) (loadConfig_document hdoc h))
  · exact narrowed_exact_iff
      (loadDocument_narrowed (fun _ _ _ _ => Sra.parseVrf_narrowed) (loadConfig_document hdoc h))
  · rw [Common.loadServerConfig, hdoc] at h
    exact forall₂_congr fun n hn => Common.serverConfig_port h hn
  · rw [Common.loadClientConfig, hdoc] at h
    refine and_congr (forall₂_congr fun n hn => ?_) (forall₂_congr fun n hn => ?_)
    · obtain ⟨obj, hport, -, hwritten⟩ := Common.clientConfig_section h hn
      exact Common.getPort_exact_iff hport hwritten
    · obtain ⟨obj, -, htimeout, hwritten⟩ := Common.clientConfig_section h hn
      exact Common.getInt_exact_iff htimeout hwritten

def portDocument (port : Int64) : Document :=
  ⟨.object [("server", .object [("listen_port", .int64 port)])], rfl⟩

def heavyDocument : Document := ⟨sampleRoot [] (.int64 4294967297), by decide⟩

theorem integers_exact_sample :
    (∃ cfg, Srmd.loadSotConfig (oneFile sampleDocument) "sot.json" = .ok cfg ∧
      (cfg.weights Srmd.SotVrf.weights).map (fun w => some (w.toNat : ℤ)) =
        documentNumbers Srmd.vrfNumbers sampleDocument.root) ∧
    ∃ cfg, Common.loadServerConfig (oneFile (portDocument 80)) "sot.json" = .ok cfg ∧
      ∀ n ∈ writtenIn (portDocument 80).root "server" "listen_port",
        (cfg.server.listen_port.toNat : ℤ) = n := by
  refine ⟨⟨_, rfl, ?_⟩, ⟨_, rfl, ?_⟩⟩
  · refine ((integers_exact_iff (oneFile sampleDocument) "sot.json").1 _ _ rfl rfl).mpr fun n hn => ?_
    have hnumbers : documentNumbers Srmd.vrfNumbers sampleDocument.root = [some 5, some 1, some 7] := rfl
    rw [hnumbers] at hn
    simp only [List.mem_cons, Option.some.injEq, List.not_mem_nil, or_false] at hn
    omega
  · exact ((integers_exact_iff (oneFile (portDocument 80)) "sot.json").2.2.1 _ _ rfl rfl).mpr
      (by decide)

/-- A port of 2³² + 1 is taken for port 1, and a weight of 2³² + 1 for weight 1. -/
theorem wide_integers_taken :
    (∃ cfg, Common.loadServerConfig (oneFile (portDocument 4294967297)) "sot.json" = .ok cfg ∧
      cfg.server.listen_port = 1) ∧
    ∃ cfg, Srmd.loadSotConfig (oneFile heavyDocument) "sot.json" = .ok cfg ∧
      cfg.weights Srmd.SotVrf.weights = [1, 1, 7] ∧
      documentNumbers Srmd.vrfNumbers heavyDocument.root = [some 4294967297, some 1, some 7] :=
  ⟨⟨_, rfl, rfl⟩, ⟨_, rfl, rfl, rfl⟩⟩

end Rtsrv.Config
