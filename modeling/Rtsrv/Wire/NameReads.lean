import Rtsrv.Lib.FixedField
import Rtsrv.Wire.PrefixStatus

/-!
# Rtsrv.Wire.NameReads — names of a fixed size, read as C strings (`cmd_proto.cpp`)

The decoders copy `vrfs_name` and `iface_name` byte by byte; the log lines and `np.if_name` take `.data()` as
a C string, which ends at the first NUL.  The header calls the fields NUL-terminated and nothing looks
whether they are: a name that fills its field is read on behind it.  The decoders and handlers stand here
once more, with these reads.
-/

namespace Rtsrv.CmdProto

open Lib

/-- `.data()` of a field as a C string.  A read behind the field is one outside. -/
def cName {n : ℕ} (field : Block UInt8 n) : Except (Fault CmdError) (List UInt8) :=
  match readTerminated 0 field.items with
  | some name => .ok name
  | none => .error .outOfRange

/-- A log line with the name of a field. -/
def logName {n : ℕ} (field : Block UInt8 n) : Reader UInt8 CmdError Unit := fun s =>
  (cName field).map fun _ => ((), s)

/-! ### The decoders -/

def decodeVrfsRequestNamed : Reader UInt8 CmdError VrfsRequest := do
  Reader.need VRFS_REQUEST_FIXED_SIZE .InvalidCommand
  let vrfs_name ← Reader.block VRFS_NAME_SIZE
  logName vrfs_name
  let iface_name ← Reader.block IFACE_NAME_SIZE
  logName iface_name
  let nexthop_addr_ipv4 ← Reader.block 4
  let nexthop_id_ipv4 ← be32
  let prefixes ← decodePrefixes
  logName vrfs_name
  logName iface_name
  pure ⟨vrfs_name, iface_name, nexthop_addr_ipv4, nexthop_id_ipv4, prefixes⟩

def decodeVrfsRouteRequestNamed : Bytes → Except (Fault CmdError) VrfsRouteRequest :=
  decodeVrfRecords decodeVrfsRequestNamed

def decodeInterfaceNamed : Reader UInt8 CmdError Interface := do
  Reader.need INTERFACE_FIXED_SIZE .InvalidCommand
  let iface_name ← Reader.block IFACE_NAME_SIZE
  let nexthop_addr_ipv4 ← Reader.block 4
  let nexthop_id_ipv4 ← be32
  let prefixes ← decodePrefixes
  logName iface_name
  pure ⟨iface_name, nexthop_addr_ipv4, nexthop_id_ipv4, prefixes⟩

def decodeRouteAddPayloadNamed : Bytes → Except (Fault CmdError) SingleRouteRequest :=
  decodeInterfaceRecords decodeInterfaceNamed

/-- The field has the NUL that ends its name. -/
def Terminated {n : ℕ} (field : Block UInt8 n) : Prop := 0 ∈ field.items

instance {n : ℕ} (field : Block UInt8 n) : Decidable (Terminated field) :=
  inferInstanceAs (Decidable (0 ∈ field.items))

/-- Both names of each entry are terminated. -/
def VrfsRouteRequest.Terminated (req : VrfsRouteRequest) : Prop :=
  ∀ vr ∈ req.vrfs_requests, CmdProto.Terminated vr.vrfs_name ∧ CmdProto.Terminated vr.iface_name

/-- The name of each interface is terminated. -/
def SingleRouteRequest.Terminated (req : SingleRouteRequest) : Prop :=
  ∀ iface ∈ req.interfaces, CmdProto.Terminated iface.iface_name

theorem cName_ok {n : ℕ} {field : Block UInt8 n} (h : Terminated field) :
    cName field = .ok (field.items.takeWhile (· ≠ 0)) := by
  rw [cName, readTerminated_of_mem h]

theorem cName_iff {n : ℕ} {field : Block UInt8 n} : (∃ name, cName field = .ok name) ↔ Terminated field := by
  refine ⟨fun ⟨name, h⟩ => ?_, fun h => ⟨_, cName_ok h⟩⟩
  by_contra hnot
  rw [cName, readTerminated_eq_none.mpr hnot] at h
  cases h

theorem logName_ok {n : ℕ} {field : Block UInt8 n} {s t : Bytes} {u : Unit} :
    logName field s = .ok (u, t) ↔ Terminated field ∧ t = s := by
  rw [← cName_iff, logName]
  cases cName field with
  | error e => exact iff_of_false nofun fun ⟨⟨_, h⟩, _⟩ => nomatch h
  | ok name =>
    constructor
    · intro h
      exact ⟨⟨name, rfl⟩, (Prod.mk.inj (Except.ok.inj h)).2.symm⟩
    · rintro ⟨-, rfl⟩
      rfl

/-- The reads of the names accept the terminated ones and change nothing else. -/
theorem decodeVrfsRequestNamed_parses : Parses decodeVrfsRequestNamed vrfsRequestBytes fun vr =>
    vr.Valid ∧ Terminated vr.vrfs_name ∧ Terminated vr.iface_name := by
  intro s vr t
  have hplain := decodeVrfsRequest_parses s vr t
  rw [and_right_comm, ← hplain]
  simp only [decodeVrfsRequestNamed, decodeVrfsRequest, Reader.bind_ok, logName_ok, Reader.pure_ok]
  constructor
  · rintro ⟨_, s₀, hneed, name, s₁, hname, _, _, ⟨hvrf, rfl⟩, iface, s₂, hiface, _, _, ⟨hterm, rfl⟩, addr, s₃,
      haddr, id, s₄, hid, prefixes, s₅, hprefixes, _, _, ⟨-, rfl⟩, _, _, ⟨-, rfl⟩, rfl, rfl⟩
    exact ⟨⟨_, s₀, hneed, name, _, hname, iface, _, hiface, addr, s₃, haddr, id, s₄, hid, prefixes, _,
      hprefixes, rfl, rfl⟩, hvrf, hterm⟩
  · rintro ⟨⟨_, s₀, hneed, name, s₁, hname, iface, s₂, hiface, addr, s₃, haddr, id, s₄, hid, prefixes, s₅,
      hprefixes, rfl, rfl⟩, hvrf, hterm⟩
    exact ⟨_, s₀, hneed, name, s₁, hname, (), s₁, ⟨hvrf, rfl⟩, iface, s₂, hiface, (), s₂, ⟨hterm, rfl⟩, addr,
      s₃, haddr, id, s₄, hid, prefixes, _, hprefixes, (), _, ⟨hvrf, rfl⟩, (), _, ⟨hterm, rfl⟩, rfl, rfl⟩

theorem decodeInterfaceNamed_parses : Parses decodeInterfaceNamed interfaceBytes fun iface =>
    PrefixesOk iface.prefixes ∧ Terminated iface.iface_name := by
  intro s iface t
  have hplain := decodeInterface_parses s iface t
  rw [and_right_comm, ← hplain]
  simp only [decodeInterfaceNamed, decodeInterface, Reader.bind_ok, logName_ok, Reader.pure_ok]
  constructor
  · rintro ⟨_, s₀, hneed, name, s₁, hname, addr, s₂, haddr, id, s₃, hid, prefixes, s₄, hprefixes, _, _,
      ⟨hterm, rfl⟩, rfl, rfl⟩
    exact ⟨⟨_, s₀, hneed, name, s₁, hname, addr, s₂, haddr, id, s₃, hid, prefixes, _, hprefixes, rfl, rfl⟩,
      hterm⟩
  · rintro ⟨⟨_, s₀, hneed, name, s₁, hname, addr, s₂, haddr, id, s₃, hid, prefixes, s₄, hprefixes, rfl, rfl⟩,
      hterm⟩
    exact ⟨_, s₀, hneed, name, s₁, hname, addr, s₂, haddr, id, s₃, hid, prefixes, _, hprefixes, (), _,
      ⟨hterm, rfl⟩, rfl, rfl⟩

/-- Of an accepted VRF payload every read of the decoder stays in its field exactly when the names are
terminated. -/
theorem decodeVrfsRouteRequestNamed_iff {raw : Bytes} {req : VrfsRouteRequest}
    (h : decodeVrfsRouteRequest raw = .ok req) :
    decodeVrfsRouteRequestNamed raw = .ok req ↔ req.Terminated := by
  obtain ⟨hvalid, hraw⟩ := decodeVrfsRouteRequest_ok.mp h
  rw [decodeVrfsRouteRequestNamed, decodeVrfRecords_ok decodeVrfsRequestNamed_parses, and_iff_left hraw]
  exact forall₂_congr fun vr hvr => and_iff_right (hvalid vr hvr)

theorem decodeRouteAddPayloadNamed_iff {raw : Bytes} {req : SingleRouteRequest}
    (h : decodeRouteAddPayload raw = .ok req) :
    decodeRouteAddPayloadNamed raw = .ok req ↔ req.Terminated := by
  obtain ⟨⟨hlen, hvalid⟩, hraw⟩ := decodeRouteAddPayload_ok.mp h
  rw [decodeRouteAddPayloadNamed, decodeInterfaceRecords_ok decodeInterfaceNamed_parses, and_iff_left hraw,
    and_iff_right hlen]
  exact forall₂_congr fun iface hiface => and_iff_right (hvalid iface hiface)

end Rtsrv.CmdProto

namespace Rtsrv.Netlink

open Lib CmdProto

/-! ### The handlers -/

section Handlers

variable {ε σ : Type} (add_route : RouteAddParams → σ → Except ε Unit × σ)

def installPrefixNamed (vr : VrfsRequest) (s : Bool × σ) (pfx : PrefixIpv4) :
    Except (Fault CmdError) (Bool × σ) := do
  let if_name ← cName vr.iface_name
  let (result, world) := add_route { routeParams vr pfx with if_name := if_name } s.2
  pure (s.1 && result.isOk, world)

def installVrfNamed (s : VrfsRouteResponse × σ) (vr : VrfsRequest) :
    Except (Fault CmdError) (VrfsRouteResponse × σ) := do
  let _vrf ← cName vr.vrfs_name
  let _iface ← cName vr.iface_name
  let (vrf_ok, world) ← vr.prefixes.foldlM (installPrefixNamed add_route vr) (true, s.2)
  pure ({ status_code := if vrf_ok then s.1.status_code else 0x01
          answers := s.1.answers ++ [{ vrfs_name := vr.vrfs_name, prefix_status := vrf_ok }] }, world)

def handleVrfsRouteRequestNamed (world : σ) (req : VrfsRouteRequest) :
    Except (Fault CmdError) (VrfsRouteResponse × σ) :=
  req.vrfs_requests.foldlM (installVrfNamed add_route) ({ status_code := 0x00, answers := [] }, world)

def installOnInterfaceNamed (iface : Interface) (s : RouteAddBinaryResponse × σ) (pfx : PrefixIpv4) :
    Except (Fault CmdError) (RouteAddBinaryResponse × σ) := do
  let if_name ← cName iface.iface_name
  let (result, world) := add_route { interfaceParams iface pfx with if_name := if_name } s.2
  let _dev ← cName iface.iface_name
  pure (noted s.1 result.isOk, world)

def installInterfaceNamed (s : RouteAddBinaryResponse × σ) (iface : Interface) :
    Except (Fault CmdError) (RouteAddBinaryResponse × σ) := do
  let _iface ← cName iface.iface_name
  iface.prefixes.foldlM (installOnInterfaceNamed add_route iface) s

def handleRouteAddPayloadNamed (world : σ) (req : SingleRouteRequest) :
    Except (Fault CmdError) (RouteAddBinaryResponse × σ) :=
  req.interfaces.foldlM (installInterfaceNamed add_route)
    ({ status_code := 0x00, prefix_status := [] }, world)

/-! ### With terminated names they are the plain ones -/

theorem installPrefixNamed_ok {vr : VrfsRequest} (h : Terminated vr.iface_name) (s : Bool × σ)
    (pfx : PrefixIpv4) :
    installPrefixNamed add_route vr s pfx = .ok (installPrefixBy add_route vr s pfx) := by
  rw [installPrefixNamed, cName_ok h, ok_bind, installPrefixBy, attemptFlag_eq]
  rfl

theorem installVrfNamed_ok {vr : VrfsRequest} (hvrf : Terminated vr.vrfs_name)
    (hiface : Terminated vr.iface_name) (s : VrfsRouteResponse × σ) :
    installVrfNamed add_route s vr = .ok (installVrfBy add_route s vr) := by
  have hloop : vr.prefixes.foldlM (installPrefixNamed add_route vr) (true, s.2) =
      .ok (vr.prefixes.foldl (installPrefixBy add_route vr) (true, s.2)) :=
    foldlM_ok (fun pfx _ t => installPrefixNamed_ok add_route hiface t pfx) (true, s.2)
  rw [installVrfNamed, cName_ok hvrf, ok_bind, cName_ok hiface, ok_bind, hloop, ok_bind]
  rfl

theorem handleVrfsRouteRequestNamed_ok {req : VrfsRouteRequest} (h : req.Terminated) (world : σ) :
    handleVrfsRouteRequestNamed add_route world req = .ok (handleVrfsRouteRequestBy add_route world req) := by
  refine foldlM_ok (fun vr hvr s => ?_) _
  obtain ⟨hvrf, hiface⟩ := h vr hvr
  exact installVrfNamed_ok add_route hvrf hiface s

theorem installOnInterfaceNamed_ok {iface : Interface} (h : Terminated iface.iface_name)
    (s : RouteAddBinaryResponse × σ) (pfx : PrefixIpv4) :
    installOnInterfaceNamed add_route iface s pfx = .ok (installOnInterface add_route iface s pfx) := by
  rw [installOnInterfaceNamed, cName_ok h, ok_bind]
  rfl

theorem installInterfaceNamed_ok {iface : Interface} (h : Terminated iface.iface_name)
    (s : RouteAddBinaryResponse × σ) :
    installInterfaceNamed add_route s iface = .ok (installInterface add_route s iface) := by
  rw [installInterfaceNamed, cName_ok h, ok_bind]
  exact foldlM_ok (fun pfx _ t => installOnInterfaceNamed_ok add_route h t pfx) s

theorem handleRouteAddPayloadNamed_ok {req : SingleRouteRequest} (h : req.Terminated) (world : σ) :
    handleRouteAddPayloadNamed add_route world req = .ok (handleRouteAddPayload add_route world req) :=
  foldlM_ok (fun iface hiface s => installInterfaceNamed_ok add_route (h iface hiface) s) _

/-! ### They read no others -/

theorem handleVrfsRouteRequestNamed_iff {world : σ} {req : VrfsRouteRequest} :
    (∃ r, handleVrfsRouteRequestNamed add_route world req = .ok r) ↔ req.Terminated := by
  refine ⟨fun ⟨r, hr⟩ vr hvr => ?_, fun h => ⟨_, handleVrfsRouteRequestNamed_ok add_route h world⟩⟩
  obtain ⟨s, t, hround⟩ := foldlM_ok_mem hr vr hvr
  obtain ⟨name, hname, hround⟩ := except_bind_ok.mp hround
  obtain ⟨iface, hiface, -⟩ := except_bind_ok.mp hround
  exact ⟨cName_iff.mp ⟨name, hname⟩, cName_iff.mp ⟨iface, hiface⟩⟩

theorem handleRouteAddPayloadNamed_iff {world : σ} {req : SingleRouteRequest} :
    (∃ r, handleRouteAddPayloadNamed add_route world req = .ok r) ↔ req.Terminated := by
  refine ⟨fun ⟨r, hr⟩ iface hiface => ?_, fun h => ⟨_, handleRouteAddPayloadNamed_ok add_route h world⟩⟩
  obtain ⟨s, t, hround⟩ := foldlM_ok_mem hr iface hiface
  obtain ⟨name, hname, -⟩ := except_bind_ok.mp hround
  exact cName_iff.mp ⟨name, hname⟩

/-! ### The names that are passed on -/

/-- An `add_route` that notes the name of each call. -/
def noting (params : RouteAddParams) (s : σ × List CString) : Except ε Unit × σ × List CString :=
  let (result, world) := add_route params s.1
  (result, world, s.2 ++ [params.if_name])

/-- The field says the name in front of its first NUL. -/
def Says {n : ℕ} (field : Block UInt8 n) (name : CString) : Prop :=
  0 ∉ name ∧ ∃ rest, field.items = name ++ 0 :: rest

theorem says_takeWhile {n : ℕ} {field : Block UInt8 n} (h : Terminated field) :
    Says field (field.items.takeWhile (· ≠ 0)) :=
  readTerminated_eq_some.mp (readTerminated_of_mem h)

theorem installPrefixBy_notes (vr : VrfsRequest) (s : Bool × σ × List CString) (pfx : PrefixIpv4) :
    (installPrefixBy (noting add_route) vr s pfx).2.2 = s.2.2 ++ [ifName vr] := by
  rw [installPrefixBy, attemptFlag_eq]
  rfl

theorem installVrfBy_notes (s : VrfsRouteResponse × σ × List CString) (vr : VrfsRequest) :
    (installVrfBy (noting add_route) s vr).2.2 = s.2.2 ++ vr.prefixes.map fun _ => ifName vr :=
  foldl_notes (fun s : Bool × σ × List CString => s.2.2) (installPrefixBy_notes add_route vr)
    vr.prefixes (true, s.2)

theorem handleVrfsRouteRequestBy_notes (world : σ) (req : VrfsRouteRequest) :
    (handleVrfsRouteRequestBy (noting add_route) (world, []) req).2.2 =
      (vrfCalls req).map fun c => ifName c.1 := by
  rw [handleVrfsRouteRequestBy, foldl_appends (fun s : VrfsRouteResponse × σ × List CString => s.2.2)
    (installVrfBy_notes add_route), vrfCalls, List.map_flatMap, List.nil_append]
  simp only [List.map_map]
  rfl

theorem handleRouteAddPayload_notes (world : σ) (req : SingleRouteRequest) :
    (handleRouteAddPayload (noting add_route) (world, []) req).2.2 =
      (calls req).map fun c => (interfaceParams c.1 c.2).if_name := by
  rw [handleRouteAddPayload_calls]
  exact foldl_notes (fun s : RouteAddBinaryResponse × σ × List CString => s.2.2) (fun s c => rfl)
    (calls req) _

end Handlers

/-! ### Reads that stay inside -/

/-- Decoder and handler read the names of a VRF payload inside their fields, and each call of `add_route` gets
what the entry's `iface_name` says. -/
def VrfNamesInside (raw : Bytes) (req : VrfsRouteRequest) : Prop :=
  decodeVrfsRouteRequestNamed raw = .ok req ∧
    ∀ (ε σ : Type) (add_route : RouteAddParams → σ → Except ε Unit × σ) (world : σ), ∃ resp world' names,
      handleVrfsRouteRequestNamed (noting add_route) (world, []) req = .ok (resp, world', names) ∧
      List.Forall₂ (fun c name => Says c.1.iface_name name) (vrfCalls req) names

/-- The same for an interface payload. -/
def InterfaceNamesInside (raw : Bytes) (req : SingleRouteRequest) : Prop :=
  decodeRouteAddPayloadNamed raw = .ok req ∧
    ∀ (ε σ : Type) (add_route : RouteAddParams → σ → Except ε Unit × σ) (world : σ), ∃ resp world' names,
      handleRouteAddPayloadNamed (noting add_route) (world, []) req = .ok (resp, world', names) ∧
      List.Forall₂ (fun c name => Says c.1.iface_name name) (calls req) names

section Passed

variable {ε σ : Type} (add_route : RouteAddParams → σ → Except ε Unit × σ)

theorem vrfNames_says {req : VrfsRouteRequest} (h : req.Terminated) (world : σ) :
    List.Forall₂ (fun c name => Says c.1.iface_name name) (vrfCalls req)
      (handleVrfsRouteRequestBy (noting add_route) (world, []) req).2.2 := by
  rw [handleVrfsRouteRequestBy_notes, List.forall₂_map_right_iff, List.forall₂_same]
  intro c hc
  obtain ⟨vr, hvr, hmem⟩ := List.mem_flatMap.mp hc
  obtain ⟨pfx, -, rfl⟩ := List.mem_map.mp hmem
  exact says_takeWhile (h vr hvr).2

theorem interfaceNames_says {req : SingleRouteRequest} (h : req.Terminated) (world : σ) :
    List.Forall₂ (fun c name => Says c.1.iface_name name) (calls req)
      (handleRouteAddPayload (noting add_route) (world, []) req).2.2 := by
  rw [handleRouteAddPayload_notes, List.forall₂_map_right_iff, List.forall₂_same]
  intro c hc
  obtain ⟨iface, hiface, hmem⟩ := List.mem_flatMap.mp hc
  obtain ⟨pfx, -, rfl⟩ := List.mem_map.mp hmem
  exact says_takeWhile (h iface hiface)

end Passed

/-- **The names of an accepted payload are read inside their fields exactly when each field has a NUL**: in
the decoders and in the handlers, whatever `add_route` does. -/
theorem names_inside_iff (raw : Bytes) :
    (∀ req, decodeVrfsRouteRequest raw = .ok req → (VrfNamesInside raw req ↔ req.Terminated)) ∧
      ∀ req, decodeRouteAddPayload raw = .ok req → (InterfaceNamesInside raw req ↔ req.Terminated) := by
  refine ⟨fun req hdec => ⟨fun h => (decodeVrfsRouteRequestNamed_iff hdec).mp h.1, fun h => ?_⟩,
    fun req hdec => ⟨fun h => (decodeRouteAddPayloadNamed_iff hdec).mp h.1, fun h => ?_⟩⟩
  · refine ⟨(decodeVrfsRouteRequestNamed_iff hdec).mpr h, fun ε σ add_route world => ?_⟩
    exact ⟨_, _, _, handleVrfsRouteRequestNamed_ok (noting add_route) h (world, []),
      vrfNames_says add_route h world⟩
  · refine ⟨(decodeRouteAddPayloadNamed_iff hdec).mpr h, fun ε σ add_route world => ?_⟩
    exact ⟨_, _, _, handleRouteAddPayloadNamed_ok (noting add_route) h (world, []),
      interfaceNames_says add_route h world⟩

/-- An interface whose name fills its field: the payload is accepted, and the log line of the decoder reads on
behind the field.  Its handler does the same. -/
theorem names_fullField :
    let iface : Interface :=
      { iface_name := .replicate _ 0x61
        nexthop_addr_ipv4 := ipv4 10 0 0 1
        nexthop_id_ipv4 := 1
        prefixes := [⟨ipv4 10 1 0 0, 16⟩] }
    let raw := routeAddPayloadBytes ⟨[iface]⟩
    decodeRouteAddPayload raw = .ok ⟨[iface]⟩ ∧ decodeRouteAddPayloadNamed raw = .error .outOfRange ∧
      handleRouteAddPayloadNamed (scripted (ε := Unit)) [] ⟨[iface]⟩ = .error .outOfRange ∧
      ¬ ∀ raw req, decodeRouteAddPayload raw = .ok req → InterfaceNamesInside raw req := by
  intro iface raw
  have hdec : decodeRouteAddPayload raw = .ok ⟨[iface]⟩ := by decide
  have hnamed : decodeRouteAddPayloadNamed raw = .error .outOfRange := by decide
  have hhandle : handleRouteAddPayloadNamed (scripted (ε := Unit)) [] ⟨[iface]⟩ = .error .outOfRange := by
    decide
  refine ⟨hdec, hnamed, hhandle, fun hall => ?_⟩
  obtain ⟨hinside, -⟩ := hall raw ⟨[iface]⟩ hdec
  rw [hnamed] at hinside
  cases hinside

end Rtsrv.Netlink
