import Rtsrv.Wire.CmdProto

/-!
# Rtsrv.Wire.RoutePayload — binary route payloads (`unix_domain/lib/cmd_proto.cpp`)

Two request forms share the prefix list: the VRF form, whose records run to the end of the payload,
and the interface form, whose records are counted.  Each encoder is characterised by `Writes` and each
record reader by `Parses` over the same encoding, which is what makes them inverse.
-/

namespace Rtsrv.CmdProto

open Lib

abbrev Ipv4Addr := Block UInt8 4

/-- `a.b.c.d`. -/
def ipv4 (a b c d : UInt8) : Ipv4Addr := ⟨[a, b, c, d], rfl⟩

def VRFS_NAME_SIZE : ℕ := 16
def IFACE_NAME_SIZE : ℕ := 32
def PREFIX_IPV4_WIRE_SIZE : ℕ := 5
def VRFS_REQUEST_FIXED_SIZE : ℕ := 58
def INTERFACE_FIXED_SIZE : ℕ := 42
def VRFS_ANSWER_WIRE_SIZE : ℕ := 17

abbrev IfaceName := Block UInt8 IFACE_NAME_SIZE

abbrev VrfsName := Block UInt8 VRFS_NAME_SIZE

/-- `RouteAddPayloadType::SINGLE_ROUTE`: the VRF form. -/
def SINGLE_ROUTE : UInt8 := 1

/-- `RouteAddPayloadType::INTERFACE_ROUTE`. -/
def INTERFACE_ROUTE : UInt8 := 2

structure PrefixIpv4 where
  addr : Ipv4Addr
  mask_len : UInt8
  deriving DecidableEq, Repr

structure Interface where
  iface_name : IfaceName
  nexthop_addr_ipv4 : Ipv4Addr
  nexthop_id_ipv4 : UInt32
  prefixes : List PrefixIpv4
  deriving DecidableEq, Repr

structure SingleRouteRequest where
  interfaces : List Interface
  deriving DecidableEq, Repr

structure VrfsRequest where
  vrfs_name : VrfsName
  iface_name : IfaceName
  nexthop_addr_ipv4 : Ipv4Addr
  nexthop_id_ipv4 : UInt32
  prefixes : List PrefixIpv4
  deriving DecidableEq, Repr

structure VrfsRouteRequest where
  vrfs_requests : List VrfsRequest
  deriving DecidableEq, Repr

/-- A request for one VRF. -/
def oneVrf (prefixes : List PrefixIpv4) : VrfsRouteRequest where
  vrfs_requests :=
    [{ vrfs_name := .replicate _ 0
       iface_name := .replicate _ 0
       nexthop_addr_ipv4 := ipv4 10 0 0 1
       nexthop_id_ipv4 := 1
       prefixes := prefixes }]

structure VrfsAnswer where
  vrfs_name : VrfsName
  prefix_status : Bool
  deriving DecidableEq, Repr

structure VrfsRouteResponse where
  status_code : UInt8
  answers : List VrfsAnswer
  deriving DecidableEq, Repr

/-! ### Prefix lists -/

def encodePrefix (p : PrefixIpv4) : Except (Fault CmdError) Bytes :=
  if p.mask_len > 32 then .error (.error .InvalidField) else .ok (p.addr.items ++ [p.mask_len])

def decodePrefix : Reader UInt8 CmdError PrefixIpv4 := do
  let addr ← Reader.block 4
  let mask_len ← Reader.item
  Reader.check (mask_len ≤ 32) .InvalidField
  pure ⟨addr, mask_len⟩

def prefixBytes (p : PrefixIpv4) : Bytes := p.addr.items ++ [p.mask_len]

def PrefixIpv4.Valid (p : PrefixIpv4) : Prop := p.mask_len ≤ 32

theorem prefixBytes_length (p : PrefixIpv4) : (prefixBytes p).length = PREFIX_IPV4_WIRE_SIZE := by
  rw [prefixBytes, List.length_append, p.addr.length_eq]
  rfl

theorem encodePrefix_writes : Writes encodePrefix prefixBytes PrefixIpv4.Valid := by
  intro p out
  rw [encodePrefix, PrefixIpv4.Valid, ← UInt8.not_lt]
  split_ifs with h
  · simp [h]
  · simp [h, prefixBytes, eq_comm]

theorem decodePrefix_parses : Parses decodePrefix prefixBytes PrefixIpv4.Valid := by
  intro s p t
  simp only [decodePrefix, Reader.bind_ok, Reader.block_ok, Reader.item_ok, Reader.check_ok,
    Reader.pure_ok, decide_eq_true_eq]
  refine ⟨?_, ?_⟩
  · rintro ⟨addr, _, rfl, mask_len, _, rfl, _, _, ⟨hm, rfl⟩, rfl, rfl⟩
    exact ⟨hm, by simp [prefixBytes]⟩
  · rintro ⟨hm, rfl⟩
    refine ⟨p.addr, p.mask_len :: t, ?_, p.mask_len, t, rfl, (), t, ⟨hm, rfl⟩, rfl, rfl⟩
    rw [prefixBytes, List.append_assoc]
    rfl

/-- The prefix list of a record, behind its 16-bit count. -/
def encodePrefixes (prefixes : List PrefixIpv4) : Except (Fault CmdError) Bytes := do
  let out ← writeAll encodePrefix prefixes
  pure (writeBe16 (UInt16.ofNat prefixes.length) ++ out)

def decodePrefixes : Reader UInt8 CmdError (List PrefixIpv4) := do
  let prefix_count ← be16
  let prefix_bytes := prefix_count.toNat * PREFIX_IPV4_WIRE_SIZE
  Reader.need prefix_bytes .InvalidCommand
  Reader.counted decodePrefix prefix_count.toNat

def prefixesBytes (prefixes : List PrefixIpv4) : Bytes :=
  writeBe16 (UInt16.ofNat prefixes.length) ++ prefixes.flatMap prefixBytes

/-- The prefix lists the encoders take: a count that fits, and valid masks. -/
def PrefixesOk (prefixes : List PrefixIpv4) : Prop :=
  prefixes.length ≤ 0xFFFF ∧ ∀ p ∈ prefixes, p.Valid

theorem flatMap_prefixBytes_length (prefixes : List PrefixIpv4) :
    (prefixes.flatMap prefixBytes).length = prefixes.length * PREFIX_IPV4_WIRE_SIZE := by
  induction prefixes with
  | nil => rfl
  | cons p prefixes ih =>
    rw [List.flatMap_cons, List.length_append, prefixBytes_length, ih, List.length_cons,
      Nat.add_mul, Nat.one_mul, Nat.add_comm]

theorem encodePrefixes_ok {prefixes : List PrefixIpv4} {out : Bytes} :
    encodePrefixes prefixes = .ok out ↔
      (∀ p ∈ prefixes, p.Valid) ∧ out = prefixesBytes prefixes :=
  writes_bind (encodePrefix_writes.all prefixes) _ out

theorem decodePrefixes_parses : Parses decodePrefixes prefixesBytes PrefixesOk := by
  intro s prefixes t
  simp only [decodePrefixes, Reader.bind_ok, be16_ok, Reader.need_ok,
    decodePrefix_parses.counted _ _ _ _]
  refine ⟨?_, ?_⟩
  · rintro ⟨count, _, rfl, _, _, ⟨-, rfl⟩, ⟨hlen, hok⟩, rfl⟩
    have hcount := count.toNat_lt
    refine ⟨⟨by omega, hok⟩, ?_⟩
    rw [prefixesBytes, hlen, UInt16.ofNat_toNat, List.append_assoc]
  · rintro ⟨⟨hlen, hok⟩, rfl⟩
    have hcount : (UInt16.ofNat prefixes.length).toNat = prefixes.length := by
      rw [UInt16.toNat_ofNat', Nat.mod_eq_of_lt (by omega)]
    refine ⟨_, _, by rw [prefixesBytes, List.append_assoc], (), _, ⟨?_, rfl⟩, ⟨hcount.symm, hok⟩, rfl⟩
    rw [hcount, List.length_append, flatMap_prefixBytes_length]
    omega

theorem decodePrefix_reads : Reader.Reads PREFIX_IPV4_WIRE_SIZE decodePrefix :=
  (Reader.Reads.block 4).bind fun _ => Reader.Reads.item.bind fun _ =>
    (Reader.Reads.check _ _).bind fun _ => Reader.Reads.pure _

theorem decodePrefixes_safeFrom : Reader.SafeFrom 2 decodePrefixes :=
  .read (n := 0) be16_reads fun count =>
    ((decodePrefix_reads.counted count.toNat).safeFrom.need .InvalidCommand).safeFrom

/-! ### VRF requests -/

def encodeVrfsRequest (vr : VrfsRequest) : Except (Fault CmdError) Bytes :=
  if vr.prefixes.length > 0xFFFF then .error (.error .InvalidField)
  else do
    let prefixes ← encodePrefixes vr.prefixes
    pure (vr.vrfs_name.items ++ (vr.iface_name.items ++ (vr.nexthop_addr_ipv4.items ++
      (writeBe32 vr.nexthop_id_ipv4 ++ prefixes))))

def encodeVrfsRouteRequest (req : VrfsRouteRequest) : Except (Fault CmdError) Bytes := do
  let out ← writeAll encodeVrfsRequest req.vrfs_requests
  pure (SINGLE_ROUTE :: out)

def decodeVrfsRequest : Reader UInt8 CmdError VrfsRequest := do
  Reader.need VRFS_REQUEST_FIXED_SIZE .InvalidCommand
  let vrfs_name ← Reader.block VRFS_NAME_SIZE
  let iface_name ← Reader.block IFACE_NAME_SIZE
  let nexthop_addr_ipv4 ← Reader.block 4
  let nexthop_id_ipv4 ← be32
  let prefixes ← decodePrefixes
  pure ⟨vrfs_name, iface_name, nexthop_addr_ipv4, nexthop_id_ipv4, prefixes⟩

def decodeVrfsRouteRequest (raw : Bytes) : Except (Fault CmdError) VrfsRouteRequest :=
  if raw = [] then .error (.error .InvalidCommand)
  else do
    let type ← readAt raw 0
    if type ≠ SINGLE_ROUTE then .error (.error .InvalidCommand)
    else do
      let (vrfs_requests, _) ← Reader.untilEnd decodeVrfsRequest (raw.drop 1)
      pure ⟨vrfs_requests⟩

def vrfsRequestBytes (vr : VrfsRequest) : Bytes :=
  vr.vrfs_name.items ++ (vr.iface_name.items ++ (vr.nexthop_addr_ipv4.items ++
    (writeBe32 vr.nexthop_id_ipv4 ++ prefixesBytes vr.prefixes)))

def VrfsRequest.Valid (vr : VrfsRequest) : Prop := PrefixesOk vr.prefixes

/-- The requests `encode_vrfs_route_request` takes. -/
def VrfsRouteRequest.Valid (req : VrfsRouteRequest) : Prop := ∀ vr ∈ req.vrfs_requests, vr.Valid

def vrfsRouteRequestBytes (req : VrfsRouteRequest) : Bytes :=
  SINGLE_ROUTE :: req.vrfs_requests.flatMap vrfsRequestBytes

theorem vrfsRequestBytes_length (vr : VrfsRequest) :
    (vrfsRequestBytes vr).length =
      VRFS_REQUEST_FIXED_SIZE + vr.prefixes.length * PREFIX_IPV4_WIRE_SIZE := by
  simp only [vrfsRequestBytes, prefixesBytes, List.length_append, vr.vrfs_name.length_eq,
    vr.iface_name.length_eq, vr.nexthop_addr_ipv4.length_eq, writeBe32_length, writeBe16_length,
    flatMap_prefixBytes_length, VRFS_NAME_SIZE, IFACE_NAME_SIZE, VRFS_REQUEST_FIXED_SIZE]
  omega

theorem encodeVrfsRequest_writes : Writes encodeVrfsRequest vrfsRequestBytes VrfsRequest.Valid := by
  intro vr out
  rw [VrfsRequest.Valid, PrefixesOk, encodeVrfsRequest, ← not_lt]
  exact writes_check (writes_bind (fun _ => encodePrefixes_ok) _) out

theorem decodeVrfsRequest_parses : Parses decodeVrfsRequest vrfsRequestBytes VrfsRequest.Valid := by
  intro s vr t
  simp only [decodeVrfsRequest, Reader.bind_ok, Reader.need_ok, Reader.block_ok, be32_ok,
    Reader.pure_ok, decodePrefixes_parses _ _ _]
  refine ⟨?_, ?_⟩
  · rintro ⟨_, _, ⟨-, rfl⟩, name, _, rfl, iface, _, rfl, addr, _, rfl, id, _, rfl, prefixes, _,
      ⟨hok, rfl⟩, rfl, rfl⟩
    exact ⟨hok, by simp only [vrfsRequestBytes, List.append_assoc]⟩
  · rintro ⟨hok, rfl⟩
    refine ⟨(), _, ⟨?_, rfl⟩, vr.vrfs_name, _, ?_, vr.iface_name, _, rfl, vr.nexthop_addr_ipv4, _, rfl,
      vr.nexthop_id_ipv4, _, rfl, vr.prefixes, t, ⟨hok, rfl⟩, rfl, rfl⟩
    · rw [List.length_append, vrfsRequestBytes_length]
      omega
    · simp only [vrfsRequestBytes, List.append_assoc]

theorem decodeVrfsRequest_safe : Reader.Safe decodeVrfsRequest := by
  refine Reader.SafeFrom.need (n := 16 + (32 + (4 + (4 + 2)))) ?_ CmdError.InvalidCommand
  refine .read (.block 16) fun _ => .read (.block 32) fun _ => .read (.block 4) fun _ => ?_
  exact .read be32_reads fun _ => decodePrefixes_safeFrom.bind fun _ => .pure _

theorem decodeVrfsRequest_consumes : Reader.Consumes decodeVrfsRequest := by
  intro s vr t h
  obtain ⟨-, rfl⟩ := (decodeVrfsRequest_parses s vr t).mp h
  rw [List.length_append, vrfsRequestBytes_length, VRFS_REQUEST_FIXED_SIZE]
  omega

theorem encodeVrfsRouteRequest_writes :
    Writes encodeVrfsRouteRequest vrfsRouteRequestBytes VrfsRouteRequest.Valid := by
  intro req out
  exact writes_bind (encodeVrfsRequest_writes.all req.vrfs_requests) _ out

theorem vrfsRequestBytes_ne_nil (vr : VrfsRequest) : vrfsRequestBytes vr ≠ [] := by
  intro hnil
  have hlen := vrfsRequestBytes_length vr
  rw [hnil, List.length_nil, VRFS_REQUEST_FIXED_SIZE] at hlen
  omega

/-- `decode_vrfs_route_request` with any reader of its records. -/
def decodeVrfRecords (record : Reader UInt8 CmdError VrfsRequest) (raw : Bytes) :
    Except (Fault CmdError) VrfsRouteRequest :=
  if raw = [] then .error (.error .InvalidCommand)
  else do
    let type ← readAt raw 0
    if type ≠ SINGLE_ROUTE then .error (.error .InvalidCommand)
    else do
      let (vrfs_requests, _) ← Reader.untilEnd record (raw.drop 1)
      pure ⟨vrfs_requests⟩

/-- Behind the type byte stands the loop over the records. -/
theorem decodeVrfRecords_cons (record : Reader UInt8 CmdError VrfsRequest) (b : UInt8) (body : Bytes) :
    decodeVrfRecords record (b :: body) =
      if b ≠ SINGLE_ROUTE then .error (.error .InvalidCommand)
      else (Reader.untilEnd record body).map fun r => ⟨r.1⟩ := rfl

/-- What is accepted is what the reader of the records accepts. -/
theorem decodeVrfRecords_ok {record : Reader UInt8 CmdError VrfsRequest} {ok : VrfsRequest → Prop}
    (hrecord : Parses record vrfsRequestBytes ok) {raw : Bytes} {req : VrfsRouteRequest} :
    decodeVrfRecords record raw = .ok req ↔
      (∀ vr ∈ req.vrfs_requests, ok vr) ∧ raw = vrfsRouteRequestBytes req := by
  have hrun := fun body vrs t => hrecord.untilEnd (fun vr _ => vrfsRequestBytes_ne_nil vr) body vrs t
  refine ⟨fun h => ?_, ?_⟩
  · cases raw with
    | nil => cases h
    | cons b body =>
      rw [decodeVrfRecords_cons] at h
      split_ifs at h with hb
      rw [ne_eq, not_not] at hb
      cases hr : Reader.untilEnd record body with
      | error e => rw [hr] at h; cases h
      | ok r =>
        obtain ⟨vrs, t⟩ := r
        rw [hr] at h
        obtain rfl : ⟨vrs⟩ = req := Except.ok.inj h
        obtain ⟨-, hok, rfl⟩ := (hrun body vrs t).mp hr
        exact ⟨hok, by rw [hb]; rfl⟩
  · rintro ⟨hok, rfl⟩
    rw [vrfsRouteRequestBytes, decodeVrfRecords_cons, if_neg (by simp),
      (hrun _ req.vrfs_requests []).mpr ⟨rfl, hok, rfl⟩]
    rfl

theorem decodeVrfsRouteRequest_eq : decodeVrfsRouteRequest = decodeVrfRecords decodeVrfsRequest := rfl

/-- `decode_vrfs_route_request` accepts the encodings of valid requests. -/
theorem decodeVrfsRouteRequest_ok {raw : Bytes} {req : VrfsRouteRequest} :
    decodeVrfsRouteRequest raw = .ok req ↔ req.Valid ∧ raw = vrfsRouteRequestBytes req :=
  decodeVrfRecords_ok decodeVrfsRequest_parses

/-- `decode_vrfs_route_request` ends and never reads outside the payload. -/
theorem decodeVrfsRouteRequest_safe {raw : Bytes} {f : Fault CmdError}
    (h : decodeVrfsRouteRequest raw = .error f) : ∃ e, f = .error e := by
  cases raw with
  | nil => exact ⟨_, (Except.error.inj h).symm⟩
  | cons b body =>
    rw [decodeVrfsRouteRequest_eq, decodeVrfRecords_cons] at h
    split_ifs at h
    · exact ⟨_, (Except.error.inj h).symm⟩
    · refine decodeVrfsRequest_safe.untilEnd decodeVrfsRequest_consumes body f ?_
      cases hr : Reader.untilEnd decodeVrfsRequest body with
      | error e => rw [hr] at h; exact congrArg _ (Except.error.inj h)
      | ok r => rw [hr] at h; cases h

theorem decodeVrfsRouteRequest_bytes {req : VrfsRouteRequest} (h : req.Valid) :
    decodeVrfsRouteRequest (vrfsRouteRequestBytes req) = .ok req :=
  decodeVrfsRouteRequest_ok.mpr ⟨h, rfl⟩

/-- **One payload per request, one request per payload.** -/
theorem vrfsRouteRequest_codec (req : VrfsRouteRequest) (raw : Bytes) :
    encodeVrfsRouteRequest req = .ok raw ↔ decodeVrfsRouteRequest raw = .ok req := by
  rw [encodeVrfsRouteRequest_writes req raw, decodeVrfsRouteRequest_ok]

/-! ### Interface requests -/

def encodeInterface (iface : Interface) : Except (Fault CmdError) Bytes :=
  if iface.prefixes.length > 0xFFFF then .error (.error .InvalidField)
  else do
    let prefixes ← encodePrefixes iface.prefixes
    pure (iface.iface_name.items ++ (iface.nexthop_addr_ipv4.items ++
      (writeBe32 iface.nexthop_id_ipv4 ++ prefixes)))

def encodeRouteAddPayload (req : SingleRouteRequest) : Except (Fault CmdError) Bytes :=
  if req.interfaces.length > 0xFFFF then .error (.error .InvalidField)
  else do
    let out ← writeAll encodeInterface req.interfaces
    pure (INTERFACE_ROUTE :: (writeBe16 (UInt16.ofNat req.interfaces.length) ++ out))

/-- The requests `encode_route_add_payload` takes. -/
def SingleRouteRequest.Valid (req : SingleRouteRequest) : Prop :=
  req.interfaces.length ≤ 0xFFFF ∧ ∀ iface ∈ req.interfaces, PrefixesOk iface.prefixes

def interfaceBytes (iface : Interface) : Bytes :=
  iface.iface_name.items ++ (iface.nexthop_addr_ipv4.items ++
    (writeBe32 iface.nexthop_id_ipv4 ++ prefixesBytes iface.prefixes))

def routeAddPayloadBytes (req : SingleRouteRequest) : Bytes :=
  INTERFACE_ROUTE :: (writeBe16 (UInt16.ofNat req.interfaces.length) ++
    req.interfaces.flatMap interfaceBytes)

theorem encodeInterface_writes :
    Writes encodeInterface interfaceBytes (fun iface => PrefixesOk iface.prefixes) := by
  intro iface out
  show _ ↔ (iface.prefixes.length ≤ 0xFFFF ∧ ∀ p ∈ iface.prefixes, p.Valid) ∧ _
  rw [encodeInterface, ← not_lt]
  exact writes_check (writes_bind (fun _ => encodePrefixes_ok) _) out

theorem encodeRouteAddPayload_writes :
    Writes encodeRouteAddPayload routeAddPayloadBytes SingleRouteRequest.Valid := by
  intro req out
  rw [SingleRouteRequest.Valid, encodeRouteAddPayload, ← not_lt]
  exact writes_check (writes_bind (encodeInterface_writes.all req.interfaces) _) out

def decodeInterface : Reader UInt8 CmdError Interface := do
  Reader.need INTERFACE_FIXED_SIZE .InvalidCommand
  let iface_name ← Reader.block IFACE_NAME_SIZE
  let nexthop_addr_ipv4 ← Reader.block 4
  let nexthop_id_ipv4 ← be32
  let prefixes ← decodePrefixes
  pure ⟨iface_name, nexthop_addr_ipv4, nexthop_id_ipv4, prefixes⟩

/-- The loop runs `iface_count` times; nothing looks at what is left behind the last record. -/
def decodeRouteAddPayload (raw : Bytes) : Except (Fault CmdError) SingleRouteRequest :=
  if raw.length < 3 then .error (.error .InvalidCommand)
  else do
    let type ← readAt raw 0
    if type ≠ INTERFACE_ROUTE then .error (.error .InvalidCommand)
    else do
      let iface_count ← readBe16 raw 1
      let (interfaces, _) ← Reader.counted decodeInterface iface_count.toNat (raw.drop 3)
      pure ⟨interfaces⟩

theorem interfaceBytes_length (iface : Interface) :
    (interfaceBytes iface).length =
      INTERFACE_FIXED_SIZE + iface.prefixes.length * PREFIX_IPV4_WIRE_SIZE := by
  simp only [interfaceBytes, prefixesBytes, List.length_append, iface.iface_name.length_eq,
    iface.nexthop_addr_ipv4.length_eq, writeBe32_length, writeBe16_length,
    flatMap_prefixBytes_length, IFACE_NAME_SIZE, INTERFACE_FIXED_SIZE]
  omega

theorem decodeInterface_parses :
    Parses decodeInterface interfaceBytes (fun iface => PrefixesOk iface.prefixes) := by
  intro s iface t
  simp only [decodeInterface, Reader.bind_ok, Reader.need_ok, Reader.block_ok, be32_ok,
    Reader.pure_ok, decodePrefixes_parses _ _ _]
  refine ⟨?_, ?_⟩
  · rintro ⟨_, _, ⟨-, rfl⟩, name, _, rfl, addr, _, rfl, id, _, rfl, prefixes, _, ⟨hok, rfl⟩, rfl, rfl⟩
    exact ⟨hok, by simp only [interfaceBytes, List.append_assoc]⟩
  · rintro ⟨hok, rfl⟩
    refine ⟨(), _, ⟨?_, rfl⟩, iface.iface_name, _, ?_, iface.nexthop_addr_ipv4, _, rfl,
      iface.nexthop_id_ipv4, _, rfl, iface.prefixes, t, ⟨hok, rfl⟩, rfl, rfl⟩
    · rw [List.length_append, interfaceBytes_length]
      omega
    · simp only [interfaceBytes, List.append_assoc]

/-- `decode_route_add_payload` with any reader of its records. -/
def decodeInterfaceRecords (record : Reader UInt8 CmdError Interface) (raw : Bytes) :
    Except (Fault CmdError) SingleRouteRequest :=
  if raw.length < 3 then .error (.error .InvalidCommand)
  else do
    let type ← readAt raw 0
    if type ≠ INTERFACE_ROUTE then .error (.error .InvalidCommand)
    else do
      let iface_count ← readBe16 raw 1
      let (interfaces, _) ← Reader.counted record iface_count.toNat (raw.drop 3)
      pure ⟨interfaces⟩

/-- Behind the type byte and the count stands the counted loop. -/
theorem decodeInterfaceRecords_header (record : Reader UInt8 CmdError Interface) (b : UInt8)
    (iface_count : UInt16) (body : Bytes) :
    decodeInterfaceRecords record (b :: (writeBe16 iface_count ++ body)) =
      if b ≠ INTERFACE_ROUTE then .error (.error .InvalidCommand)
      else (Reader.counted record iface_count.toNat body).map fun r => ⟨r.1⟩ := by
  have hread : (readBe16 (b :: (writeBe16 iface_count ++ body)) 1 : Except (Fault CmdError) _) =
      .ok iface_count := readBe16_of_drop rfl
  have hdrop : (b :: (writeBe16 iface_count ++ body)).drop 3 = body := rfl
  rw [decodeInterfaceRecords, if_neg (by simp), hread, hdrop]
  rfl

/-- What is accepted is what the reader of the records accepts, whatever follows the last one. -/
theorem decodeInterfaceRecords_ok {record : Reader UInt8 CmdError Interface} {ok : Interface → Prop}
    (hrecord : Parses record interfaceBytes ok) {raw : Bytes} {req : SingleRouteRequest} :
    decodeInterfaceRecords record raw = .ok req ↔
      (req.interfaces.length ≤ 0xFFFF ∧ ∀ iface ∈ req.interfaces, ok iface) ∧
        ∃ rest, raw = routeAddPayloadBytes req ++ rest := by
  refine ⟨fun h => ?_, ?_⟩
  · have hmin : ¬ raw.length < 3 := fun hlt => by
      rw [decodeInterfaceRecords, if_pos hlt] at h
      cases h
    obtain ⟨b, s, rfl⟩ := List.exists_cons_of_length_pos (l := raw) (by omega)
    obtain ⟨iface_count, body, rfl⟩ := exists_be16 (s := s) (by simpa using hmin)
    rw [decodeInterfaceRecords_header] at h
    split_ifs at h with hb
    rw [ne_eq, not_not] at hb
    cases hr : Reader.counted record iface_count.toNat body with
    | error e => rw [hr] at h; cases h
    | ok r =>
      obtain ⟨interfaces, rest⟩ := r
      rw [hr] at h
      obtain rfl : ⟨interfaces⟩ = req := Except.ok.inj h
      obtain ⟨⟨hlen, hok⟩, rfl⟩ := (hrecord.counted _ _ _ _).mp hr
      have hcount := iface_count.toNat_lt
      refine ⟨⟨?_, hok⟩, rest, ?_⟩
      · show interfaces.length ≤ 0xFFFF
        omega
      · simp [routeAddPayloadBytes, hb, hlen]
  · rintro ⟨⟨hlen, hok⟩, rest, rfl⟩
    have hcount : (UInt16.ofNat req.interfaces.length).toNat = req.interfaces.length := by
      rw [UInt16.toNat_ofNat', Nat.mod_eq_of_lt (by omega)]
    have hshape : routeAddPayloadBytes req ++ rest = INTERFACE_ROUTE ::
        (writeBe16 (UInt16.ofNat req.interfaces.length) ++
          (req.interfaces.flatMap interfaceBytes ++ rest)) := by
      simp [routeAddPayloadBytes]
    rw [hshape, decodeInterfaceRecords_header, if_neg (by simp), hcount,
      (hrecord.counted _ _ req.interfaces rest).mpr ⟨⟨rfl, hok⟩, rfl⟩]
    rfl

theorem decodeRouteAddPayload_eq : decodeRouteAddPayload = decodeInterfaceRecords decodeInterface := rfl

/-- `decode_route_add_payload` accepts the encodings of valid requests, whatever follows them. -/
theorem decodeRouteAddPayload_ok {raw : Bytes} {req : SingleRouteRequest} :
    decodeRouteAddPayload raw = .ok req ↔
      req.Valid ∧ ∃ rest, raw = routeAddPayloadBytes req ++ rest :=
  decodeInterfaceRecords_ok decodeInterface_parses

/-- **An interface request is decoded to what was encoded**: every interface, with its name, its nexthop and
its prefixes, in order. -/
theorem routeAddPayload_round_trip {req : SingleRouteRequest} {raw : Bytes}
    (h : encodeRouteAddPayload req = .ok raw) : decodeRouteAddPayload raw = .ok req := by
  obtain ⟨hvalid, rfl⟩ := (encodeRouteAddPayload_writes req raw).mp h
  exact decodeRouteAddPayload_ok.mpr ⟨hvalid, [], (List.append_nil _).symm⟩

/-- Two interfaces, the first with two prefixes and the second without any. -/
theorem routeAddPayload_round_trip_two :
    let req : SingleRouteRequest := ⟨[
      ⟨.replicate _ 0x65, ipv4 10 0 0 1, 7, [⟨ipv4 10 1 0 0, 16⟩, ⟨ipv4 0 0 0 0, 0⟩]⟩,
      ⟨.replicate _ 0, ipv4 0 0 0 0, 0, []⟩]⟩
    decodeRouteAddPayload (routeAddPayloadBytes req) = .ok req :=
  routeAddPayload_round_trip (by decide)

theorem decodeInterface_safe : Reader.Safe decodeInterface := by
  refine Reader.SafeFrom.need (n := 32 + (4 + (4 + 2))) ?_ CmdError.InvalidCommand
  refine .read (.block 32) fun _ => .read (.block 4) fun _ => .read be32_reads fun _ => ?_
  exact decodePrefixes_safeFrom.bind fun _ => .pure _

/-- `decode_route_add_payload` never reads outside the payload. -/
theorem decodeRouteAddPayload_safe {raw : Bytes} {f : Fault CmdError}
    (h : decodeRouteAddPayload raw = .error f) : ∃ e, f = .error e := by
  by_cases hmin : raw.length < 3
  · rw [decodeRouteAddPayload, if_pos hmin] at h
    exact ⟨_, (Except.error.inj h).symm⟩
  · obtain ⟨b, s, rfl⟩ := List.exists_cons_of_length_pos (l := raw) (by omega)
    obtain ⟨iface_count, body, rfl⟩ := exists_be16 (s := s) (by simpa using hmin)
    rw [decodeRouteAddPayload_eq, decodeInterfaceRecords_header] at h
    split_ifs at h
    · exact ⟨_, (Except.error.inj h).symm⟩
    · refine decodeInterface_safe.counted iface_count.toNat body f ?_
      cases hr : Reader.counted decodeInterface iface_count.toNat body with
      | error e => rw [hr] at h; exact congrArg _ (Except.error.inj h)
      | ok r => rw [hr] at h; cases h

/-- A whole well-formed payload with at least one byte behind it. -/
def TrailingBytes (raw : Bytes) : Prop :=
  ∃ (req : SingleRouteRequest) (rest : Bytes), req.Valid ∧ rest ≠ [] ∧
    raw = routeAddPayloadBytes req ++ rest

/-- **One encoding per interface request.**  `decode_route_add_payload` accepts only what
`encode_route_add_payload` writes exactly for the payloads without trailing bytes: with them it returns
the request in front and ignores the rest. -/
theorem routeAddPayload_canonical_iff (raw : Bytes) :
    (∀ req, decodeRouteAddPayload raw = .ok req → encodeRouteAddPayload req = .ok raw) ↔
      ¬ TrailingBytes raw := by
  refine ⟨?_, ?_⟩
  · rintro h ⟨req, rest, hvalid, hrest, rfl⟩
    have henc := (encodeRouteAddPayload_writes req _).mpr ⟨hvalid, rfl⟩
    have hback := h req (decodeRouteAddPayload_ok.mpr ⟨hvalid, rest, rfl⟩)
    rw [henc, Except.ok.injEq, List.self_eq_append_right] at hback
    exact hrest hback
  · intro htrail req hdec
    obtain ⟨hvalid, rest, rfl⟩ := decodeRouteAddPayload_ok.mp hdec
    have henc := (encodeRouteAddPayload_writes req _).mpr ⟨hvalid, rfl⟩
    have hrest : rest = [] := by
      by_contra hne
      exact htrail ⟨req, rest, hvalid, hne, rfl⟩
    rw [hrest, List.append_nil]
    exact henc

/-- A request without interfaces and one byte too many: accepted, and encoded again without it. -/
theorem routeAddPayload_trailing_byte :
    decodeRouteAddPayload [2, 0, 0, 0] = .ok ⟨[]⟩ ∧
      encodeRouteAddPayload ⟨[]⟩ = .ok [2, 0, 0] ∧
      ¬ ∀ raw req, decodeRouteAddPayload raw = .ok req → encodeRouteAddPayload req = .ok raw := by
  refine ⟨by decide, by decide, fun h => ?_⟩
  have hback := h [2, 0, 0, 0] ⟨[]⟩ (by decide)
  exact absurd hback (by decide)

/-! ### VRF responses -/

def decodeVrfsAnswer : Reader UInt8 CmdError VrfsAnswer := do
  Reader.need VRFS_ANSWER_WIRE_SIZE .InvalidCommand
  let vrfs_name ← Reader.block VRFS_NAME_SIZE
  let status ← Reader.item
  pure ⟨vrfs_name, status &&& 0x01 ≠ 0⟩

def decodeVrfsRouteResponse (raw : Bytes) : Except (Fault CmdError) VrfsRouteResponse :=
  if raw = [] then .error (.error .InvalidCommand)
  else do
    let status_code ← readAt raw 0
    let (answers, _) ← Reader.untilEnd decodeVrfsAnswer (raw.drop 1)
    pure ⟨status_code, answers⟩

def vrfsAnswerBytes (ans : VrfsAnswer) : Bytes :=
  ans.vrfs_name.items ++ [if ans.prefix_status then 0x01 else 0x00]

def encodeVrfsRouteResponse (resp : VrfsRouteResponse) : Except (Fault CmdError) Bytes :=
  .ok (resp.status_code :: resp.answers.flatMap vrfsAnswerBytes)

theorem decodeVrfsAnswer_safe : Reader.Safe decodeVrfsAnswer := by
  refine Reader.SafeFrom.need (n := 16 + (1 + 0)) ?_ CmdError.InvalidCommand
  exact .read (.block 16) fun _ => .read .item fun _ => (Reader.Safe.pure _).safeFrom

/-- A successful read of an answer takes its name and one byte. -/
theorem decodeVrfsAnswer_ok {s t : Bytes} {ans : VrfsAnswer} :
    decodeVrfsAnswer s = .ok (ans, t) ↔
      ∃ status, s = ans.vrfs_name.items ++ status :: t ∧
        ans.prefix_status = decide (status &&& 0x01 ≠ 0) := by
  simp only [decodeVrfsAnswer, Reader.bind_ok, Reader.need_ok, Reader.block_ok, Reader.item_ok,
    Reader.pure_ok]
  refine ⟨?_, ?_⟩
  · rintro ⟨_, _, ⟨-, rfl⟩, name, _, rfl, status, _, rfl, rfl, rfl⟩
    exact ⟨status, rfl, rfl⟩
  · rintro ⟨status, rfl, hstatus⟩
    refine ⟨(), _, ⟨?_, rfl⟩, ans.vrfs_name, _, rfl, status, t, rfl, ?_, rfl⟩
    · rw [List.length_append, ans.vrfs_name.length_eq, List.length_cons, VRFS_ANSWER_WIRE_SIZE,
        VRFS_NAME_SIZE]
      omega
    · rw [← hstatus]

theorem decodeVrfsAnswer_consumes : Reader.Consumes decodeVrfsAnswer := by
  intro s ans t h
  obtain ⟨status, rfl, -⟩ := decodeVrfsAnswer_ok.mp h
  rw [List.length_append, List.length_cons]
  omega

/-- A name with the byte behind it, as an answer is written. -/
def answerRecord (r : VrfsName × UInt8) : Bytes := r.1.items ++ [r.2]

/-- Only the lowest bit of the byte counts. -/
def answerOf (r : VrfsName × UInt8) : VrfsAnswer := ⟨r.1, r.2 &&& 0x01 ≠ 0⟩

theorem decodeVrfsAnswer_views : Views decodeVrfsAnswer answerRecord answerOf := by
  intro s ans t
  rw [decodeVrfsAnswer_ok]
  constructor
  · rintro ⟨status, rfl, hstatus⟩
    refine ⟨(ans.vrfs_name, status), by simp [answerRecord], ?_⟩
    rw [answerOf, ← hstatus]
  · rintro ⟨⟨name, status⟩, rfl, rfl⟩
    exact ⟨status, by simp [answerRecord, answerOf], rfl⟩

/-- A response is its status byte and whole answers. -/
theorem decodeVrfsRouteResponse_ok {raw : Bytes} {resp : VrfsRouteResponse} :
    decodeVrfsRouteResponse raw = .ok resp ↔
      ∃ records : List (VrfsName × UInt8),
        raw = resp.status_code :: records.flatMap answerRecord ∧ records.map answerOf = resp.answers := by
  have hrun := fun body as t => decodeVrfsAnswer_views.untilEnd (fun r => by simp [answerRecord]) body as t
  cases raw with
  | nil =>
    refine iff_of_false (fun h => ?_) (by simp)
    cases h
  | cons status body =>
    have hread : decodeVrfsRouteResponse (status :: body) =
        (Reader.untilEnd decodeVrfsAnswer body).map fun r => ⟨status, r.1⟩ := rfl
    rw [hread]
    constructor
    · intro h
      cases hr : Reader.untilEnd decodeVrfsAnswer body with
      | error f =>
        rw [hr] at h
        cases h
      | ok r =>
        rw [hr] at h
        obtain rfl := Except.ok.inj h
        obtain ⟨-, records, rfl, hmap⟩ := (hrun body r.1 r.2).mp hr
        exact ⟨records, rfl, hmap⟩
    · rintro ⟨records, heq, hmap⟩
      obtain ⟨rfl, rfl⟩ := List.cons.inj heq
      rw [(hrun _ resp.answers []).mpr ⟨rfl, records, rfl, hmap⟩]
      rfl

/-- The byte that is written for an answer. -/
def answerByte (ans : VrfsAnswer) : UInt8 := if ans.prefix_status then 0x01 else 0x00

theorem answerOf_written (ans : VrfsAnswer) : answerOf (ans.vrfs_name, answerByte ans) = ans := by
  have hbit : ∀ status : Bool, decide ((if status then 0x01 else 0x00 : UInt8) &&& 0x01 ≠ 0) = status := by
    decide
  exact congrArg (VrfsAnswer.mk ans.vrfs_name) (hbit ans.prefix_status)

/-- A response is read back as it was written. -/
theorem decode_encode_vrfsRouteResponse (resp : VrfsRouteResponse) :
    ∃ raw, encodeVrfsRouteResponse resp = .ok raw ∧ decodeVrfsRouteResponse raw = .ok resp := by
  refine ⟨_, rfl, decodeVrfsRouteResponse_ok.mpr
    ⟨resp.answers.map fun ans => (ans.vrfs_name, answerByte ans), ?_, ?_⟩⟩
  · rw [List.flatMap_map]
    rfl
  · rw [List.map_map]
    exact (List.map_congr_left fun ans _ => answerOf_written ans).trans (List.map_id _)

/-! ### The reply to an interface request -/

structure RouteAddBinaryResponse where
  status_code : UInt8
  prefix_status : List Bool
  deriving DecidableEq, Repr

/-- The eight flags of a byte, the lowest bit first. -/
def statusBits (b : UInt8) : List Bool :=
  (List.range 8).map fun bit => (b >>> UInt8.ofNat bit) &&& 1 ≠ 0

/-- One round of the loop over the status bytes. -/
def decodeStatusByte : Reader UInt8 CmdError (List Bool) := do
  let b ← Reader.item
  pure (statusBits b)

def decodeRouteAddBinaryResponse (raw : Bytes) : Except (Fault CmdError) RouteAddBinaryResponse :=
  if raw = [] then .error (.error .InvalidCommand)
  else do
    let status_code ← readAt raw 0
    let (prefix_status, _) ← Reader.untilEnd decodeStatusByte (raw.drop 1)
    pure ⟨status_code, prefix_status.flatten⟩

theorem decodeStatusByte_ok {s t : Bytes} {flags : List Bool} :
    decodeStatusByte s = .ok (flags, t) ↔ ∃ b, s = b :: t ∧ statusBits b = flags := by
  simp only [decodeStatusByte, Reader.bind_ok, Reader.item_ok, Reader.pure_ok]
  refine ⟨?_, ?_⟩
  · rintro ⟨b, _, rfl, rfl, rfl⟩
    exact ⟨b, rfl, rfl⟩
  · rintro ⟨b, rfl, rfl⟩
    exact ⟨b, t, rfl, rfl, rfl⟩

theorem decodeStatusByte_safeFrom : Reader.SafeFrom 1 decodeStatusByte :=
  .read (n := 0) .item fun _ => (Reader.Safe.pure _).safeFrom

theorem decodeStatusByte_consumes : Reader.Consumes decodeStatusByte := by
  intro s flags t h
  obtain ⟨b, rfl, -⟩ := decodeStatusByte_ok.mp h
  exact Nat.lt_succ_self _

/-! ### Command builders -/

/-- The builder drops the error of the payload encoder and keeps the payload empty. -/
def makeRouteAddVrfs (req : VrfsRouteRequest) : Command where
  cmd_id := .ROUTE_ADD
  fields := []
  raw_payload :=
    match encodeVrfsRouteRequest req with
    | .ok bytes => bytes
    | .error _ => []

def makeRouteAddBinary (req : SingleRouteRequest) : Command where
  cmd_id := .ROUTE_ADD
  fields := []
  raw_payload :=
    match encodeRouteAddPayload req with
    | .ok bytes => bytes
    | .error _ => []

/-- The command of a refused payload: a ROUTE_ADD header with size zero. -/
def emptyRouteAdd : Command := ⟨.ROUTE_ADD, [], []⟩

theorem makeRouteAddVrfs_of_valid {req : VrfsRouteRequest} (h : req.Valid) :
    makeRouteAddVrfs req = ⟨.ROUTE_ADD, [], vrfsRouteRequestBytes req⟩ := by
  rw [makeRouteAddVrfs, (encodeVrfsRouteRequest_writes req _).mpr ⟨h, rfl⟩]

theorem makeRouteAddVrfs_of_refused {req : VrfsRouteRequest} {e : Fault CmdError}
    (h : encodeVrfsRouteRequest req = .error e) : makeRouteAddVrfs req = emptyRouteAdd := by
  rw [makeRouteAddVrfs, h]
  rfl

theorem makeRouteAddBinary_of_refused {req : SingleRouteRequest} {e : Fault CmdError}
    (h : encodeRouteAddPayload req = .error e) : makeRouteAddBinary req = emptyRouteAdd := by
  rw [makeRouteAddBinary, h]
  rfl

theorem encodeCommand_of_payload {cmd : Command} (h : cmd.raw_payload ≠ []) :
    encodeCommand cmd = .ok (commandBytes cmd) := if_pos h

theorem encodeCommand_emptyRouteAdd : encodeCommand emptyRouteAdd = .ok [0x01, 0x00, 0x00] := rfl

end Rtsrv.CmdProto
