import Rtsrv.Wire.RoutePayload

/-!
# Rtsrv.Wire.RouteParams — the TLV form of ROUTE_ADD (`unix_domain/lib/cmd_proto.cpp`)

`make_route_add` writes its parameters as TLV fields, `parse_route_add` reads them back.  The command
identifier is shared with the two binary forms of `RoutePayload`; `routeAdd_forms_distinct` says that
none of the three decoders takes what another form's encoder wrote.
-/

namespace Rtsrv.CmdProto

open Lib

inductive FieldId where
  | DST_ADDR
  | PREFIX_LEN
  | GATEWAY
  | IF_NAME
  | METRIC
  deriving DecidableEq, Repr

def FieldId.toByte : FieldId → UInt8
  | .DST_ADDR => 0x01
  | .PREFIX_LEN => 0x02
  | .GATEWAY => 0x03
  | .IF_NAME => 0x04
  | .METRIC => 0x05

structure RouteAddParams where
  dst_addr : Ipv4Addr
  prefix_len : UInt8
  gateway : Ipv4Addr
  if_name : Bytes
  metric : UInt16
  deriving DecidableEq, Repr

/-- The metric field is left out when it is zero. -/
def metricFields (metric : UInt16) : List Field :=
  if metric ≠ 0 then [⟨FieldId.METRIC.toByte, writeBe16 metric⟩] else []

def makeRouteAdd (p : RouteAddParams) : Command where
  cmd_id := .ROUTE_ADD
  fields :=
    [⟨FieldId.DST_ADDR.toByte, p.dst_addr.items⟩,
     ⟨FieldId.PREFIX_LEN.toByte, [p.prefix_len]⟩,
     ⟨FieldId.GATEWAY.toByte, p.gateway.items⟩,
     ⟨FieldId.IF_NAME.toByte, p.if_name⟩] ++ metricFields p.metric
  raw_payload := []

/-- The first field with the identifier. -/
def findField (cmd : Command) (id : FieldId) : Option Field :=
  cmd.fields.find? (·.field_id = id.toByte)

def mandatoryField (cmd : Command) (id : FieldId) : Except CmdError Field :=
  match findField cmd id with
  | none => .error .MissingField
  | some f => .ok f

def Field.addr (f : Field) : Except CmdError Ipv4Addr :=
  if h : f.data.length = 4 then .ok ⟨f.data, h⟩ else .error .InvalidField

def Field.prefixLen (f : Field) : Except CmdError UInt8 :=
  match f.data with
  | [b] => if b > 32 then .error .InvalidField else .ok b
  | _ => .error .InvalidField

def Field.ifName (f : Field) : Except CmdError Bytes :=
  if f.data = [] then .error .InvalidField else .ok f.data

def Field.metric (f : Field) : Except CmdError UInt16 :=
  match f.data with
  | [b0, b1] => .ok (joinBe16 b0 b1)
  | _ => .error .InvalidField

def parseRouteAdd (cmd : Command) : Except CmdError RouteAddParams := do
  let dst ← mandatoryField cmd .DST_ADDR
  let dst_addr ← dst.addr
  let pfx ← mandatoryField cmd .PREFIX_LEN
  let prefix_len ← pfx.prefixLen
  let gw ← mandatoryField cmd .GATEWAY
  let gateway ← gw.addr
  let ifn ← mandatoryField cmd .IF_NAME
  let if_name ← ifn.ifName
  let metric ←
    match findField cmd .METRIC with
    | none => pure 0
    | some met => met.metric
  pure ⟨dst_addr, prefix_len, gateway, if_name, metric⟩

/-! ### The TLV form is no binary form -/

/-- The payload of `encode_command(make_route_add(p))`. -/
def routeAddTlv (p : RouteAddParams) : Bytes := (makeRouteAdd p).fields.flatMap encodeField

def metricBytes (metric : UInt16) : Bytes := (metricFields metric).flatMap encodeField

/-- The fields in front of the name fill a VRF name exactly. -/
theorem routeAddTlv_shape (p : RouteAddParams) :
    ∃ name : VrfsName, routeAddTlv p =
      SINGLE_ROUTE :: (name.items ++ (p.if_name ++ metricBytes p.metric)) := by
  have hdst := p.dst_addr.length_eq
  have hgw := p.gateway.length_eq
  refine ⟨⟨4 :: (p.dst_addr.items ++ (2 :: 1 :: p.prefix_len :: 3 :: 4 :: (p.gateway.items ++
    [4, UInt8.ofNat p.if_name.length]))), ?_⟩, ?_⟩
  · simp [hdst, hgw, VRFS_NAME_SIZE]
  · simp [routeAddTlv, makeRouteAdd, metricBytes, encodeField, hdst, hgw, FieldId.toByte,
      SINGLE_ROUTE]

theorem metricBytes_of_ne {metric : UInt16} (h : metric ≠ 0) :
    metricBytes metric = 5 :: 2 :: writeBe16 metric := by
  simp [metricBytes, metricFields, h, encodeField, FieldId.toByte]

theorem metricBytes_zero : metricBytes 0 = [] := rfl

theorem metricBytes_length_le (metric : UInt16) : (metricBytes metric).length ≤ 4 := by
  by_cases hm : metric = 0
  · simp [hm, metricBytes_zero]
  · simp [metricBytes_of_ne hm]

theorem encodeFields_length (fields : List Field) :
    (fields.flatMap encodeField).length =
      (fields.map fun f => FIELD_HEADER_SIZE + f.data.length).sum := by
  induction fields with
  | nil => rfl
  | cons f fields ih =>
    rw [List.flatMap_cons, List.length_append, ih, List.map_cons, List.sum_cons, encodeField,
      FIELD_HEADER_SIZE]
    simp only [List.length_cons]
    omega

theorem routeAddTlv_length (p : RouteAddParams) :
    (routeAddTlv p).length = 17 + p.if_name.length + (metricBytes p.metric).length := by
  obtain ⟨name, hshape⟩ := routeAddTlv_shape p
  have hname : name.items.length = 16 := name.length_eq
  rw [hshape, List.length_cons, List.length_append, List.length_append, hname]
  omega

/-- The size field of the command counts its fields. -/
theorem encodeCommand_makeRouteAdd {p : RouteAddParams} (hlen : p.if_name.length ≤ 255) :
    ∃ data_len, encodeCommand (makeRouteAdd p) =
        .ok (CmdId.ROUTE_ADD.toByte :: (writeBe16 data_len ++ routeAddTlv p)) ∧
      data_len.toNat = (routeAddTlv p).length := by
  refine ⟨_, rfl, ?_⟩
  have hmetric := metricBytes_length_le p.metric
  have hsize := routeAddTlv_length p
  rw [← encodeFields_length, ← routeAddTlv, UInt16.toNat_ofNat', Nat.mod_eq_of_lt (by omega)]

/-- A count below 256 has a zero byte in front. -/
theorem writeBe16_small {n : UInt16} (h : n.toNat < 256) : (n >>> 8).toUInt8 = 0 := by
  rw [← UInt8.toNat_inj]
  simp only [UInt16.toNat_toUInt8, UInt16.toNat_shiftRight, UInt16.reduceToNat, Nat.reduceMod,
    Nat.shiftRight_eq_div_pow, UInt8.toNat_zero]
  omega

/-- Behind forty bytes of a name and a metric stands no prefix count with its prefixes: a name has no
zero byte for the high half of the count, and the metric ends too early. -/
theorem name_metric_no_prefixes {name a b : Bytes} {metric n : UInt16}
    (hlen : name.length ≤ 255) (hnul : 0 ∉ name) (ha : a.length = 40)
    (hb : n.toNat * PREFIX_IPV4_WIRE_SIZE ≤ b.length) :
    name ++ metricBytes metric ≠ a ++ (writeBe16 n ++ b) := by
  intro heq
  have hsize := congrArg List.length heq
  simp only [List.length_append, writeBe16_length, ha] at hsize
  have hmetric := metricBytes_length_le metric
  rw [PREFIX_IPV4_WIRE_SIZE] at hb
  have hzero : (name ++ metricBytes metric)[40]? = some 0 := by
    rw [heq, List.getElem?_append_right (by omega), ha]
    simp [writeBe16, writeBe16_small (n := n) (by omega)]
  by_cases hlong : 40 < name.length
  · rw [List.getElem?_append_left hlong] at hzero
    exact hnul (List.mem_of_getElem? hzero)
  · have hm : metric ≠ 0 := by
      rintro rfl
      rw [metricBytes_zero, List.length_nil] at hsize
      omega
    rw [metricBytes_of_ne hm] at hsize heq hzero
    simp only [List.length_cons, writeBe16_length] at hsize
    rw [List.getElem?_append_right (by omega)] at hzero
    have hcases : name.length = 38 ∨ name.length = 39 ∨ name.length = 40 := by omega
    rcases hcases with hname | hname | hname
    · -- the count would be the metric, which announces prefixes that are not there
      have hn : n = 0 := by
        rw [← UInt16.toNat_inj]
        show n.toNat = 0
        omega
      have hleft : (name ++ 5 :: 2 :: writeBe16 metric).drop 40 = writeBe16 metric := by
        rw [List.drop_append, List.drop_eq_nil_of_le (by omega), hname]
        rfl
      have hnil : b = [] := List.length_eq_zero_iff.mp (by omega)
      rw [heq, List.drop_left' ha, hnil, List.append_nil, hn] at hleft
      exact hm (writeBe16_injective hleft).symm
    · rw [hname] at hzero
      cases hzero
    · rw [hname] at hzero
      cases hzero

/-- The names `make_route_add` puts in one field without loss. -/
def IfNameOk (name : Bytes) : Prop := 1 ≤ name.length ∧ name.length ≤ 255 ∧ 0 ∉ name

theorem decodeVrfsRouteRequest_routeAddTlv {p : RouteAddParams} (h : IfNameOk p.if_name) :
    ∃ e, decodeVrfsRouteRequest (routeAddTlv p) = .error (.error e) := by
  obtain ⟨-, hlen, hnul⟩ := h
  obtain ⟨name, hshape⟩ := routeAddTlv_shape p
  rcases hdec : decodeVrfsRouteRequest (routeAddTlv p) with f | req
  · obtain ⟨e, rfl⟩ := decodeVrfsRouteRequest_safe hdec
    exact ⟨e, rfl⟩
  · exfalso
    obtain ⟨hvalid, hraw⟩ := decodeVrfsRouteRequest_ok.mp hdec
    rw [hshape, vrfsRouteRequestBytes] at hraw
    have hbody := (List.cons.inj hraw).2
    rcases hreqs : req.vrfs_requests with _ | ⟨vr, vrs⟩
    · have hname := name.length_eq
      rw [hreqs, List.flatMap_nil, List.append_eq_nil_iff] at hbody
      rw [hbody.1] at hname
      cases hname
    · obtain ⟨hcount, -⟩ : vr.Valid := hvalid vr (by simp [hreqs])
      have hn : (UInt16.ofNat vr.prefixes.length).toNat = vr.prefixes.length := by
        rw [UInt16.toNat_ofNat', Nat.mod_eq_of_lt (by omega)]
      rw [hreqs, List.flatMap_cons, vrfsRequestBytes, List.append_assoc] at hbody
      have htail := (List.append_inj hbody (by rw [name.length_eq, vr.vrfs_name.length_eq])).2
      refine name_metric_no_prefixes (n := UInt16.ofNat vr.prefixes.length)
        (a := vr.iface_name.items ++ (vr.nexthop_addr_ipv4.items ++ writeBe32 vr.nexthop_id_ipv4))
        (b := vr.prefixes.flatMap prefixBytes ++ vrs.flatMap vrfsRequestBytes)
        hlen hnul ?_ ?_ (htail.trans ?_)
      · simp [vr.iface_name.length_eq, vr.nexthop_addr_ipv4.length_eq, IFACE_NAME_SIZE]
      · rw [hn, List.length_append, flatMap_prefixBytes_length]
        omega
      · simp [prefixesBytes]

theorem decodeRouteAddPayload_routeAddTlv (p : RouteAddParams) :
    ∃ e, decodeRouteAddPayload (routeAddTlv p) = .error (.error e) := by
  rcases hdec : decodeRouteAddPayload (routeAddTlv p) with f | req
  · obtain ⟨e, rfl⟩ := decodeRouteAddPayload_safe hdec
    exact ⟨e, rfl⟩
  · obtain ⟨name, hshape⟩ := routeAddTlv_shape p
    obtain ⟨-, rest, hraw⟩ := decodeRouteAddPayload_ok.mp hdec
    rw [hshape, routeAddPayloadBytes] at hraw
    exact absurd (List.cons.inj hraw).1 (by decide)

/-! ### The VRF form is no TLV form -/

/-- A first field that is a destination of the wrong length stops `parse_route_add`. -/
theorem parseRouteAdd_first_field {cmd : Command} {f : Field} {fields : List Field}
    (hfields : cmd.fields = f :: fields) (hid : f.field_id = FieldId.DST_ADDR.toByte)
    (hlen : f.data.length ≠ 4) : parseRouteAdd cmd = .error .InvalidField := by
  have hfind : findField cmd .DST_ADDR = some f := by
    rw [findField, hfields, List.find?_cons_of_pos (by simp [hid])]
  simp only [parseRouteAdd, mandatoryField, hfind, ok_bind, Field.addr, dif_neg hlen]
  rfl

theorem parseRouteAdd_no_fields {cmd : Command} (hfields : cmd.fields = []) :
    parseRouteAdd cmd = .error .MissingField := by
  have hfind : findField cmd .DST_ADDR = none := by
    rw [findField, hfields]
    rfl
  simp only [parseRouteAdd, mandatoryField, hfind]
  rfl

/-- A payload that starts with the identifier of a destination but not with the length of one. -/
theorem parseRouteAdd_tlvFields {cmd : Command} {payload : Bytes}
    (hfields : cmd.fields = tlvFields payload) (hid : ∀ b ∈ payload.head?, b = SINGLE_ROUTE)
    (hlen : payload[1]? ≠ some 4) : ∃ e, parseRouteAdd cmd = .error e := by
  rcases payload with _ | ⟨id, _ | ⟨len, t⟩⟩
  · exact ⟨_, parseRouteAdd_no_fields hfields⟩
  · exact ⟨_, parseRouteAdd_no_fields hfields⟩
  · rcases tlvFields_cons id len t with hnil | ⟨data, fields, hdata, hcons⟩
    · exact ⟨_, parseRouteAdd_no_fields (hfields.trans hnil)⟩
    · refine ⟨_, parseRouteAdd_first_field (hfields.trans hcons) ?_ ?_⟩
      · exact hid id (by simp)
      · show data.length ≠ 4
        intro h4
        have h : len = 4 := by
          rw [← UInt8.toNat_inj, ← hdata]
          exact h4
        exact hlen (by simp [h])

/-- The first VRF name of the request, if there is one, does not start with the byte. -/
def FirstNameAvoids (b : UInt8) (req : VrfsRouteRequest) : Prop :=
  ∀ vr ∈ req.vrfs_requests.head?, vr.vrfs_name.items.head? ≠ some b

theorem vrfsRouteRequestBytes_second {req : VrfsRouteRequest} (h : FirstNameAvoids 4 req) :
    (vrfsRouteRequestBytes req)[1]? ≠ some 4 := by
  rcases hreqs : req.vrfs_requests with _ | ⟨vr, vrs⟩
  · simp [vrfsRouteRequestBytes, hreqs]
  · have hfirst := h vr (by simp [hreqs])
    have hname := vr.vrfs_name.length_eq
    rcases hitems : vr.vrfs_name.items with _ | ⟨b, items⟩
    · rw [hitems] at hname
      cases hname
    · rw [hitems] at hfirst
      simpa [vrfsRouteRequestBytes, hreqs, vrfsRequestBytes, hitems] using hfirst

/-- A command decoded from a ROUTE_ADD frame holds a first part of the framed bytes. -/
theorem decodeCommand_takes {data_len : UInt16} {payload : Bytes} {cmd : Command} {b : UInt8}
    (h : decodeCommand (b :: (writeBe16 data_len ++ payload)) = .ok cmd) :
    ∃ n, cmd.fields = tlvFields (payload.take n) := by
  obtain ⟨hframed, rest, hraw⟩ := decodeCommand_ok.mp h
  rw [commandBytes, List.cons_append, List.append_assoc] at hraw
  have hpay := (List.append_inj (List.cons.inj hraw).2 (by simp)).2
  exact ⟨cmd.raw_payload.length, by rw [hpay, List.take_left, hframed.2]⟩

/-- **The three payload forms of ROUTE_ADD cannot be confused.**  Neither binary decoder takes a TLV
payload, and `parse_route_add` does not take the fields found in a VRF payload, be it read as it is or
through the command around it. -/
theorem routeAdd_forms_distinct (p : RouteAddParams) (req : VrfsRouteRequest) :
    (IfNameOk p.if_name → p.prefix_len ≤ 32 →
      ∃ data_len payload,
        encodeCommand (makeRouteAdd p) =
          .ok (CmdId.ROUTE_ADD.toByte :: (writeBe16 data_len ++ payload)) ∧
        payload.length = data_len.toNat ∧
        (∃ e, decodeVrfsRouteRequest payload = .error (.error e)) ∧
        ∃ e, decodeRouteAddPayload payload = .error (.error e)) ∧
      ∀ payload, encodeVrfsRouteRequest req = .ok payload → FirstNameAvoids 4 req →
        (∃ e, parseRouteAdd ⟨.ROUTE_ADD, tlvFields payload, payload⟩ = .error e) ∧
        ∀ raw cmd, encodeCommand (makeRouteAddVrfs req) = .ok raw → decodeCommand raw = .ok cmd →
          ∃ e, parseRouteAdd cmd = .error e := by
  refine ⟨fun hname _ => ?_, fun payload henc hfirst => ?_⟩
  · obtain ⟨data_len, hcmd, hsize⟩ := encodeCommand_makeRouteAdd hname.2.1
    exact ⟨data_len, routeAddTlv p, hcmd, hsize.symm, decodeVrfsRouteRequest_routeAddTlv hname,
      decodeRouteAddPayload_routeAddTlv p⟩
  · obtain ⟨hvalid, rfl⟩ := (encodeVrfsRouteRequest_writes req payload).mp henc
    have hsecond := vrfsRouteRequestBytes_second hfirst
    refine ⟨parseRouteAdd_tlvFields rfl (by simp [vrfsRouteRequestBytes]) hsecond, ?_⟩
    intro raw cmd hraw hdec
    rw [makeRouteAddVrfs_of_valid hvalid] at hraw
    obtain rfl := Except.ok.inj hraw
    obtain ⟨n, hfields⟩ := decodeCommand_takes hdec
    refine parseRouteAdd_tlvFields hfields ?_ ?_
    · intro b hb
      rcases n with _ | n
      · simp at hb
      · simpa [vrfsRouteRequestBytes, eq_comm] using hb
    · intro h
      rw [List.getElem?_take] at h
      split_ifs at h
      exact hsecond h

end Rtsrv.CmdProto
