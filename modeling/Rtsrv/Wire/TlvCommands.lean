import Rtsrv.Wire.RouteParams

/-!
# Rtsrv.Wire.TlvCommands — what survives the TLV form (`unix_domain/lib/cmd_proto.cpp`)

The encoder cuts the length of a field to eight bits and the length of the payload to sixteen; the
decoder takes what it can read.  `tlv_survives_iff` says which commands come back all the same, and
`routeParams_round_trip` that the commands of `make_route_add` and `make_route_del` do.
-/

namespace Rtsrv.CmdProto

open Lib

/-! ### Commands -/

/-- `fields_size` of `encode_command`. -/
def fieldsSize (fields : List Field) : ℕ :=
  (fields.map fun f => FIELD_HEADER_SIZE + f.data.length).sum

theorem encodeCommand_tlv {c : Command} (hraw : c.raw_payload = []) :
    encodeCommand c = .ok (c.cmd_id.toByte ::
      (writeBe16 (UInt16.ofNat (fieldsSize c.fields)) ++ c.fields.flatMap encodeField)) :=
  if_neg (not_not.mpr hraw)

/-- The decoder reads as many of the encoded bytes as the truncated size says. -/
theorem decode_encodeCommand {c : Command} (hraw : c.raw_payload = []) :
    ∃ raw d, encodeCommand c = .ok raw ∧ decodeCommand raw = .ok d ∧ d.cmd_id = c.cmd_id ∧
      d.fields = tlvFields ((c.fields.flatMap encodeField).take (fieldsSize c.fields % 2 ^ 16)) := by
  have hsize : (UInt16.ofNat (fieldsSize c.fields)).toNat = fieldsSize c.fields % 2 ^ 16 :=
    UInt16.toNat_ofNat'
  have hlen : (c.fields.flatMap encodeField).length = fieldsSize c.fields := encodeFields_length c.fields
  have hread := decodeCommand_header c.cmd_id.toByte (UInt16.ofNat (fieldsSize c.fields))
    (c.fields.flatMap encodeField)
  have hle : fieldsSize c.fields % 2 ^ 16 ≤ fieldsSize c.fields := Nat.mod_le _ _
  rw [CmdId.ofByte_toByte, hsize, hlen] at hread
  dsimp only at hread
  rw [if_neg (Nat.not_lt.mpr hle)] at hread
  exact ⟨_, _, encodeCommand_tlv hraw, hread, rfl, rfl⟩

/-- A payload cut at its size modulo `2 ^ 16` gives the fields back if and only if nothing was cut: the
fields the decoder finds take no more bytes than it looked at. -/
theorem tlvFields_take_iff (fields : List Field) :
    tlvFields ((fields.flatMap encodeField).take (fieldsSize fields % 2 ^ 16)) = fields ↔
      (∀ f ∈ fields, f.data.length ≤ 255) ∧ fieldsSize fields ≤ 65535 := by
  have hlen : (fields.flatMap encodeField).length = fieldsSize fields := encodeFields_length fields
  constructor
  · intro h
    obtain ⟨hfits, hfront⟩ :=
      tlvFields_prefix ((fields.flatMap encodeField).take (fieldsSize fields % 2 ^ 16))
    rw [h] at hfits hfront
    have hle := hfront.length_le
    rw [hlen, List.length_take] at hle
    have hmod : fieldsSize fields % 2 ^ 16 < 2 ^ 16 := Nat.mod_lt _ (by decide)
    exact ⟨hfits, by omega⟩
  · rintro ⟨hfits, hsize⟩
    rw [Nat.mod_eq_of_lt (by omega), List.take_of_length_le hlen.le]
    exact tlvFields_flatMap hfits

theorem survives_of_fits {c : Command} (hraw : c.raw_payload = [])
    (hfits : (∀ f ∈ c.fields, f.data.length ≤ 255) ∧ fieldsSize c.fields ≤ 65535) :
    ∃ raw d, encodeCommand c = .ok raw ∧ decodeCommand raw = .ok d ∧ d.cmd_id = c.cmd_id ∧
      d.fields = c.fields := by
  obtain ⟨raw, d, henc, hdec, hid, hfields⟩ := decode_encodeCommand hraw
  exact ⟨raw, d, henc, hdec, hid, hfields.trans ((tlvFields_take_iff c.fields).mpr hfits)⟩

/-- **TLV commands survive the wire exactly when they fit.**  A truncated length never lets the decoder
fall back into step with the fields. -/
theorem tlv_survives_iff (c : Command) (hraw : c.raw_payload = []) :
    (∃ raw d, encodeCommand c = .ok raw ∧ decodeCommand raw = .ok d ∧ d.cmd_id = c.cmd_id ∧
        d.fields = c.fields) ↔
      (∀ f ∈ c.fields, f.data.length ≤ 255) ∧
        (c.fields.map fun f => FIELD_HEADER_SIZE + f.data.length).sum ≤ 65535 := by
  refine ⟨fun h => ?_, survives_of_fits hraw⟩
  obtain ⟨raw, d, henc, hdec, -, hsame⟩ := h
  obtain ⟨raw', d', henc', hdec', -, hfields⟩ := decode_encodeCommand hraw
  obtain rfl := Except.ok.inj (henc.symm.trans henc')
  obtain rfl := Except.ok.inj (hdec.symm.trans hdec')
  exact (tlvFields_take_iff c.fields).mp (hfields.symm.trans hsame)

/-- A field of 256 bytes is announced as one of none; an empty one is what it says. -/
theorem tlv_survives_iff_lengths :
    (∃ raw d, encodeCommand ⟨.ROUTE_ADD, [⟨4, []⟩], []⟩ = .ok raw ∧ decodeCommand raw = .ok d ∧
        d.cmd_id = .ROUTE_ADD ∧ d.fields = [⟨4, []⟩]) ∧
      ¬∃ raw d, encodeCommand ⟨.ROUTE_ADD, [⟨4, List.replicate 256 0⟩], []⟩ = .ok raw ∧
        decodeCommand raw = .ok d ∧ d.cmd_id = .ROUTE_ADD ∧ d.fields = [⟨4, List.replicate 256 0⟩] := by
  refine ⟨(tlv_survives_iff ⟨.ROUTE_ADD, [⟨4, []⟩], []⟩ rfl).mpr ⟨by decide, by decide⟩, fun h => ?_⟩
  have hfits := ((tlv_survives_iff ⟨.ROUTE_ADD, [⟨4, List.replicate 256 0⟩], []⟩ rfl).mp h).1
  have hlen := hfits _ (List.mem_singleton_self _)
  rw [List.length_replicate] at hlen
  exact absurd hlen (by decide)

/-! ### Parameters of ROUTE_DEL -/

structure RouteDelParams where
  dst_addr : Ipv4Addr
  prefix_len : UInt8
  gateway : Ipv4Addr
  deriving DecidableEq, Repr

/-- All-zero: any gateway. -/
def Ipv4Addr.zero : Ipv4Addr := Block.replicate 4 0

/-- The gateway field is left out when it is all-zero. -/
def gatewayFields (gateway : Ipv4Addr) : List Field :=
  if gateway ≠ Ipv4Addr.zero then [⟨FieldId.GATEWAY.toByte, gateway.items⟩] else []

def makeRouteDel (p : RouteDelParams) : Command where
  cmd_id := .ROUTE_DEL
  fields :=
    [⟨FieldId.DST_ADDR.toByte, p.dst_addr.items⟩,
     ⟨FieldId.PREFIX_LEN.toByte, [p.prefix_len]⟩] ++ gatewayFields p.gateway
  raw_payload := []

def parseRouteDel (cmd : Command) : Except CmdError RouteDelParams := do
  let dst ← mandatoryField cmd .DST_ADDR
  let dst_addr ← dst.addr
  let pfx ← mandatoryField cmd .PREFIX_LEN
  let prefix_len ← pfx.prefixLen
  let gateway ←
    match findField cmd .GATEWAY with
    | none => pure Ipv4Addr.zero
    | some gw => gw.addr
  pure ⟨dst_addr, prefix_len, gateway⟩

/-! ### Typed parameters -/

/-- The parsers look at the fields of a command only. -/
theorem findField_congr {c d : Command} (h : c.fields = d.fields) (id : FieldId) :
    findField c id = findField d id := by
  rw [findField, findField, h]

theorem Field.addr_items (id : UInt8) (a : Ipv4Addr) : Field.addr ⟨id, a.items⟩ = .ok a :=
  dif_pos a.length_eq

theorem Field.prefixLen_byte (id : UInt8) {n : UInt8} (h : n ≤ 32) :
    Field.prefixLen ⟨id, [n]⟩ = .ok n :=
  if_neg (UInt8.not_lt.mpr h)

theorem Field.metric_bytes (id : UInt8) (metric : UInt16) :
    Field.metric ⟨id, writeBe16 metric⟩ = .ok metric :=
  congrArg Except.ok (joinBe16_write metric)

theorem Field.ifName_data (id : UInt8) {name : Bytes} (h : 1 ≤ name.length) :
    Field.ifName ⟨id, name⟩ = .ok name :=
  if_neg (List.length_pos_iff.mp h)

/-- The fields that may be missing stand last, behind fields with other identifiers. -/
theorem findField_metric (p : RouteAddParams) :
    findField (makeRouteAdd p) .METRIC = (metricFields p.metric).head? := by
  by_cases hm : p.metric = 0
  · simp [findField, makeRouteAdd, metricFields, FieldId.toByte, hm]
  · simp [findField, makeRouteAdd, metricFields, FieldId.toByte, hm]

theorem findField_gateway (p : RouteDelParams) :
    findField (makeRouteDel p) .GATEWAY = (gatewayFields p.gateway).head? := by
  by_cases hg : p.gateway = Ipv4Addr.zero
  · simp [findField, makeRouteDel, gatewayFields, FieldId.toByte, hg]
  · simp [findField, makeRouteDel, gatewayFields, FieldId.toByte, hg]

theorem parseRouteAdd_fields {p : RouteAddParams} (hpfx : p.prefix_len ≤ 32) (hname : 1 ≤ p.if_name.length)
    {cmd : Command} (h : cmd.fields = (makeRouteAdd p).fields) : parseRouteAdd cmd = .ok p := by
  have hdst : findField (makeRouteAdd p) .DST_ADDR = some ⟨FieldId.DST_ADDR.toByte, p.dst_addr.items⟩ := rfl
  have hlen : findField (makeRouteAdd p) .PREFIX_LEN = some ⟨FieldId.PREFIX_LEN.toByte, [p.prefix_len]⟩ := rfl
  have hgw : findField (makeRouteAdd p) .GATEWAY = some ⟨FieldId.GATEWAY.toByte, p.gateway.items⟩ := rfl
  have hifn : findField (makeRouteAdd p) .IF_NAME = some ⟨FieldId.IF_NAME.toByte, p.if_name⟩ := rfl
  simp only [parseRouteAdd, mandatoryField, findField_congr h, hdst, hlen, hgw, hifn, findField_metric,
    ok_bind, Field.addr_items, Field.prefixLen_byte _ hpfx, Field.ifName_data _ hname]
  by_cases hm : p.metric = 0
  · simp only [metricFields, hm, ne_eq, not_true_eq_false, if_false, List.head?_nil]
    rw [← hm]
    rfl
  · simp only [metricFields, ne_eq, hm, not_false_eq_true, if_true, List.head?_cons, Field.metric_bytes]
    rfl

theorem parseRouteDel_fields {p : RouteDelParams} (hpfx : p.prefix_len ≤ 32) {cmd : Command}
    (h : cmd.fields = (makeRouteDel p).fields) : parseRouteDel cmd = .ok p := by
  have hdst : findField (makeRouteDel p) .DST_ADDR = some ⟨FieldId.DST_ADDR.toByte, p.dst_addr.items⟩ := rfl
  have hlen : findField (makeRouteDel p) .PREFIX_LEN = some ⟨FieldId.PREFIX_LEN.toByte, [p.prefix_len]⟩ := rfl
  simp only [parseRouteDel, mandatoryField, findField_congr h, hdst, hlen, findField_gateway,
    ok_bind, Field.addr_items, Field.prefixLen_byte _ hpfx]
  by_cases hg : p.gateway = Ipv4Addr.zero
  · simp only [gatewayFields, hg, ne_eq, not_true_eq_false, if_false, List.head?_nil]
    rw [← hg]
    rfl
  · simp only [gatewayFields, ne_eq, hg, not_false_eq_true, if_true, List.head?_cons, Field.addr_items]
    rfl

/-- Everything but the interface name has a fixed size. -/
theorem makeRouteAdd_fits {p : RouteAddParams} (h : p.if_name.length ≤ 255) :
    (∀ f ∈ (makeRouteAdd p).fields, f.data.length ≤ 255) ∧
      fieldsSize (makeRouteAdd p).fields ≤ 65535 := by
  have hdst := p.dst_addr.length_eq
  have hgw := p.gateway.length_eq
  have hmetric := metricBytes_length_le p.metric
  refine ⟨?_, ?_⟩
  · by_cases hm : p.metric = 0
    · simp [makeRouteAdd, metricFields, hm, hdst, hgw, h]
    · simp [makeRouteAdd, metricFields, hm, hdst, hgw, h]
  · rw [fieldsSize, ← encodeFields_length, ← routeAddTlv, routeAddTlv_length]
    omega

theorem makeRouteDel_fits (p : RouteDelParams) :
    (∀ f ∈ (makeRouteDel p).fields, f.data.length ≤ 255) ∧
      fieldsSize (makeRouteDel p).fields ≤ 65535 := by
  have hdst := p.dst_addr.length_eq
  have hgw := p.gateway.length_eq
  by_cases hg : p.gateway = Ipv4Addr.zero
  · simp [makeRouteDel, gatewayFields, hg, hdst, fieldsSize, FIELD_HEADER_SIZE]
  · simp [makeRouteDel, gatewayFields, hg, hdst, hgw, fieldsSize, FIELD_HEADER_SIZE]

/-- **Typed route parameters survive the TLV path**, with the fields that are encoded by absence. -/
theorem routeParams_round_trip (p : RouteAddParams) (d : RouteDelParams) :
    (p.prefix_len ≤ 32 → 1 ≤ p.if_name.length → p.if_name.length ≤ 255 →
      ∃ raw cmd, encodeCommand (makeRouteAdd p) = .ok raw ∧ decodeCommand raw = .ok cmd ∧
        parseRouteAdd cmd = .ok p) ∧
      (d.prefix_len ≤ 32 →
        ∃ raw cmd, encodeCommand (makeRouteDel d) = .ok raw ∧ decodeCommand raw = .ok cmd ∧
          parseRouteDel cmd = .ok d) := by
  refine ⟨fun hpfx hname hlen => ?_, fun hpfx => ?_⟩
  · obtain ⟨raw, cmd, henc, hdec, -, hfields⟩ := survives_of_fits rfl (makeRouteAdd_fits hlen)
    exact ⟨raw, cmd, henc, hdec, parseRouteAdd_fields hpfx hname hfields⟩
  · obtain ⟨raw, cmd, henc, hdec, -, hfields⟩ := survives_of_fits rfl (makeRouteDel_fits d)
    exact ⟨raw, cmd, henc, hdec, parseRouteDel_fields hpfx hfields⟩

/-- A host route and a route deleted whatever its gateway. -/
theorem routeParams_round_trip_zero :
    (∃ raw cmd, encodeCommand (makeRouteAdd ⟨ipv4 10 0 0 1, 32, Ipv4Addr.zero, [101], 0⟩) = .ok raw ∧
        decodeCommand raw = .ok cmd ∧
        parseRouteAdd cmd = .ok ⟨ipv4 10 0 0 1, 32, Ipv4Addr.zero, [101], 0⟩) ∧
      ∃ raw cmd, encodeCommand (makeRouteDel ⟨ipv4 10 0 0 1, 32, Ipv4Addr.zero⟩) = .ok raw ∧
        decodeCommand raw = .ok cmd ∧ parseRouteDel cmd = .ok ⟨ipv4 10 0 0 1, 32, Ipv4Addr.zero⟩ :=
  have h := routeParams_round_trip ⟨ipv4 10 0 0 1, 32, Ipv4Addr.zero, [101], 0⟩
    ⟨ipv4 10 0 0 1, 32, Ipv4Addr.zero⟩
  ⟨h.1 (by decide) (by decide) (by decide), h.2 (by decide)⟩

end Rtsrv.CmdProto
