import Rtsrv.Lib.Cursor
import Rtsrv.Wire.RouteList
import Rtsrv.Wire.RouteProto

/-!
# Rtsrv.Wire.Indexed — the wire decoders by position (`unix_domain/lib`)

Every decoder once more, now with the indices and the unsigned subtractions of the source: `pos` moves on
without a look at the end, `size - pos` and `size - 2` may trap.  Each one is the decoder of the other
modules with nothing added, and none ever traps, whatever the bytes are.
-/

namespace Rtsrv.Indexed

open Lib

/-! ### Commands -/

section Commands

open CmdProto

def fieldStep : Cursor UInt8 CmdError (Option Field) := do
  if (← Cursor.left) < FIELD_HEADER_SIZE then pure none
  else
    let field_id ← Cursor.item
    let field_len ← Cursor.item
    if (← Cursor.left) < field_len.toNat then pure none
    else
      let data ← Cursor.slice field_len.toNat
      pure (some ⟨field_id, data⟩)

def decodeCommand (raw : Bytes) : Except (Trap CmdError) Command :=
  if raw.length < CMD_HEADER_SIZE then Trap.fail .InvalidCommand
  else do
    let cmd_id_byte ← Trap.of (readAt raw 0)
    match CmdId.ofByte cmd_id_byte with
    | none => Trap.fail .UnknownCommand
    | some cmd_id => do
      let data_len ← Trap.of (readBe16 raw 1)
      if h : raw.length < CMD_HEADER_SIZE + data_len.toNat then Trap.fail .InvalidCommand
      else do
        let raw_payload ← Trap.of (subspan raw CMD_HEADER_SIZE data_len.toNat)
        -- the fields are looked for at `[CMD_HEADER_SIZE, end)`, in the whole buffer
        let (fields, _) ← Cursor.untilBreak fieldStep
          ⟨raw, CMD_HEADER_SIZE + data_len.toNat, Nat.not_lt.mp h⟩ CMD_HEADER_SIZE
        pure ⟨cmd_id, fields, raw_payload⟩

/-- One round of `decode_commands`: decode at `pos`, read `data_len` again, advance. -/
def commandStep : Cursor UInt8 CmdError Command := do
  let sub ← Cursor.rest
  let cmd ← Cursor.lift (decodeCommand sub)
  let data_len ← Cursor.readBe16At 1
  Cursor.advance (CMD_HEADER_SIZE + data_len.toNat)
  pure cmd

def decodeCommands (raw : Bytes) : Except (Trap CmdError) (List Command) :=
  Prod.fst <$> Cursor.untilEnd commandStep (Extent.whole raw) 0

end Commands

/-! ### Route payloads -/

section Payloads

open CmdProto

def decodeRouteEntry : Cursor UInt8 CmdError RouteEntry := do
  Cursor.need ROUTE_ENTRY_MIN_SIZE .InvalidCommand
  let dst_addr ← Cursor.block 4
  let prefix_len ← Cursor.item
  let gateway ← Cursor.block 4
  let metric ← Cursor.be16
  let if_name_len ← Cursor.item
  Cursor.need if_name_len.toNat .InvalidCommand
  let if_name ← Cursor.slice if_name_len.toNat
  pure ⟨dst_addr, prefix_len, gateway, metric, if_name⟩

def decodeRouteListResponse (raw : Bytes) : Except (Trap CmdError) (List RouteEntry) :=
  Prod.fst <$> Cursor.untilEnd decodeRouteEntry (Extent.whole raw) 0

def decodePrefix : Cursor UInt8 CmdError PrefixIpv4 := do
  let addr ← Cursor.block 4
  let mask_len ← Cursor.item
  Cursor.check (mask_len ≤ 32) .InvalidField
  pure ⟨addr, mask_len⟩

def decodePrefixes : Cursor UInt8 CmdError (List PrefixIpv4) := do
  let prefix_count ← Cursor.be16
  let prefix_bytes := prefix_count.toNat * PREFIX_IPV4_WIRE_SIZE
  Cursor.need prefix_bytes .InvalidCommand
  Cursor.counted decodePrefix prefix_count.toNat

def decodeInterface : Cursor UInt8 CmdError Interface := do
  Cursor.need INTERFACE_FIXED_SIZE .InvalidCommand
  let iface_name ← Cursor.block IFACE_NAME_SIZE
  let nexthop_addr_ipv4 ← Cursor.block 4
  let nexthop_id_ipv4 ← Cursor.be32
  let prefixes ← decodePrefixes
  pure ⟨iface_name, nexthop_addr_ipv4, nexthop_id_ipv4, prefixes⟩

def decodeRouteAddPayload (raw : Bytes) : Except (Trap CmdError) SingleRouteRequest :=
  if raw.length < 3 then Trap.fail .InvalidCommand
  else do
    let type ← Trap.of (readAt raw 0)
    if type ≠ INTERFACE_ROUTE then Trap.fail .InvalidCommand
    else do
      let iface_count ← Trap.of (readBe16 raw 1)
      let interfaces ← Prod.fst <$> Cursor.counted decodeInterface iface_count.toNat (Extent.whole raw) 3
      pure ⟨interfaces⟩

def decodeStatusByte : Cursor UInt8 CmdError (List Bool) := do
  let b ← Cursor.item
  pure (statusBits b)

def decodeRouteAddBinaryResponse (raw : Bytes) : Except (Trap CmdError) RouteAddBinaryResponse :=
  if raw = [] then Trap.fail .InvalidCommand
  else do
    let status_code ← Trap.of (readAt raw 0)
    let prefix_status ← Prod.fst <$> Cursor.untilEnd decodeStatusByte (Extent.whole raw) 1
    pure ⟨status_code, prefix_status.flatten⟩

def decodeVrfsRequest : Cursor UInt8 CmdError VrfsRequest := do
  Cursor.need VRFS_REQUEST_FIXED_SIZE .InvalidCommand
  let vrfs_name ← Cursor.block VRFS_NAME_SIZE
  let iface_name ← Cursor.block IFACE_NAME_SIZE
  let nexthop_addr_ipv4 ← Cursor.block 4
  let nexthop_id_ipv4 ← Cursor.be32
  let prefixes ← decodePrefixes
  pure ⟨vrfs_name, iface_name, nexthop_addr_ipv4, nexthop_id_ipv4, prefixes⟩

def decodeVrfsRouteRequest (raw : Bytes) : Except (Trap CmdError) VrfsRouteRequest :=
  if raw = [] then Trap.fail .InvalidCommand
  else do
    let type ← Trap.of (readAt raw 0)
    if type ≠ SINGLE_ROUTE then Trap.fail .InvalidCommand
    else do
      let vrfs_requests ← Prod.fst <$> Cursor.untilEnd decodeVrfsRequest (Extent.whole raw) 1
      pure ⟨vrfs_requests⟩

def decodeVrfsAnswer : Cursor UInt8 CmdError VrfsAnswer := do
  Cursor.need VRFS_ANSWER_WIRE_SIZE .InvalidCommand
  let vrfs_name ← Cursor.block VRFS_NAME_SIZE
  let status ← Cursor.item
  pure ⟨vrfs_name, status &&& 0x01 ≠ 0⟩

def decodeVrfsRouteResponse (raw : Bytes) : Except (Trap CmdError) VrfsRouteResponse :=
  if raw = [] then Trap.fail .InvalidCommand
  else do
    let status_code ← Trap.of (readAt raw 0)
    let answers ← Prod.fst <$> Cursor.untilEnd decodeVrfsAnswer (Extent.whole raw) 1
    pure ⟨status_code, answers⟩

end Payloads

/-! ### Messages and frames -/

section Framing

open RouteProto UdProto

def decodeMessage (raw : Bytes) : Except (Trap RouteError) Message :=
  if raw.length < MSG_HEADER_SIZE then Trap.fail .InvalidMessage
  else do
    let type_byte ← Trap.of (readAt raw 0)
    match MsgType.ofByte type_byte with
    | none => Trap.fail .UnknownType
    | some msg_type => do
      let flags ← Trap.of (readAt raw 1)
      let msg_id ← Trap.of (readBe16 raw 2)
      let payload_len ← Trap.sub raw.length MSG_HEADER_SIZE
      let payload ← Trap.of (subspan raw MSG_HEADER_SIZE payload_len)
      pure ⟨msg_type, flags, msg_id, payload⟩

def decodeExchange (raw : Bytes) : Except (Trap ExchangeError) ExchangeData :=
  if raw.length < EXCHANGE_MIN_SIZE then Trap.fail .InvalidData
  else do
    let data_length ← Trap.of (readBe16 raw 2)
    if data_length.toNat ≠ raw.length then Trap.fail .LengthMismatch
    else do
      let crc_start ← Trap.sub raw.length 2
      let crc_stored ← Trap.of (readBe16 raw crc_start)
      let covered ← Trap.of (subspan raw 0 crc_start)
      let crc_computed := crc16 covered
      if crc_stored ≠ crc_computed then Trap.fail .CrcMismatch
      else do
        let num_commands ← Trap.of (readBe16 raw 0)
        let commands_len ← Trap.sub raw.length EXCHANGE_MIN_SIZE
        if num_commands.toNat ≠ commands_len then Trap.fail .CountMismatch
        else do
          let commands ← Trap.of (subspan raw 4 commands_len)
          pure ⟨num_commands, commands⟩

def checkPayload (raw : Bytes) : Except (Trap ProtoError) Bytes :=
  if raw.length < MIN_PAYLOAD then Trap.fail .BadLength
  else do
    let crc_start ← Trap.sub raw.length CRC_SIZE
    let crc_expected ← Trap.of (readBe16 raw crc_start)
    let covered ← Trap.of (subspan raw 0 crc_start)
    let crc_computed := crc16 covered
    if crc_expected ≠ crc_computed then Trap.fail .CrcMismatch
    else do
      let reported_len ← Trap.of (readBe32 raw 0)
      if reported_len ≠ UInt32.ofNat raw.length then Trap.fail .BadLength
      else .ok raw

def extractPayload (frm : Bytes) : Except (Trap ProtoError) Bytes :=
  if frm.length < 2 ∨ frm.head? ≠ some FRAME_DELIM ∨ frm.getLast? ≠ some FRAME_DELIM then
    Trap.fail .InvalidFrame
  else do
    let inner_len ← Trap.sub frm.length 2
    let inner ← Trap.of (subspan frm 1 inner_len)
    let raw ← Trap.of (destuff inner)
    checkPayload raw

def decodePacket (frm : Bytes) : Except (Trap ProtoError) Packet := do
  let raw ← extractPayload frm
  let length ← Trap.of (readBe32 raw 0)
  let pkt_num ← Trap.of (readBe16 raw 4)
  let total_pkts ← Trap.of (readBe16 raw 6)
  let ctrl ← Trap.of (readBe16 raw 8)
  let data_start := HEADER_SIZE
  let data_end ← Trap.sub raw.length CRC_SIZE
  let data_len ← Trap.sub data_end data_start
  let data ← Trap.of (subspan raw data_start data_len)
  pure ⟨length, pkt_num, total_pkts, ctrl, data⟩

def decodeResponse (frm : Bytes) : Except (Trap ProtoError) Response := do
  let raw ← extractPayload frm
  let data_len ← Trap.sub raw.length MIN_PAYLOAD
  if data_len ≠ 1 then Trap.fail .BadLength
  else do
    let length ← Trap.of (readBe32 raw 0)
    let pkt_num ← Trap.of (readBe16 raw 4)
    let total_pkts ← Trap.of (readBe16 raw 6)
    let ctrl ← Trap.of (readBe16 raw 8)
    let status ← Trap.of (readAt raw HEADER_SIZE)
    pure ⟨length, pkt_num, total_pkts, ctrl, status⟩

end Framing

/-! ### Each loop simulates its reader -/

theorem fieldStep_simulates : Simulates fieldStep CmdProto.fieldStep := by
  refine Simulates.left.bind fun n => .ite (.pure none) (Simulates.item.bind fun id => Simulates.item.bind
    fun len => Simulates.left.bind fun m => .ite (.pure none) ?_)
  exact (Simulates.slice len.toNat).bind fun data => .pure _

theorem decodeRouteEntry_simulates : Simulates decodeRouteEntry CmdProto.decodeRouteEntry :=
  (Simulates.need _ _).bind fun _ => (Simulates.block 4).bind fun _ => Simulates.item.bind fun _ =>
    (Simulates.block 4).bind fun _ => Simulates.be16.bind fun _ => Simulates.item.bind fun _ =>
      (Simulates.need _ _).bind fun _ => (Simulates.slice _).bind fun _ => .pure _

theorem decodePrefix_simulates : Simulates decodePrefix CmdProto.decodePrefix :=
  (Simulates.block 4).bind fun _ => Simulates.item.bind fun _ => (Simulates.check _ _).bind fun _ => .pure _

theorem decodePrefixes_simulates : Simulates decodePrefixes CmdProto.decodePrefixes :=
  Simulates.be16.bind fun count => (Simulates.need _ _).bind fun _ =>
    decodePrefix_simulates.counted count.toNat

theorem decodeInterface_simulates : Simulates decodeInterface CmdProto.decodeInterface :=
  (Simulates.need _ _).bind fun _ => (Simulates.block _).bind fun _ => (Simulates.block 4).bind fun _ =>
    Simulates.be32.bind fun _ => decodePrefixes_simulates.bind fun _ => .pure _

theorem decodeStatusByte_simulates : Simulates decodeStatusByte CmdProto.decodeStatusByte :=
  Simulates.item.bind fun _ => .pure _

theorem decodeVrfsRequest_simulates : Simulates decodeVrfsRequest CmdProto.decodeVrfsRequest :=
  (Simulates.need _ _).bind fun _ => (Simulates.block _).bind fun _ => (Simulates.block _).bind fun _ =>
    (Simulates.block 4).bind fun _ => Simulates.be32.bind fun _ => decodePrefixes_simulates.bind
      fun _ => .pure _

theorem decodeVrfsAnswer_simulates : Simulates decodeVrfsAnswer CmdProto.decodeVrfsAnswer :=
  (Simulates.need _ _).bind fun _ => (Simulates.block _).bind fun _ => Simulates.item.bind fun _ => .pure _

/-- The loop over the fields runs inside the payload of its command. -/
theorem untilBreak_fieldStep {raw : Bytes} {n : ℕ} (h : CmdProto.CMD_HEADER_SIZE + n ≤ raw.length) :
    ∃ pos, Cursor.untilBreak fieldStep ⟨raw, CmdProto.CMD_HEADER_SIZE + n, h⟩ CmdProto.CMD_HEADER_SIZE =
      .ok (CmdProto.tlvFields ((raw.drop CmdProto.CMD_HEADER_SIZE).take n), pos) := by
  have hitems : Extent.items ⟨raw, CmdProto.CMD_HEADER_SIZE + n, h⟩ CmdProto.CMD_HEADER_SIZE =
      (raw.drop CmdProto.CMD_HEADER_SIZE).take n := by
    rw [Extent.items, List.drop_take, Nat.add_sub_cancel_left]
  obtain ⟨t, hread⟩ := CmdProto.untilBreak_fieldStep ((raw.drop CmdProto.CMD_HEADER_SIZE).take n)
  rw [← hitems] at hread ⊢
  obtain ⟨pos, -, hrun, -⟩ := fieldStep_simulates.untilBreak.ok (Nat.le_add_right _ _) hread
  exact ⟨pos, hrun⟩

theorem decodeCommand_eq (raw : Bytes) : decodeCommand raw = Trap.of (CmdProto.decodeCommand raw) := by
  rw [decodeCommand, CmdProto.decodeCommand, Trap.of_ite, Trap.of_error, Trap.of_bind]
  refine ite_congr rfl (fun _ => rfl) fun _ => bind_congr fun b => ?_
  cases CmdProto.CmdId.ofByte b with
  | none => rfl
  | some cmd_id =>
    show (Trap.of _ >>= _) = Trap.of (_ >>= _)
    rw [Trap.of_bind]
    refine bind_congr fun data_len => ?_
    by_cases h : raw.length < CmdProto.CMD_HEADER_SIZE + data_len.toNat
    · rw [dif_pos h, if_pos h]
      rfl
    · obtain ⟨pos, hrun⟩ := untilBreak_fieldStep (Nat.not_lt.mp h)
      obtain ⟨t, hread⟩ := CmdProto.untilBreak_fieldStep
        ((raw.drop CmdProto.CMD_HEADER_SIZE).take data_len.toNat)
      rw [dif_neg h, if_neg h, subspan, if_pos (Nat.not_lt.mp h), Trap.of_ok, ok_bind, ok_bind, hrun, hread]
      rfl

theorem commandStep_simulates : Simulates commandStep CmdProto.commandStep := by
  intro x pos hpos
  have hrest : (Cursor.rest : Cursor UInt8 CmdProto.CmdError _) x pos = .ok (x.items pos, pos) := if_pos hpos
  have hstep : commandStep x pos = (Trap.of (CmdProto.decodeCommand (x.items pos)) >>= fun cmd =>
      Trap.of (readBe16 x.buf (pos + 1)) >>= fun data_len =>
        .ok (cmd, pos + (CmdProto.CMD_HEADER_SIZE + data_len.toNat))) := by
    show (Cursor.rest x pos >>= fun r => _) = _
    rw [hrest, ok_bind, ← decodeCommand_eq]
    rcases decodeCommand (x.items pos) with f | cmd
    · rfl
    · show (Cursor.readBe16At 1 x pos >>= fun r => _) = (Trap.of (readBe16 x.buf (pos + 1)) >>= _)
      rw [Cursor.readBe16At]
      cases (readBe16 x.buf (pos + 1) : Except (Fault CmdProto.CmdError) UInt16) <;> rfl
  rw [hstep]
  rcases CmdProto.decodeCommand_cases (x.items pos) with ⟨e, herr⟩ | ⟨cmd, hok, hframed, rest, hitems⟩
  · rw [CmdProto.commandStep, herr]
    rfl
  · have hlen := congrArg List.length hitems
    rw [items_length, List.length_append, CmdProto.commandBytes_length] at hlen
    have hsize : (UInt16.ofNat cmd.raw_payload.length).toNat = cmd.raw_payload.length := by
      rw [UInt16.toNat_ofNat', Nat.mod_eq_of_lt hframed.1]
    have hread : (readBe16 x.buf (pos + 1) : Except (Fault CmdProto.CmdError) _) =
        .ok (UInt16.ofNat cmd.raw_payload.length) := by
      refine readBe16_of_drop (t := cmd.raw_payload ++ (rest ++ x.buf.drop x.stop)) ?_
      rw [← List.drop_drop, drop_of_items hpos hitems, CmdProto.commandBytes]
      simp
    rw [hok, hread, hitems, CmdProto.commandStep_command hframed]
    refine ⟨pos + (CmdProto.CMD_HEADER_SIZE + cmd.raw_payload.length), by omega, ?_, ?_⟩
    · rw [Trap.of_ok, Trap.of_ok, ok_bind, ok_bind, hsize]
    · rw [← items_drop, hitems, ← CmdProto.commandBytes_length, List.drop_left]

/-! ### Each decoder is the one on the bytes that are left -/

theorem decodeCommands_eq (raw : Bytes) : decodeCommands raw = Trap.of (CmdProto.decodeCommands raw) := by
  have hsafe := CmdProto.commandStep_safe.untilEnd CmdProto.commandStep_consumes
  rw [decodeCommands, commandStep_simulates.untilEnd.whole hsafe (Nat.zero_le _), List.drop_zero,
    CmdProto.decodeCommands]
  rcases Reader.untilEnd CmdProto.commandStep raw with f | r <;> rfl

theorem decodeRouteListResponse_eq (raw : Bytes) :
    decodeRouteListResponse raw = Trap.of (CmdProto.decodeRouteListResponse raw) := by
  have hsafe := CmdProto.decodeRouteEntry_safe.untilEnd CmdProto.decodeRouteEntry_consumes
  rw [decodeRouteListResponse, decodeRouteEntry_simulates.untilEnd.whole hsafe (Nat.zero_le _),
    List.drop_zero]
  rfl

theorem decodeRouteAddPayload_eq (raw : Bytes) :
    decodeRouteAddPayload raw = Trap.of (CmdProto.decodeRouteAddPayload raw) := by
  rw [decodeRouteAddPayload, CmdProto.decodeRouteAddPayload, Trap.of_ite, Trap.of_error, Trap.of_bind]
  refine ite_congr rfl (fun _ => rfl) fun hmin => bind_congr fun b => ?_
  rw [Trap.of_ite, Trap.of_error, Trap.of_bind]
  refine ite_congr rfl (fun _ => rfl) fun _ => bind_congr fun count => ?_
  rw [(decodeInterface_simulates.counted _).whole (CmdProto.decodeInterface_safe.counted _)
    (Nat.not_lt.mp hmin)]
  rcases Reader.counted CmdProto.decodeInterface count.toNat (raw.drop 3) with f | r <;> rfl

theorem decodeRouteAddBinaryResponse_eq (raw : Bytes) :
    decodeRouteAddBinaryResponse raw = Trap.of (CmdProto.decodeRouteAddBinaryResponse raw) := by
  have hsafe := CmdProto.decodeStatusByte_safeFrom.untilEnd CmdProto.decodeStatusByte_consumes
  rw [decodeRouteAddBinaryResponse, CmdProto.decodeRouteAddBinaryResponse, Trap.of_ite, Trap.of_error,
    Trap.of_bind]
  refine ite_congr rfl (fun _ => rfl) fun hne => bind_congr fun status => ?_
  rw [decodeStatusByte_simulates.untilEnd.whole hsafe (List.length_pos_iff.mpr hne)]
  rcases Reader.untilEnd CmdProto.decodeStatusByte (raw.drop 1) with f | r <;> rfl

theorem decodeVrfsRouteRequest_eq (raw : Bytes) :
    decodeVrfsRouteRequest raw = Trap.of (CmdProto.decodeVrfsRouteRequest raw) := by
  have hsafe := CmdProto.decodeVrfsRequest_safe.untilEnd CmdProto.decodeVrfsRequest_consumes
  rw [decodeVrfsRouteRequest, CmdProto.decodeVrfsRouteRequest, Trap.of_ite, Trap.of_error, Trap.of_bind]
  refine ite_congr rfl (fun _ => rfl) fun hne => bind_congr fun b => ?_
  rw [Trap.of_ite, Trap.of_error]
  refine ite_congr rfl (fun _ => rfl) fun _ => ?_
  rw [decodeVrfsRequest_simulates.untilEnd.whole hsafe (List.length_pos_iff.mpr hne)]
  rcases Reader.untilEnd CmdProto.decodeVrfsRequest (raw.drop 1) with f | r <;> rfl

theorem decodeVrfsRouteResponse_eq (raw : Bytes) :
    decodeVrfsRouteResponse raw = Trap.of (CmdProto.decodeVrfsRouteResponse raw) := by
  have hsafe := CmdProto.decodeVrfsAnswer_safe.untilEnd CmdProto.decodeVrfsAnswer_consumes
  rw [decodeVrfsRouteResponse, CmdProto.decodeVrfsRouteResponse, Trap.of_ite, Trap.of_error, Trap.of_bind]
  refine ite_congr rfl (fun _ => rfl) fun hne => bind_congr fun status => ?_
  rw [decodeVrfsAnswer_simulates.untilEnd.whole hsafe (List.length_pos_iff.mpr hne)]
  rcases Reader.untilEnd CmdProto.decodeVrfsAnswer (raw.drop 1) with f | r <;> rfl

theorem decodeMessage_eq (raw : Bytes) : decodeMessage raw = Trap.of (RouteProto.decodeMessage raw) := by
  rw [decodeMessage, RouteProto.decodeMessage, Trap.of_ite, Trap.of_error, Trap.of_bind]
  refine ite_congr rfl (fun _ => rfl) fun hmin => bind_congr fun b => ?_
  cases RouteProto.MsgType.ofByte b with
  | none => rfl
  | some msg_type =>
    show (Trap.of _ >>= fun _ => Trap.of _ >>= fun _ => Trap.sub _ _ >>= _) = Trap.of (_ >>= _)
    rw [Trap.sub_of_le (Nat.not_lt.mp hmin)]
    simp only [Trap.of_bind, ok_bind, Trap.of_pure]

theorem decodeExchange_eq (raw : Bytes) : decodeExchange raw = Trap.of (RouteProto.decodeExchange raw) := by
  rw [decodeExchange, RouteProto.decodeExchange, Trap.of_ite, Trap.of_error]
  refine ite_congr rfl (fun _ => rfl) fun hmin => ?_
  rw [RouteProto.EXCHANGE_MIN_SIZE, Nat.not_lt] at hmin
  simp only [Trap.sub_of_le (show 2 ≤ raw.length by omega),
    Trap.sub_of_le (show RouteProto.EXCHANGE_MIN_SIZE ≤ raw.length from hmin), ok_bind, Trap.of_bind,
    Trap.of_ite, Trap.of_error, Trap.of_pure]

theorem checkPayload_eq (raw : Bytes) : checkPayload raw = Trap.of (UdProto.checkPayload raw) := by
  rw [checkPayload, UdProto.checkPayload, Trap.of_ite, Trap.of_error]
  refine ite_congr rfl (fun _ => rfl) fun hmin => ?_
  rw [UdProto.MIN_PAYLOAD, Nat.not_lt] at hmin
  simp only [Trap.sub_of_le (show UdProto.CRC_SIZE ≤ raw.length by omega), ok_bind, Trap.of_bind, Trap.of_ite,
    Trap.of_error, Trap.of_ok]

theorem extractPayload_eq (frm : Bytes) : extractPayload frm = Trap.of (UdProto.extractPayload frm) := by
  rw [extractPayload, UdProto.extractPayload, Trap.of_ite, Trap.of_error]
  refine ite_congr rfl (fun _ => rfl) fun hframe => ?_
  rw [not_or, Nat.not_lt] at hframe
  rw [Trap.sub_of_le hframe.1]
  simp only [ok_bind, Trap.of_bind, checkPayload_eq]

/-- What `extract_payload` lets through has a header and a CRC. -/
theorem extractPayload_length {frm raw : Bytes} (h : UdProto.extractPayload frm = .ok raw) :
    UdProto.MIN_PAYLOAD ≤ raw.length := by
  obtain ⟨-, -, -, pkt, rfl, -⟩ := UdProto.extractPayload_ok.mp h
  rw [UdProto.packetPayload, UdProto.buildRequestPayload_length, UdProto.MIN_PAYLOAD]
  omega

theorem decodePacket_eq (frm : Bytes) : decodePacket frm = Trap.of (UdProto.decodePacket frm) := by
  rw [decodePacket, UdProto.decodePacket, Trap.of_bind, extractPayload_eq]
  rcases hx : UdProto.extractPayload frm with f | raw
  · rfl
  · have hlen := extractPayload_length hx
    rw [UdProto.MIN_PAYLOAD] at hlen
    simp only [Trap.of_ok, ok_bind, Trap.sub_of_le (show UdProto.CRC_SIZE ≤ raw.length by omega),
      Trap.sub_of_le (show UdProto.HEADER_SIZE ≤ raw.length - UdProto.CRC_SIZE by omega), Trap.of_bind,
      Trap.of_pure]

theorem decodeResponse_eq (frm : Bytes) : decodeResponse frm = Trap.of (UdProto.decodeResponse frm) := by
  rw [decodeResponse, UdProto.decodeResponse, Trap.of_bind, extractPayload_eq]
  rcases hx : UdProto.extractPayload frm with f | raw
  · rfl
  · simp only [Trap.of_ok, ok_bind, Trap.sub_of_le (extractPayload_length hx), Trap.of_bind, Trap.of_ite,
      Trap.of_error, Trap.of_pure]

/-! ### No decoder ever traps -/

theorem decodeMessage_onlyErrors (raw : Bytes) : Trap.OnlyErrors (decodeMessage raw) := by
  refine .ite (fun _ => Trap.onlyErrors_fail _) fun hmin => ?_
  rw [RouteProto.MSG_HEADER_SIZE, Nat.not_lt] at hmin
  refine (Trap.onlyErrors_readAt (by omega)).bind fun b _ => ?_
  cases RouteProto.MsgType.ofByte b with
  | none => exact Trap.onlyErrors_fail _
  | some msg_type =>
    refine (Trap.onlyErrors_readAt (by omega)).bind fun _ _ => (Trap.onlyErrors_readBe16 (by omega)).bind
      fun _ _ => (Trap.onlyErrors_sub hmin).bind fun n hn => ?_
    rw [Trap.sub_of_le hmin] at hn
    obtain rfl := Except.ok.inj hn
    refine (Trap.onlyErrors_subspan ?_).bind fun _ _ => Trap.onlyErrors_ok _
    rw [RouteProto.MSG_HEADER_SIZE]
    omega

theorem decodeExchange_onlyErrors (raw : Bytes) : Trap.OnlyErrors (decodeExchange raw) := by
  refine .ite (fun _ => Trap.onlyErrors_fail _) fun hmin => ?_
  rw [RouteProto.EXCHANGE_MIN_SIZE, Nat.not_lt] at hmin
  have htail : (Trap.sub raw.length 2 : Except (Trap RouteProto.ExchangeError) ℕ) = .ok (raw.length - 2) :=
    Trap.sub_of_le (by omega)
  refine (Trap.onlyErrors_readBe16 (by omega)).bind fun _ _ => ?_
  refine .ite (fun _ => Trap.onlyErrors_fail _) fun _ => ?_
  rw [htail, ok_bind]
  refine (Trap.onlyErrors_readBe16 (by omega)).bind fun _ _ => (Trap.onlyErrors_subspan (by omega)).bind
    fun _ _ => .ite (fun _ => Trap.onlyErrors_fail _) fun _ => ?_
  refine (Trap.onlyErrors_readBe16 (by omega)).bind fun _ _ => ?_
  rw [RouteProto.EXCHANGE_MIN_SIZE, Trap.sub_of_le hmin, ok_bind]
  refine .ite (fun _ => Trap.onlyErrors_fail _) fun _ => ?_
  exact (Trap.onlyErrors_subspan (by omega)).bind fun _ _ => Trap.onlyErrors_ok _

theorem destuff_onlyErrors (stuffed : Bytes) : Trap.OnlyErrors (Trap.of (UdProto.destuff stuffed)) := by
  rw [UdProto.destuff, UdProto.destuffLoop_eq]
  cases UdProto.escape.destuff false stuffed with
  | none => exact Trap.onlyErrors_fail _
  | some raw => exact Trap.onlyErrors_ok _

theorem checkPayload_onlyErrors (raw : Bytes) : Trap.OnlyErrors (checkPayload raw) := by
  refine .ite (fun _ => Trap.onlyErrors_fail _) fun hmin => ?_
  rw [UdProto.MIN_PAYLOAD, UdProto.HEADER_SIZE, UdProto.CRC_SIZE, Nat.not_lt] at hmin
  rw [UdProto.CRC_SIZE, Trap.sub_of_le (show 2 ≤ raw.length by omega), ok_bind]
  refine (Trap.onlyErrors_readBe16 (by omega)).bind fun _ _ => (Trap.onlyErrors_subspan (by omega)).bind
    fun _ _ => .ite (fun _ => Trap.onlyErrors_fail _) fun _ => ?_
  refine (Trap.onlyErrors_readBe32 (by omega)).bind fun _ _ => ?_
  exact .ite (fun _ => Trap.onlyErrors_fail _) fun _ => Trap.onlyErrors_ok _

theorem extractPayload_onlyErrors (frm : Bytes) : Trap.OnlyErrors (extractPayload frm) := by
  refine .ite (fun _ => Trap.onlyErrors_fail _) fun hframe => ?_
  rw [not_or, Nat.not_lt] at hframe
  rw [Trap.sub_of_le hframe.1, ok_bind]
  have hinner : 1 + (frm.length - 2) ≤ frm.length := by omega
  exact (Trap.onlyErrors_subspan hinner).bind fun inner _ => (destuff_onlyErrors inner).bind
    fun raw _ => checkPayload_onlyErrors raw

theorem extractPayload_min {frm raw : Bytes} (h : extractPayload frm = .ok raw) :
    UdProto.MIN_PAYLOAD ≤ raw.length := by
  rw [extractPayload_eq] at h
  rcases hx : UdProto.extractPayload frm with e | raw'
  · rw [hx] at h
    cases h
  · rw [hx] at h
    obtain rfl := Except.ok.inj h
    exact extractPayload_length hx

/-- The reads of the four header fields. -/
theorem onlyErrors_header {α : Type} {raw : Bytes} (hmin : UdProto.MIN_PAYLOAD ≤ raw.length)
    {f : UInt32 → UInt16 → UInt16 → UInt16 → Except (Trap UdProto.ProtoError) α}
    (hf : ∀ length pkt_num total_pkts ctrl, Trap.OnlyErrors (f length pkt_num total_pkts ctrl)) :
    Trap.OnlyErrors (Trap.of (readBe32 raw 0) >>= fun length => Trap.of (readBe16 raw 4) >>= fun pkt_num =>
      Trap.of (readBe16 raw 6) >>= fun total_pkts => Trap.of (readBe16 raw 8) >>= fun ctrl =>
        f length pkt_num total_pkts ctrl) := by
  have hlen : 12 ≤ raw.length := hmin
  exact (Trap.onlyErrors_readBe32 (by omega)).bind fun _ _ => (Trap.onlyErrors_readBe16 (by omega)).bind
    fun _ _ => (Trap.onlyErrors_readBe16 (by omega)).bind fun _ _ =>
      (Trap.onlyErrors_readBe16 (by omega)).bind fun _ _ => hf _ _ _ _

theorem decodePacket_onlyErrors (frm : Bytes) : Trap.OnlyErrors (decodePacket frm) := by
  refine (extractPayload_onlyErrors frm).bind fun raw hraw => ?_
  have hmin := extractPayload_min hraw
  refine onlyErrors_header hmin fun _ _ _ _ => ?_
  rw [UdProto.MIN_PAYLOAD] at hmin
  rw [Trap.sub_of_le (show UdProto.CRC_SIZE ≤ raw.length by omega), ok_bind,
    Trap.sub_of_le (show UdProto.HEADER_SIZE ≤ raw.length - UdProto.CRC_SIZE by omega), ok_bind]
  exact (Trap.onlyErrors_subspan (by omega)).bind fun _ _ => Trap.onlyErrors_ok _

theorem decodeResponse_onlyErrors (frm : Bytes) : Trap.OnlyErrors (decodeResponse frm) := by
  refine (extractPayload_onlyErrors frm).bind fun raw hraw => ?_
  have hmin := extractPayload_min hraw
  rw [Trap.sub_of_le hmin, ok_bind]
  refine .ite (fun _ => Trap.onlyErrors_fail _) fun _ => onlyErrors_header hmin fun _ _ _ _ => ?_
  have hstatus : UdProto.HEADER_SIZE < raw.length := Nat.lt_of_lt_of_le (by decide) hmin
  exact (Trap.onlyErrors_readAt hstatus).bind fun _ _ => Trap.onlyErrors_ok _

/-- A loop over records to the end of the payload. -/
theorem onlyErrors_records {ε α : Type} {p : Cursor UInt8 ε α} {q : Reader UInt8 ε α} (h : Simulates p q)
    (hq : Reader.SafeFrom 1 q) (hc : Reader.Consumes q) {raw : Bytes} {pos : ℕ} (hpos : pos ≤ raw.length) :
    Trap.OnlyErrors (Prod.fst <$> Cursor.untilEnd p (Extent.whole raw) pos) := by
  have hsafe := hq.untilEnd hc
  rw [h.untilEnd.whole hsafe hpos]
  refine Trap.onlyErrors_of fun f hf => ?_
  rcases hread : Reader.untilEnd q (raw.drop pos) with f' | r
  · rw [hread] at hf
    exact hsafe _ f (hread.trans (congrArg _ (Except.error.inj hf)))
  · rw [hread] at hf
    cases hf

/-- **No input makes a decoder trap.**  Whatever the bytes are, each decoder returns a value or an error of
its protocol: no index outside, no remaining length below zero, no loop that does not end. -/
theorem decoders_safe (raw : Bytes) :
    Trap.OnlyErrors (decodeCommand raw) ∧ Trap.OnlyErrors (decodeCommands raw) ∧
      Trap.OnlyErrors (decodeRouteListResponse raw) ∧ Trap.OnlyErrors (decodeRouteAddPayload raw) ∧
      Trap.OnlyErrors (decodeRouteAddBinaryResponse raw) ∧ Trap.OnlyErrors (decodeVrfsRouteRequest raw) ∧
      Trap.OnlyErrors (decodeVrfsRouteResponse raw) ∧ Trap.OnlyErrors (decodeExchange raw) ∧
      Trap.OnlyErrors (decodeMessage raw) ∧ Trap.OnlyErrors (decodePacket raw) ∧
      Trap.OnlyErrors (decodeResponse raw) ∧ Trap.OnlyErrors (Trap.of (UdProto.destuff raw)) := by
  refine ⟨?_, ?_, ?_, ?_, ?_, ?_, ?_, decodeExchange_onlyErrors raw, decodeMessage_onlyErrors raw,
    decodePacket_onlyErrors raw, decodeResponse_onlyErrors raw, destuff_onlyErrors raw⟩
  · rw [decodeCommand_eq]
    refine Trap.onlyErrors_of fun f hf => ?_
    rcases CmdProto.decodeCommand_cases raw with ⟨e, herr⟩ | ⟨cmd, hok, -⟩
    · exact ⟨e, Except.error.inj (hf.symm.trans herr)⟩
    · cases hf.symm.trans hok
  · rw [decodeCommands_eq]
    exact Trap.onlyErrors_of fun f => CmdProto.decodeCommands_safe
  · exact onlyErrors_records decodeRouteEntry_simulates CmdProto.decodeRouteEntry_safe.safeFrom
      CmdProto.decodeRouteEntry_consumes (Nat.zero_le _)
  · rw [decodeRouteAddPayload_eq]
    exact Trap.onlyErrors_of fun f => CmdProto.decodeRouteAddPayload_safe
  · refine .ite (fun _ => Trap.onlyErrors_fail _) fun hne => ?_
    have hpos := List.length_pos_iff.mpr hne
    exact (Trap.onlyErrors_readAt hpos).bind fun _ _ => (onlyErrors_records decodeStatusByte_simulates
      CmdProto.decodeStatusByte_safeFrom CmdProto.decodeStatusByte_consumes hpos).bind
        fun _ _ => Trap.onlyErrors_ok _
  · rw [decodeVrfsRouteRequest_eq]
    exact Trap.onlyErrors_of fun f => CmdProto.decodeVrfsRouteRequest_safe
  · refine .ite (fun _ => Trap.onlyErrors_fail _) fun hne => ?_
    have hpos := List.length_pos_iff.mpr hne
    exact (Trap.onlyErrors_readAt hpos).bind fun _ _ => (onlyErrors_records decodeVrfsAnswer_simulates
      CmdProto.decodeVrfsAnswer_safe.safeFrom CmdProto.decodeVrfsAnswer_consumes hpos).bind
        fun _ _ => Trap.onlyErrors_ok _

end Rtsrv.Indexed
