import Rtsrv.Client.NbSocket
import Rtsrv.Wire.RoutePayload
import Rtsrv.Wire.RouteProto
import Rtsrv.Wire.UdStream

/-!
# Rtsrv.Client.VrfExchange — one VRF request (`VrfUdpClient::processRequest`)

A request goes through five encoders, each with its own size field, is sent, and the reply goes back
through the decoders.  Two results: the receiver gets the request back exactly when its payload fits
the sixteen-bit fields in the middle, and a request that the payload encoder refuses is sent all the
same, as an empty command.
-/

namespace Rtsrv.Client

open Lib UdProto RouteProto CmdProto

/-! ### The exchange -/

/-- Where `processRequest` gives up, with the error it prints. -/
inductive Failure where
  | encode_command (e : Fault CmdError)
  | encode_exchange (e : Fault ExchangeError)
  | encode_message (e : Fault RouteError)
  | encode_packet (e : Fault ProtoError)
  | create_socket (e : IoError)
  | set_nonblocking (e : IoError)
  | connect (e : IoError)
  | send (e : IoError)
  | recv (e : IoError)
  | decode_packet (e : Fault ProtoError)
  | decode_message (e : Fault RouteError)
  | response_payload_too_short (bytes : ℕ)
  | decode_vrfs_route_response (e : Fault CmdError)
  deriving DecidableEq, Repr

/-- What `processRequest` reports; `complete` is its last line, PASS or FAIL. -/
inductive Report where
  | waiting
  | failed (f : Failure)
  | complete (pass : Bool)
  deriving DecidableEq, Repr

/-- What the system calls of one exchange come to. -/
structure Env where
  socketCreated : Bool
  nonblockingSet : Bool
  connect : ConnectStep
  send : List SendRound
  recv : List RecvRound
  deriving DecidableEq, Repr

/-- Steps [1] to [3]: the frame of a request. -/
def requestFrame (msg_id : UInt16) (req : VrfsRouteRequest) : Except Failure Bytes := do
  let cmd_bytes ← (encodeCommand (makeRouteAddVrfs req)).mapError .encode_command
  let ed : ExchangeData := ⟨1, cmd_bytes⟩
  let exch_bytes ← (encodeExchange ed).mapError .encode_exchange
  let data_msg := makeData msg_id exch_bytes
  let msg_bytes ← (encodeMessage data_msg).mapError .encode_message
  let pkt : Packet := ⟨0, msg_id, 1, 0x0000, msg_bytes⟩
  (encodePacket pkt).mapError .encode_packet

/-- Steps [8] to [11]: the report on a reply frame. -/
def reportReply (frame_recv : Bytes) : Report :=
  match decodePacket frame_recv with
  | .error e => .failed (.decode_packet e)
  | .ok reply_pkt =>
    match decodeMessage reply_pkt.data with
    | .error e => .failed (.decode_message e)
    | .ok reply_msg =>
      if reply_msg.payload.length < 2 then
        .failed (.response_payload_too_short reply_msg.payload.length)
      else
        match decodeVrfsRouteResponse (reply_msg.payload.drop 1) with
        | .error e => .failed (.decode_vrfs_route_response e)
        | .ok vrf_resp => .complete (vrf_resp.status_code = 0x00)

/-- Steps [4] to [11]: the report and the bytes handed to the socket. -/
def exchangeFrame (frm : Bytes) (env : Env) : Report × Bytes :=
  if !env.socketCreated then (.failed (.create_socket (.net .SocketCreateFailed)), [])
  else if !env.nonblockingSet then (.failed (.set_nonblocking (.net .SetNonBlockFailed)), [])
  else
    match nbConnect env.connect with
    | .error e => (.failed (.connect e), [])
    | .ok () =>
      match nbSendAll env.send frm with
      | (.waiting, sent) => (.waiting, sent)
      | (.failed e, sent) => (.failed (.send e), sent)
      | (.done (), sent) =>
        match nbRecvFrame env.recv [] with
        | .waiting => (.waiting, sent)
        | .failed e => (.failed (.recv e), sent)
        | .done frame_recv => (reportReply frame_recv, sent)

def processRequest (msg_id : UInt16) (req : VrfsRouteRequest) (env : Env) : Report × Bytes :=
  match requestFrame msg_id req with
  | .error f => (.failed f, [])
  | .ok frm => exchangeFrame frm env

/-! ### The frame of a command -/

/-- The message that carries a block of command bytes. -/
def dataMessage (msg_id : UInt16) (cmd_bytes : Bytes) : Message :=
  makeData msg_id (exchangeBlock cmd_bytes)

def messageBytes (msg : Message) : Bytes :=
  msg.msg_type.toByte :: msg.flags :: (writeBe16 msg.msg_id ++ msg.payload)

def commandPacket (msg_id : UInt16) (cmd_bytes : Bytes) : Packet :=
  ⟨0, msg_id, 1, 0x0000, messageBytes (dataMessage msg_id cmd_bytes)⟩

def commandFrame (msg_id : UInt16) (cmd_bytes : Bytes) : Bytes :=
  frame (packetPayload (commandPacket msg_id cmd_bytes).filled)

theorem requestFrame_eq {msg_id : UInt16} {req : VrfsRouteRequest} {cmd_bytes : Bytes}
    (h : encodeCommand (makeRouteAddVrfs req) = .ok cmd_bytes) :
    requestFrame msg_id req = .ok (commandFrame msg_id cmd_bytes) := by
  rw [requestFrame, h]
  rfl

theorem commandFrame_ne_nil (msg_id : UInt16) (cmd_bytes : Bytes) :
    commandFrame msg_id cmd_bytes ≠ [] := by
  simp [commandFrame, frame]

/-- What the receiver decodes from a command frame, down to the exchange block. -/
theorem decode_commandFrame (msg_id : UInt16) (cmd_bytes : Bytes) :
    decodePacket (commandFrame msg_id cmd_bytes) = .ok (commandPacket msg_id cmd_bytes).filled ∧
    decodeMessage (commandPacket msg_id cmd_bytes).filled.data =
      .ok (dataMessage msg_id cmd_bytes) := by
  refine ⟨decodePacket_frame ?_, decodeMessage_ok.mpr rfl⟩
  exact Packet.filled_length_of_zero rfl

/-! ### Delivery -/

/-- The receiver's decoders, one after the other, find in the frame one ROUTE_ADD that carries `req`. -/
def Delivers (frm : Bytes) (req : VrfsRouteRequest) : Prop :=
  ∃ pkt msg ed cmd, decodePacket frm = .ok pkt ∧ decodeMessage pkt.data = .ok msg ∧
    decodeExchange msg.payload = .ok ed ∧ decodeCommands ed.commands = .ok [cmd] ∧
    cmd.cmd_id = .ROUTE_ADD ∧ decodeVrfsRouteRequest cmd.raw_payload = .ok req

/-- The size of a request's payload: the type byte, and 58 bytes and five for each prefix a VRF. -/
def payloadSize (req : VrfsRouteRequest) : ℕ :=
  1 + (req.vrfs_requests.map fun vr =>
    VRFS_REQUEST_FIXED_SIZE + vr.prefixes.length * PREFIX_IPV4_WIRE_SIZE).sum

/-- The largest payload whose exchange block has a size that fits sixteen bits. -/
def maxPayload : ℕ := 0xFFFF - EXCHANGE_MIN_SIZE - CMD_HEADER_SIZE

theorem vrfsRouteRequestBytes_length (req : VrfsRouteRequest) :
    (vrfsRouteRequestBytes req).length = payloadSize req := by
  rw [vrfsRouteRequestBytes, List.length_cons, List.length_flatMap, payloadSize, Nat.add_comm]
  exact congrArg (fun f => 1 + (req.vrfs_requests.map f).sum) (funext vrfsRequestBytes_length)

/-- The command of a valid request. -/
def requestCommand (req : VrfsRouteRequest) : Command :=
  ⟨.ROUTE_ADD, [], vrfsRouteRequestBytes req⟩

theorem requestFrame_of_valid {req : VrfsRouteRequest} (h : req.Valid) (msg_id : UInt16) :
    requestFrame msg_id req = .ok (commandFrame msg_id (commandBytes (requestCommand req))) := by
  apply requestFrame_eq
  rw [makeRouteAddVrfs_of_valid h]
  exact encodeCommand_of_payload (by simp [vrfsRouteRequestBytes])

theorem exchange_size (req : VrfsRouteRequest) :
    EXCHANGE_MIN_SIZE + (commandBytes (requestCommand req)).length < 2 ^ 16 ↔
      payloadSize req ≤ maxPayload := by
  rw [commandBytes_length, requestCommand, vrfsRouteRequestBytes_length, maxPayload,
    EXCHANGE_MIN_SIZE, CMD_HEADER_SIZE]
  omega

theorem delivers_of_size {req : VrfsRouteRequest} (h : req.Valid) (msg_id : UInt16)
    (hsize : payloadSize req ≤ maxPayload) :
    Delivers (commandFrame msg_id (commandBytes (requestCommand req))) req := by
  obtain ⟨hpkt, hmsg⟩ := decode_commandFrame msg_id (commandBytes (requestCommand req))
  have hblock : decodeExchange (dataMessage msg_id (commandBytes (requestCommand req))).payload =
      .ok ⟨UInt16.ofNat (commandBytes (requestCommand req)).length,
        commandBytes (requestCommand req)⟩ :=
    decodeExchange_ok.mpr ⟨(exchange_size req).mpr hsize, rfl, rfl⟩
  have hframed : Command.Framed
      ⟨.ROUTE_ADD, tlvFields (vrfsRouteRequestBytes req), vrfsRouteRequestBytes req⟩ := by
    refine ⟨?_, rfl⟩
    show (vrfsRouteRequestBytes req).length < 2 ^ 16
    rw [vrfsRouteRequestBytes_length]
    have hmax : maxPayload = 65526 := rfl
    omega
  have hcmds : decodeCommands (commandBytes (requestCommand req)) =
      .ok [⟨.ROUTE_ADD, tlvFields (vrfsRouteRequestBytes req), vrfsRouteRequestBytes req⟩] := by
    refine decodeCommands_ok.mpr ⟨?_, ?_⟩
    · simpa using hframed
    · rw [List.flatMap_cons, List.flatMap_nil, List.append_nil]
      rfl
  exact ⟨_, _, _, _, hpkt, hmsg, hblock, hcmds, rfl, decodeVrfsRouteRequest_bytes h⟩

/-- A frame that is delivered has an exchange block that the receiver accepts. -/
theorem size_of_delivers {req : VrfsRouteRequest} {msg_id : UInt16} {req' : VrfsRouteRequest}
    (h : Delivers (commandFrame msg_id (commandBytes (requestCommand req))) req') :
    payloadSize req ≤ maxPayload := by
  obtain ⟨pkt, msg, ed, cmd, hpkt, hmsg, hed, -⟩ := h
  obtain ⟨hpkt', hmsg'⟩ := decode_commandFrame msg_id (commandBytes (requestCommand req))
  obtain rfl := Except.ok.inj (hpkt'.symm.trans hpkt)
  obtain rfl := Except.ok.inj (hmsg'.symm.trans hmsg)
  obtain ⟨hfit, -, hblock⟩ := decodeExchange_ok.mp hed
  have hlen := congrArg List.length hblock
  rw [dataMessage, makeData, exchangeBlock_length, exchangeBlock_length] at hlen
  rw [← exchange_size, hlen]
  exact hfit

/-- **Delivery of a VRF request**: a request every encoder accepts arrives exactly when its payload
is small enough for the sixteen-bit sizes around it. -/
theorem delivers_iff_size (msg_id : UInt16) (req : VrfsRouteRequest) (payload frm : Bytes)
    (henc : encodeVrfsRouteRequest req = .ok payload) (hfrm : requestFrame msg_id req = .ok frm) :
    Delivers frm req ↔ payloadSize req ≤ maxPayload := by
  obtain ⟨hvalid, -⟩ := (encodeVrfsRouteRequest_writes req payload).mp henc
  rw [requestFrame_of_valid hvalid] at hfrm
  obtain rfl := Except.ok.inj hfrm
  exact ⟨size_of_delivers, delivers_of_size hvalid msg_id⟩

/-- One VRF that repeats the default route `n` times. -/
def repeatedDefault (n : ℕ) : VrfsRouteRequest := oneVrf (List.replicate n ⟨ipv4 0 0 0 0, 0⟩)

theorem repeatedDefault_valid {n : ℕ} (h : n ≤ 0xFFFF) : (repeatedDefault n).Valid := by
  intro vr hvr
  obtain rfl := List.mem_singleton.mp hvr
  refine ⟨?_, fun p hp => ?_⟩
  · show (List.replicate n _).length ≤ 0xFFFF
    rwa [List.length_replicate]
  · obtain rfl := List.eq_of_mem_replicate hp
    exact UInt8.zero_le

theorem repeatedDefault_size (n : ℕ) : payloadSize (repeatedDefault n) = 59 + n * 5 := by
  simp [payloadSize, repeatedDefault, oneVrf, VRFS_REQUEST_FIXED_SIZE, PREFIX_IPV4_WIRE_SIZE]
  omega

theorem delivers_iff_size_two :
    Delivers (commandFrame 7 (commandBytes (requestCommand (repeatedDefault 2)))) (repeatedDefault 2) ↔
      payloadSize (repeatedDefault 2) ≤ maxPayload :=
  have hvalid := repeatedDefault_valid (n := 2) (by omega)
  delivers_iff_size 7 (repeatedDefault 2) _ _
    ((encodeVrfsRouteRequest_writes _ _).mpr ⟨hvalid, rfl⟩) (requestFrame_of_valid hvalid 7)

/-- With 13102 prefixes every encoder succeeds and the receiver rejects the exchange block. -/
theorem not_delivers_large :
    ¬ ∀ (msg_id : UInt16) (req : VrfsRouteRequest) (payload frm : Bytes),
      encodeVrfsRouteRequest req = .ok payload → requestFrame msg_id req = .ok frm →
        Delivers frm req := by
  intro hall
  have hvalid := repeatedDefault_valid (n := 13102) (by omega)
  have hdel := hall 1 (repeatedDefault 13102) _ _
    ((encodeVrfsRouteRequest_writes _ _).mpr ⟨hvalid, rfl⟩) (requestFrame_of_valid hvalid 1)
  have hsize := size_of_delivers hdel
  rw [repeatedDefault_size, maxPayload, EXCHANGE_MIN_SIZE, CMD_HEADER_SIZE] at hsize
  omega

/-! ### Refused requests -/

/-- The world keeps the frame from being sent, whatever it is: the socket, the connection or the
first byte fails. -/
def Env.FailsFirst (env : Env) : Prop :=
  env.socketCreated = false ∨ env.nonblockingSet = false ∨ (∃ e, nbConnect env.connect = .error e) ∨
    refusesFirst env.send = true

def Report.IsFailure (report : Report) : Prop := (∃ f, report = .failed f) ∨ report = .complete false

theorem exchangeFrame_unsent {frm : Bytes} (hfrm : frm ≠ []) (env : Env) :
    ((exchangeFrame frm env).1.IsFailure ∧ (exchangeFrame frm env).2 = []) ↔ env.FailsFirst := by
  rw [Env.FailsFirst, exchangeFrame]
  cases hs : env.socketCreated with
  | false => simp [Report.IsFailure]
  | true =>
    cases hn : env.nonblockingSet with
    | false => simp [Report.IsFailure]
    | true =>
      cases hc : nbConnect env.connect with
      | error e => simp [Report.IsFailure]
      | ok u =>
        have hsend := nbSendAll_failed_nil hfrm env.send
        have hdone := nbSendAll_done env.send frm
        rcases hr : nbSendAll env.send frm with ⟨progress, sent⟩
        rw [hr] at hsend hdone
        cases progress with
        | waiting => simpa [Report.IsFailure] using hsend
        | failed e => simpa [Report.IsFailure] using hsend
        | done u =>
          -- the whole frame is out, so something was sent whatever the reply
          obtain rfl : sent = frm := hdone rfl
          have hno : refusesFirst env.send = false := by simpa using hsend
          cases nbRecvFrame env.recv [] <;> simp [hfrm, hno]

theorem requestFrame_of_refused {req : VrfsRouteRequest} {e : Fault CmdError}
    (h : encodeVrfsRouteRequest req = .error e) (msg_id : UInt16) :
    requestFrame msg_id req = .ok (commandFrame msg_id [0x01, 0x00, 0x00]) := by
  apply requestFrame_eq
  rw [makeRouteAddVrfs_of_refused h]
  exact encodeCommand_emptyRouteAdd

theorem decodeCommand_emptyRouteAdd : decodeCommand [0x01, 0x00, 0x00] = .ok emptyRouteAdd := by
  refine decodeCommand_ok.mpr ⟨⟨by decide, rfl⟩, [], ?_⟩
  rfl

/-- **Refused requests**: a VRF request the payload encoder refuses stays off the wire only where the
world fails first, and a refused interface request always becomes an acceptable ROUTE_ADD. -/
theorem refused_requests (msg_id : UInt16) (req : VrfsRouteRequest) (env : Env)
    (single : SingleRouteRequest) (e e' : Fault CmdError) :
    (encodeVrfsRouteRequest req = .error e →
      (((processRequest msg_id req env).1.IsFailure ∧ (processRequest msg_id req env).2 = []) ↔
        env.FailsFirst)) ∧
    (encodeRouteAddPayload single = .error e' →
      ∃ bytes cmd, encodeCommand (makeRouteAddBinary single) = .ok bytes ∧
        decodeCommand bytes = .ok cmd ∧ cmd.cmd_id = .ROUTE_ADD) := by
  refine ⟨fun h => ?_, fun h => ?_⟩
  · rw [processRequest, requestFrame_of_refused h]
    exact exchangeFrame_unsent (commandFrame_ne_nil _ _) env
  · refine ⟨_, emptyRouteAdd, ?_, decodeCommand_emptyRouteAdd, rfl⟩
    rw [makeRouteAddBinary_of_refused h, encodeCommand_emptyRouteAdd]

/-- A prefix of mask length 33. -/
def wideMask : PrefixIpv4 := ⟨ipv4 10 1 0 0, 33⟩

/-- One VRF with that prefix. -/
def wideMaskRequest : VrfsRouteRequest := oneVrf [wideMask]

/-- One interface with it. -/
def wideMaskInterface : SingleRouteRequest where
  interfaces :=
    [{ iface_name := .replicate _ 0
       nexthop_addr_ipv4 := ipv4 10 0 0 1
       nexthop_id_ipv4 := 1
       prefixes := [wideMask] }]

/-- A connected socket that takes a frame of up to 4096 bytes. -/
def readyEnv : Env := ⟨true, true, .connected, [.sent 4096], []⟩

theorem wideMaskRequest_refused :
    encodeVrfsRouteRequest wideMaskRequest = .error (.error .InvalidField) := rfl

theorem wideMaskInterface_refused :
    encodeRouteAddPayload wideMaskInterface = .error (.error .InvalidField) := rfl

theorem refused_requests_wideMask :
    (((processRequest 1 wideMaskRequest readyEnv).1.IsFailure ∧
      (processRequest 1 wideMaskRequest readyEnv).2 = []) ↔ readyEnv.FailsFirst) ∧
    (∃ bytes cmd, encodeCommand (makeRouteAddBinary wideMaskInterface) = .ok bytes ∧
      decodeCommand bytes = .ok cmd ∧ cmd.cmd_id = .ROUTE_ADD) :=
  have h := refused_requests 1 wideMaskRequest readyEnv wideMaskInterface _ _
  ⟨h.1 wideMaskRequest_refused, h.2 wideMaskInterface_refused⟩

/-- A mask length of 33 is refused by the payload encoder, and both requests go on regardless. -/
theorem refused_requests_sent :
    (¬ ∀ (msg_id : UInt16) (req : VrfsRouteRequest) (env : Env) (e : Fault CmdError),
        encodeVrfsRouteRequest req = .error e →
          (processRequest msg_id req env).1.IsFailure ∧ (processRequest msg_id req env).2 = []) ∧
    (¬ ∀ (req : SingleRouteRequest) (e : Fault CmdError), encodeRouteAddPayload req = .error e →
        ∃ e', encodeCommand (makeRouteAddBinary req) = .error e') := by
  refine ⟨fun hvrf => ?_, fun hsingle => ?_⟩
  · have hsent := hvrf 1 wideMaskRequest readyEnv _ wideMaskRequest_refused
    rw [processRequest, requestFrame_of_refused wideMaskRequest_refused] at hsent
    have hfails := (exchangeFrame_unsent (commandFrame_ne_nil _ _) readyEnv).mp hsent
    simp [Env.FailsFirst, readyEnv, nbConnect, refusesFirst] at hfails
  · obtain ⟨e', he'⟩ := hsingle wideMaskInterface _ wideMaskInterface_refused
    rw [makeRouteAddBinary_of_refused wideMaskInterface_refused, encodeCommand_emptyRouteAdd] at he'
    cases he'

end Rtsrv.Client
