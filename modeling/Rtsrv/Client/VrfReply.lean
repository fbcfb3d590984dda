import Rtsrv.Client.VrfExchange

/-!
# Rtsrv.Client.VrfReply — what a PASS rests on (`VrfUdpClient::processRequest`)

The verdict on a reply is its overall status.  The message type, the identifier and the acknowledgement byte
are decoded and printed, and the answers are counted by nobody: a reply of another type, to another request
or with a refusal passes too.
-/

namespace Rtsrv.Client

open Lib UdProto RouteProto CmdProto

/-- The exchange gets as far as a reply frame. -/
def Receives (msg_id : UInt16) (req : VrfsRouteRequest) (env : Env) (frame_recv : Bytes) : Prop :=
  ∃ frm, requestFrame msg_id req = .ok frm ∧ env.socketCreated = true ∧ env.nonblockingSet = true ∧
    nbConnect env.connect = .ok () ∧ (nbSendAll env.send frm).1 = .done () ∧
    nbRecvFrame env.recv [] = .done frame_recv

/-- A reply that confirms the request: a `DATA_ACK` with its identifier and status 0, and under overall
status 0 one answer for each VRF. -/
def Confirms (msg_id : UInt16) (req : VrfsRouteRequest) (frame_recv : Bytes) : Prop :=
  ∃ pkt msg resp, decodePacket frame_recv = .ok pkt ∧ decodeMessage pkt.data = .ok msg ∧
    decodeVrfsRouteResponse (msg.payload.drop 1) = .ok resp ∧ msg.msg_type = .DATA_ACK ∧
    msg.msg_id = msg_id ∧ msg.payload.head? = some 0x00 ∧ resp.status_code = 0x00 ∧
    (resp.answers.map VrfsAnswer.vrfs_name).Perm (req.vrfs_requests.map VrfsRequest.vrfs_name)

/-- The fields in the data of a packet that has overall status 0. -/
structure SuccessFields where
  msg_type : MsgType
  flags : UInt8
  msg_id : UInt16
  ack_status : UInt8
  answers : List (VrfsName × UInt8)
  deriving DecidableEq, Repr

namespace SuccessFields

def payload (r : SuccessFields) : Bytes := r.ack_status :: 0x00 :: r.answers.flatMap answerRecord

def bytes (r : SuccessFields) : Bytes := messageBytes ⟨r.msg_type, r.flags, r.msg_id, r.payload⟩

/-- They are the acknowledgement of this request. -/
def Acknowledges (r : SuccessFields) (msg_id : UInt16) (req : VrfsRouteRequest) : Prop :=
  r.msg_type = .DATA_ACK ∧ r.msg_id = msg_id ∧ r.ack_status = 0x00 ∧
    (r.answers.map Prod.fst).Perm (req.vrfs_requests.map VrfsRequest.vrfs_name)

theorem decodeMessage_bytes (r : SuccessFields) :
    decodeMessage r.bytes = .ok ⟨r.msg_type, r.flags, r.msg_id, r.payload⟩ := decodeMessage_ok.mpr rfl

theorem decode_payload (r : SuccessFields) :
    decodeVrfsRouteResponse (r.payload.drop 1) = .ok ⟨0x00, r.answers.map answerOf⟩ :=
  decodeVrfsRouteResponse_ok.mpr ⟨r.answers, rfl, rfl⟩

theorem names_answerOf (answers : List (VrfsName × UInt8)) :
    (answers.map answerOf).map VrfsAnswer.vrfs_name = answers.map Prod.fst := by
  rw [List.map_map]
  rfl

end SuccessFields

/-- A reply passes exactly when its packet has overall status 0 in front of whole answers. -/
theorem reportReply_pass {frame_recv : Bytes} :
    reportReply frame_recv = .complete true ↔
      ∃ pkt, decodePacket frame_recv = .ok pkt ∧ ∃ r : SuccessFields, pkt.data = r.bytes := by
  constructor
  · intro h
    rw [reportReply] at h
    cases hpkt : decodePacket frame_recv with
    | error e =>
      rw [hpkt] at h
      cases h
    | ok pkt =>
      refine ⟨pkt, rfl, ?_⟩
      simp only [hpkt] at h
      cases hmsg : decodeMessage pkt.data with
      | error e =>
        rw [hmsg] at h
        cases h
      | ok msg =>
        simp only [hmsg] at h
        split_ifs at h with hshort
        cases hresp : decodeVrfsRouteResponse (msg.payload.drop 1) with
        | error e =>
          rw [hresp] at h
          cases h
        | ok resp =>
          simp only [hresp, Report.complete.injEq, decide_eq_true_eq] at h
          obtain ⟨records, hbody, -⟩ := decodeVrfsRouteResponse_ok.mp hresp
          obtain ⟨ack, body, hpayload⟩ := List.exists_cons_of_length_pos (l := msg.payload) (by omega)
          refine ⟨⟨msg.msg_type, msg.flags, msg.msg_id, ack, records⟩, ?_⟩
          rw [hpayload, List.drop_one, List.tail_cons, h] at hbody
          rw [← Except.ok.inj (decodeMessage_ok.mp hmsg), SuccessFields.bytes, SuccessFields.payload, ← hbody,
            ← hpayload]
          rfl
  · rintro ⟨pkt, hpkt, r, hdata⟩
    have hlong : ¬r.payload.length < 2 := by simp [SuccessFields.payload]
    simp only [reportReply, hpkt, hdata, r.decodeMessage_bytes, if_neg hlong, r.decode_payload, decide_true]

theorem confirms_iff {msg_id : UInt16} {req : VrfsRouteRequest} {frame_recv : Bytes} {pkt : Packet}
    {r : SuccessFields} (hpkt : decodePacket frame_recv = .ok pkt) (hdata : pkt.data = r.bytes) :
    Confirms msg_id req frame_recv ↔ r.Acknowledges msg_id req := by
  constructor
  · rintro ⟨pkt', msg, resp, hpkt', hmsg, hresp, htype, hid, hack, -, hnames⟩
    obtain rfl := Except.ok.inj (hpkt.symm.trans hpkt')
    rw [hdata, r.decodeMessage_bytes] at hmsg
    obtain rfl := Except.ok.inj hmsg
    rw [r.decode_payload] at hresp
    obtain rfl := Except.ok.inj hresp
    rw [SuccessFields.names_answerOf] at hnames
    exact ⟨htype, hid, Option.some.inj hack, hnames⟩
  · rintro ⟨htype, hid, hack, hnames⟩
    refine ⟨pkt, _, _, hpkt, by rw [hdata, r.decodeMessage_bytes], r.decode_payload, htype, hid, ?_, rfl, ?_⟩
    · exact congrArg some hack
    · rw [SuccessFields.names_answerOf]
      exact hnames

/-- A verdict comes from a reply frame. -/
theorem processRequest_complete {msg_id : UInt16} {req : VrfsRouteRequest} {env : Env} {pass : Bool} :
    (processRequest msg_id req env).1 = .complete pass ↔
      ∃ frame_recv, Receives msg_id req env frame_recv ∧ reportReply frame_recv = .complete pass := by
  constructor
  · intro h
    rw [processRequest] at h
    cases hfrm : requestFrame msg_id req with
    | error f =>
      rw [hfrm] at h
      cases h
    | ok frm =>
      simp only [hfrm, exchangeFrame, Bool.not_eq_true'] at h
      split_ifs at h with hsocket hnonblock
      cases hconn : nbConnect env.connect with
      | error e =>
        rw [hconn] at h
        cases h
      | ok u =>
        simp only [hconn] at h
        rcases hsend : nbSendAll env.send frm with ⟨progress, sent⟩
        rw [hsend] at h
        cases progress with
        | waiting => cases h
        | failed e => cases h
        | done u =>
          simp only at h
          cases hrecv : nbRecvFrame env.recv [] with
          | waiting =>
            rw [hrecv] at h
            cases h
          | failed e =>
            rw [hrecv] at h
            cases h
          | done frame_recv =>
            rw [hrecv] at h
            have hsocket' : env.socketCreated = true := by simpa using hsocket
            have hnonblock' : env.nonblockingSet = true := by simpa using hnonblock
            exact ⟨frame_recv, ⟨frm, hfrm, hsocket', hnonblock', hconn, by rw [hsend], hrecv⟩, h⟩
  · rintro ⟨frame_recv, ⟨frm, hfrm, hsocket, hnonblock, hconn, hsend, hrecv⟩, hreport⟩
    rcases hsent : nbSendAll env.send frm with ⟨progress, sent⟩
    rw [hsent] at hsend
    obtain rfl : progress = .done () := hsend
    simp only [processRequest, exchangeFrame, hfrm, hsocket, hnonblock, hconn, hsent, hrecv, hreport]
    rfl

/-- **A request passes only when its reply confirms it, exactly when no frame that is received reports
overall success in anything but the acknowledgement of the request.** -/
theorem pass_confirmed_iff (msg_id : UInt16) (req : VrfsRouteRequest) (env : Env) :
    ((processRequest msg_id req env).1 = .complete true →
        ∃ frame_recv, Receives msg_id req env frame_recv ∧ Confirms msg_id req frame_recv) ↔
      ∀ frame_recv pkt, Receives msg_id req env frame_recv → decodePacket frame_recv = .ok pkt →
        ∀ r : SuccessFields, pkt.data = r.bytes → r.Acknowledges msg_id req := by
  constructor
  · intro hpass frame_recv pkt hrecv hpkt r hdata
    obtain ⟨frame', hrecv', hconfirms⟩ := hpass (processRequest_complete.mpr
      ⟨frame_recv, hrecv, reportReply_pass.mpr ⟨pkt, hpkt, r, hdata⟩⟩)
    obtain ⟨_, -, -, -, -, -, hframe⟩ := hrecv
    obtain ⟨_, -, -, -, -, -, hframe'⟩ := hrecv'
    obtain rfl := Progress.done.inj (hframe.symm.trans hframe')
    exact (confirms_iff hpkt hdata).mp hconfirms
  · intro hall hpass
    obtain ⟨frame_recv, hrecv, hreport⟩ := processRequest_complete.mp hpass
    obtain ⟨pkt, hpkt, r, hdata⟩ := reportReply_pass.mp hreport
    exact ⟨frame_recv, hrecv, (confirms_iff hpkt hdata).mpr (hall frame_recv pkt hrecv hpkt r hdata)⟩

/-! ### A reply that confirms nothing -/

theorem nbSendAll_whole (data : Bytes) : (nbSendAll [.sent data.length] data).1 = .done () := by
  cases data with
  | nil => rfl
  | cons b data =>
    rw [nbSendAll, List.drop_length]
    rfl

theorem nbRecvFrame_frame (raw : Bytes) : nbRecvFrame [.received (frame raw)] [] = .done (frame raw) := by
  have hfind : findFrame ([] ++ frame raw) = .ok (frame raw, (stuff raw).length + 2) := by
    have h := @findFrame_frame [] (stuff raw) [] List.not_mem_nil (delim_notMem_stuff raw)
    simpa [frame] using h
  rw [nbRecvFrame, hfind]

/-- An ERROR message about another request, with a refusal and no answer. -/
def strayReply : SuccessFields := ⟨.ERROR, 0, 999, 0x01, []⟩

def strayPacket : Packet := (⟨0, 999, 1, 0, strayReply.bytes⟩ : Packet).filled

/-- The frame of the request is sent whole, and the stray reply comes back. -/
def strayEnv (frm : Bytes) : Env :=
  ⟨true, true, .connected, [.sent frm.length], [.received (frame (packetPayload strayPacket))]⟩

/-- An ERROR message to another request passes. -/
theorem stray_reply_passes :
    ¬ ∀ (msg_id : UInt16) (req : VrfsRouteRequest) (env : Env),
      (processRequest msg_id req env).1 = .complete true →
      ∃ frame_recv, Receives msg_id req env frame_recv ∧ Confirms msg_id req frame_recv := by
  intro h
  have hvalid := repeatedDefault_valid (n := 2) (by omega)
  have hfrm := requestFrame_of_valid hvalid 7
  have hpkt : decodePacket (frame (packetPayload strayPacket)) = .ok strayPacket :=
    decodePacket_frame (Packet.filled_length_of_zero rfl)
  have hrecv : Receives 7 (repeatedDefault 2) (strayEnv _) _ :=
    ⟨_, hfrm, rfl, rfl, rfl, nbSendAll_whole _, nbRecvFrame_frame _⟩
  obtain ⟨frame', ⟨_, -, -, -, -, -, hframe⟩, hconfirms⟩ := h 7 (repeatedDefault 2) (strayEnv _)
    (processRequest_complete.mpr ⟨_, hrecv, reportReply_pass.mpr ⟨_, hpkt, strayReply, rfl⟩⟩)
  obtain rfl := Progress.done.inj ((nbRecvFrame_frame _).symm.trans hframe)
  exact absurd ((confirms_iff hpkt (r := strayReply) rfl).mp hconfirms).1 (by decide)

end Rtsrv.Client
