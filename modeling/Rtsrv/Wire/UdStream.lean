import Rtsrv.Wire.UdProto

/-!
# Rtsrv.Wire.UdStream — frames in a byte stream

A receiver scans a stream with `findFrame` and decodes each frame it finds.  Two results: a stream of
encoded packets is cut exactly at the frames, after any text without delimiters; and a frame that was
found and accepted is the one the encoder writes for what it decoded to.
-/

namespace Rtsrv.UdProto

open Lib

/-! ### What the encoders write -/

/-- The packet with the length field that `encode_packet` gives it. -/
def Packet.filled (pkt : Packet) : Packet :=
  { pkt with length := if pkt.length ≠ 0 then pkt.length else totalLength pkt.data }

theorem encodePacket_eq (pkt : Packet) :
    encodePacket pkt = .ok (frame (packetPayload pkt.filled)) := rfl

theorem Packet.filled_of_total {pkt : Packet} (h : pkt.length = totalLength pkt.data) :
    pkt.filled = pkt := by
  obtain ⟨l, pn, tp, c, data⟩ := pkt
  simp only [Packet.filled, Packet.mk.injEq, and_true] at h ⊢
  split_ifs
  · rfl
  · exact h.symm

theorem Packet.filled_length_of_zero {pkt : Packet} (h : pkt.length = 0) :
    pkt.filled.length = totalLength pkt.filled.data := if_neg (not_not.mpr h)

theorem encodePacket_of_total {pkt : Packet} (h : pkt.length = totalLength pkt.data) :
    encodePacket pkt = .ok (frame (packetPayload pkt)) := by
  rw [encodePacket_eq, Packet.filled_of_total h]

theorem encodeResponse_of_total {rsp : Response} (h : rsp.length = totalLength [rsp.status]) :
    encodeResponse rsp = .ok (frame (packetPayload rsp.packet)) :=
  @encodePacket_of_total rsp.packet h

theorem decodePacket_frame {pkt : Packet} (h : pkt.length = totalLength pkt.data) :
    decodePacket (frame (packetPayload pkt)) = .ok pkt :=
  decodePacket_ok.mpr ⟨_, rfl, (destuff_ok (delim_notMem_stuff _)).mpr rfl, h⟩

/-! ### The length field -/

theorem packetPayload_injective : Function.Injective packetPayload := by
  intro pkt pkt' h
  obtain ⟨length, pkt_num, total_pkts, ctrl, data⟩ := pkt
  obtain ⟨length', pkt_num', total_pkts', ctrl', data'⟩ := pkt'
  obtain ⟨h1, h2, h3, h4, h5⟩ := read_fields length pkt_num total_pkts ctrl
    (crc16 (requestBody length pkt_num total_pkts ctrl data)) data
  obtain ⟨h1', h2', h3', h4', h5'⟩ := read_fields length' pkt_num' total_pkts' ctrl'
    (crc16 (requestBody length' pkt_num' total_pkts' ctrl' data')) data'
  rw [packetPayload, packetPayload, buildRequestPayload, buildRequestPayload] at h
  dsimp only at h
  rw [h] at h1 h2 h3 h4 h5
  rw [Packet.mk.injEq]
  exact ⟨Except.ok.inj (h1.symm.trans h1'), Except.ok.inj (h2.symm.trans h2'),
    Except.ok.inj (h3.symm.trans h3'), Except.ok.inj (h4.symm.trans h4'), Except.ok.inj (h5.symm.trans h5')⟩

/-- The frame of a packet is accepted when its length field is right. -/
theorem decodePacket_payload {pkt p : Packet} :
    decodePacket (frame (packetPayload pkt)) = .ok p ↔ pkt.length = totalLength pkt.data ∧ p = pkt := by
  refine ⟨fun h => ?_, ?_⟩
  · obtain ⟨inner, hfrm, hinner, hlen⟩ := decodePacket_ok.mp h
    obtain rfl : stuff (packetPayload pkt) = inner := List.append_cancel_right (List.cons.inj hfrm).2
    rw [(destuff_ok (delim_notMem_stuff _)).mpr rfl] at hinner
    obtain rfl := packetPayload_injective (Except.ok.inj hinner)
    exact ⟨hlen, rfl⟩
  · rintro ⟨hlen, rfl⟩
    exact decodePacket_frame hlen

/-- What is a response is a packet with one byte of data. -/
theorem decodeResponse_iff_packet {frm : Bytes} {rsp : Response} :
    decodeResponse frm = .ok rsp ↔ decodePacket frm = .ok rsp.packet := by
  rw [decodeResponse_ok, decodePacket_ok]
  rfl

/-- A frame with more or less than one byte of data is no response. -/
theorem decodeResponse_badLength {frm : Bytes} {pkt : Packet} (h : decodePacket frm = .ok pkt)
    (hdata : pkt.data.length ≠ 1) : decodeResponse frm = .error (.error .BadLength) := by
  obtain ⟨inner, hfrm, hinner, hlen⟩ := decodePacket_ok.mp h
  have hraw := extractPayload_ok.mpr ⟨inner, hfrm, hinner, pkt, rfl, hlen⟩
  rw [decodeResponse, hraw, ok_bind, if_pos]
  rw [packetPayload, buildRequestPayload_length, MIN_PAYLOAD]
  omega

/-- The length field that is written is right when the caller gave none or the right one. -/
theorem Packet.filled_length_iff {pkt : Packet} :
    pkt.filled.length = totalLength pkt.data ↔ pkt.length = 0 ∨ pkt.length = totalLength pkt.data := by
  by_cases hzero : pkt.length = 0
  · exact iff_of_true (Packet.filled_length_of_zero hzero) (.inl hzero)
  · rw [Packet.filled, if_pos hzero]
    exact (or_iff_right hzero).symm

theorem Packet.filled_eq {pkt : Packet} (h : pkt.filled.length = totalLength pkt.data) :
    pkt.filled = { pkt with length := totalLength pkt.data } := by
  rw [← h]
  rfl

/-- What comes back of a packet that was sent with some length field. -/
theorem decodePacket_sent (pkt : Packet) : ∃ frm, encodePacket pkt = .ok frm ∧ ∀ p,
    decodePacket frm = .ok p ↔ (pkt.length = 0 ∨ pkt.length = totalLength pkt.data) ∧
      p = { pkt with length := totalLength pkt.data } := by
  refine ⟨_, encodePacket_eq pkt, fun p => decodePacket_payload.trans ?_⟩
  rw [← Packet.filled_length_iff]
  exact and_congr_right fun hlen => by rw [Packet.filled_eq hlen]

/-! ### Frames are canonical -/

/-- A found frame has no delimiter inside, so its contents are the stuffing of what they decode to. -/
theorem found_eq_frame {stream frm inner raw : Bytes} {stop : ℕ}
    (hf : findFrame stream = .ok (frm, stop)) (hi : frm = FRAME_DELIM :: (inner ++ [FRAME_DELIM]))
    (hd : destuff inner = .ok raw) : frm = frame raw := by
  obtain ⟨g, body, rest, -, -, hb, hbody, -⟩ := findFrame_ok.mp hf
  obtain rfl : inner = body := by
    rw [hi, List.cons.injEq] at hbody
    exact List.append_cancel_right hbody.2
  rw [hi, (destuff_ok hb).mp hd]
  rfl

/-- **A found frame that decodes is canonical**: encoding the packet or response it decodes to gives
back the frame. -/
theorem found_frame_canonical (stream : Bytes) (offset : ℕ) (frm : Bytes) (stop : ℕ)
    (hf : findFrame (stream.drop offset) = .ok (frm, stop)) :
    (∀ pkt, decodePacket frm = .ok pkt → encodePacket pkt = .ok frm) ∧
    (∀ rsp, decodeResponse frm = .ok rsp → encodeResponse rsp = .ok frm) := by
  refine ⟨fun pkt h => ?_, fun rsp h => ?_⟩
  · obtain ⟨inner, hi, hd, hlen⟩ := decodePacket_ok.mp h
    rw [found_eq_frame hf hi hd]
    exact encodePacket_of_total hlen
  · obtain ⟨inner, hi, hd, hlen⟩ := decodeResponse_ok.mp h
    rw [found_eq_frame hf hi hd]
    exact encodeResponse_of_total hlen

/-- An empty packet behind a stray byte. -/
theorem found_frame_canonical_empty :
    let frm := frame (packetPayload ⟨12, 1, 1, 0, []⟩)
    (∀ pkt, decodePacket frm = .ok pkt → encodePacket pkt = .ok frm) ∧
    (∀ rsp, decodeResponse frm = .ok rsp → encodeResponse rsp = .ok frm) :=
  found_frame_canonical ([0x01] ++ frame (packetPayload ⟨12, 1, 1, 0, []⟩)) 0 _ _
    (findFrame_frame (by decide) (delim_notMem_stuff _))

/-! ### Scanning a stream -/

theorem findFrame_stop_pos {stream frm : Bytes} {stop : ℕ} (h : findFrame stream = .ok (frm, stop)) :
    0 < stop ∧ 0 < stream.length := by
  obtain ⟨g, body, rest, rfl, -, -, -, rfl⟩ := findFrame_ok.mp h
  exact ⟨by omega, by simp only [List.length_append, List.length_cons]; omega⟩

/-- Find a frame, decode it, continue at its end; the second component is what `find_frame` reports
when it finds no more. -/
def scan (stream : Bytes) : List (Except (Fault ProtoError) Packet) × Fault ProtoError :=
  match h : findFrame stream with
  | .error e => ([], e)
  | .ok (frm, stop) =>
    have : (stream.drop stop).length < stream.length := by
      have := findFrame_stop_pos h
      rw [List.length_drop]
      exact Nat.sub_lt this.2 this.1
    let r := scan (stream.drop stop)
    (decodePacket frm :: r.1, r.2)
termination_by stream.length
decreasing_by assumption

theorem scan_of_error {stream : Bytes} {e : Fault ProtoError} (h : findFrame stream = .error e) :
    scan stream = ([], e) := by
  rw [scan]
  split
  · next h' => rw [h, Except.error.injEq] at h'; rw [h']
  · next h' => rw [h] at h'; cases h'

theorem scan_of_ok {stream frm : Bytes} {stop : ℕ} (h : findFrame stream = .ok (frm, stop)) :
    scan stream =
      (decodePacket frm :: (scan (stream.drop stop)).1, (scan (stream.drop stop)).2) := by
  rw [scan]
  split
  · next h' => rw [h] at h'; cases h'
  · next h' =>
    rw [h, Except.ok.injEq, Prod.mk.injEq] at h'
    obtain ⟨rfl, rfl⟩ := h'
    rfl

/-- One frame at the front of a stream, behind text without delimiters. -/
theorem scan_frame {g rest : Bytes} (pkt : Packet) (hg : FRAME_DELIM ∉ g)
    (h : pkt.length = totalLength pkt.data) :
    scan (g ++ (frame (packetPayload pkt) ++ rest)) = (.ok pkt :: (scan rest).1, (scan rest).2) := by
  have hshape : g ++ (frame (packetPayload pkt) ++ rest) =
      g ++ FRAME_DELIM :: (stuff (packetPayload pkt) ++ FRAME_DELIM :: rest) := by
    simp [frame]
  have hfound : findFrame (g ++ FRAME_DELIM :: (stuff (packetPayload pkt) ++ FRAME_DELIM :: rest)) = _ :=
    findFrame_frame hg (delim_notMem_stuff (packetPayload pkt))
  have hdrop : (g ++ (frame (packetPayload pkt) ++ rest)).drop
      (g.length + (stuff (packetPayload pkt)).length + 2) = rest := by
    rw [← List.append_assoc]
    exact List.drop_left' (by simp [frame]; omega)
  rw [← hshape] at hfound
  rw [scan_of_ok hfound, hdrop]
  show (decodePacket (frame (packetPayload pkt)) :: _, _) = _
  rw [decodePacket_frame h]

/-- The encoded frames of a list of packets, one after the other. -/
def encodeStream (pkts : List Packet) : Except (Fault ProtoError) Bytes := writeAll encodePacket pkts

/-- A length field that is zero or the size of the payload, which fits the field. -/
def Packet.Sendable (pkt : Packet) : Prop :=
  pkt.data.length < 2 ^ 32 - 12 ∧
    (pkt.length = 0 ∨ pkt.length.toNat = HEADER_SIZE + pkt.data.length + CRC_SIZE)

theorem totalLength_toNat {data : Bytes} (h : data.length < 2 ^ 32 - 12) :
    (totalLength data).toNat = HEADER_SIZE + data.length + CRC_SIZE := by
  rw [totalLength, UInt32.toNat_ofNat']
  exact Nat.mod_eq_of_lt (by rw [HEADER_SIZE, CRC_SIZE]; omega)

theorem Packet.Sendable.filled_length {pkt : Packet} (h : pkt.Sendable) :
    pkt.filled.length = totalLength pkt.data := by
  obtain ⟨hsize, hzero | hlen⟩ := h
  · exact Packet.filled_length_of_zero hzero
  · have heq : pkt.length = totalLength pkt.data := by
      rw [← UInt32.toNat_inj, hlen, totalLength_toNat hsize]
    rw [Packet.filled_of_total heq, heq]

/-- **The length field is enforced**: a packet or a response comes back when the caller left it zero or gave
the size of the payload, with the size filled in, and otherwise its frame is rejected.  A frame that carries
more or less than one byte of data is no response. -/
theorem length_field_enforced (pkt : Packet) (rsp : Response) (hsize : pkt.data.length < 2 ^ 32 - 12) :
    (∃ frm, encodePacket pkt = .ok frm ∧ ∀ p, decodePacket frm = .ok p ↔
      (pkt.length = 0 ∨ pkt.length.toNat = 12 + pkt.data.length) ∧
        p = { pkt with length := UInt32.ofNat (12 + pkt.data.length) }) ∧
    (∃ frm, encodeResponse rsp = .ok frm ∧ ∀ r, decodeResponse frm = .ok r ↔
      (rsp.length = 0 ∨ rsp.length.toNat = 13) ∧ r = { rsp with length := 13 }) ∧
    ∀ frm p, decodePacket frm = .ok p → p.data.length ≠ 1 → ∃ e, decodeResponse frm = .error (.error e) := by
  refine ⟨?_, ?_, fun frm p h hdata => ⟨_, decodeResponse_badLength h hdata⟩⟩
  · obtain ⟨frm, henc, hdec⟩ := decodePacket_sent pkt
    have hcount : HEADER_SIZE + pkt.data.length + CRC_SIZE = 12 + pkt.data.length := by
      rw [HEADER_SIZE, CRC_SIZE]
      omega
    refine ⟨frm, henc, fun p => (hdec p).trans ?_⟩
    rw [← UInt32.toNat_inj (b := totalLength pkt.data), totalLength_toNat hsize, totalLength, hcount]
  · obtain ⟨frm, henc, hdec⟩ := decodePacket_sent rsp.packet
    have htotal : totalLength rsp.packet.data = 13 := rfl
    refine ⟨frm, henc, fun r => decodeResponse_iff_packet.trans ((hdec r.packet).trans ?_)⟩
    rw [htotal, ← UInt32.toNat_inj (a := rsp.packet.length) (b := 13)]
    refine and_congr_right fun _ => ?_
    obtain ⟨length, pkt_num, total_pkts, ctrl, status⟩ := r
    simp [Response.packet]

theorem length_field_enforced_wrong :
    (∃ frm, encodePacket ⟨14, 1, 1, 0, [0x7E]⟩ = .ok frm ∧ ∀ p, decodePacket frm = .ok p ↔
      ((14 : UInt32) = 0 ∨ (14 : UInt32).toNat = 12 + [(0x7E : UInt8)].length) ∧
        p = ⟨UInt32.ofNat (12 + [(0x7E : UInt8)].length), 1, 1, 0, [0x7E]⟩) ∧
    (∃ frm, encodeResponse ⟨0, 1, 1, 0, 0x7D⟩ = .ok frm ∧ ∀ r, decodeResponse frm = .ok r ↔
      ((0 : UInt32) = 0 ∨ (0 : UInt32).toNat = 13) ∧ r = ⟨13, 1, 1, 0, 0x7D⟩) ∧
    ∀ frm p, decodePacket frm = .ok p → p.data.length ≠ 1 → ∃ e, decodeResponse frm = .error (.error e) :=
  length_field_enforced ⟨14, 1, 1, 0, [0x7E]⟩ ⟨0, 1, 1, 0, 0x7D⟩ (by decide)

theorem encodeStream_scan (pkts : List Packet) (hs : ∀ pkt ∈ pkts, pkt.Sendable) :
    ∃ stream, encodeStream pkts = .ok stream ∧ ∀ g, FRAME_DELIM ∉ g →
      scan (g ++ stream) = (pkts.map (.ok ·.filled), .error .IncompleteFrame) := by
  induction pkts with
  | nil =>
    refine ⟨[], rfl, fun g hg => ?_⟩
    rw [List.append_nil]
    exact scan_of_error (findFrame_none hg)
  | cons pkt pkts ih =>
    obtain ⟨hp, hs⟩ := List.forall_mem_cons.mp hs
    obtain ⟨stream, henc, hscan⟩ := ih hs
    refine ⟨frame (packetPayload pkt.filled) ++ stream, ?_, fun g hg => ?_⟩
    · rw [encodeStream] at henc ⊢
      rw [writeAll, henc, encodePacket_eq]
      rfl
    · -- the rest of the stream is scanned with no text in front of it
      have hrest := hscan [] (by simp)
      rw [List.nil_append] at hrest
      rw [scan_frame pkt.filled hg hp.filled_length, hrest]
      rfl

/-- **Stream round trip**: the packets come back in order, with a zero length field filled in. -/
theorem scan_encodeStream (pkts : List Packet) (g : Bytes) (hs : ∀ pkt ∈ pkts, pkt.Sendable)
    (hg : FRAME_DELIM ∉ g) :
    ∃ stream, encodeStream pkts = .ok stream ∧
      scan (g ++ stream) = (pkts.map (.ok ·.filled), .error .IncompleteFrame) ∧
      ∀ pkt ∈ pkts, pkt.filled.length.toNat = HEADER_SIZE + pkt.data.length + CRC_SIZE ∧
        (pkt.length ≠ 0 → pkt.filled = pkt) := by
  obtain ⟨stream, henc, hscan⟩ := encodeStream_scan pkts hs
  refine ⟨stream, henc, hscan g hg, fun pkt hpkt => ⟨?_, fun hne => ?_⟩⟩
  · rw [(hs pkt hpkt).filled_length, totalLength_toNat (hs pkt hpkt).1]
  · have hl := (hs pkt hpkt).filled_length
    rw [Packet.filled, if_pos hne] at hl
    exact Packet.filled_of_total hl

theorem scan_encodeStream_pair :
    let pkts : List Packet := [⟨0, 1, 2, 0, [0x7E]⟩, ⟨14, 2, 2, 0, [0x7D, 0x7E]⟩]
    ∃ stream, encodeStream pkts = .ok stream ∧
      scan ([0x00, 0x7D] ++ stream) = (pkts.map (.ok ·.filled), .error .IncompleteFrame) ∧
      ∀ pkt ∈ pkts, pkt.filled.length.toNat = HEADER_SIZE + pkt.data.length + CRC_SIZE ∧
        (pkt.length ≠ 0 → pkt.filled = pkt) :=
  scan_encodeStream [⟨0, 1, 2, 0, [0x7E]⟩, ⟨14, 2, 2, 0, [0x7D, 0x7E]⟩] [0x00, 0x7D]
    (by simp [Packet.Sendable, HEADER_SIZE, CRC_SIZE]) (by decide)

/-- A packet sent with length zero comes back with another length, so the packets received are not
the packets sent. -/
theorem scan_encodeStream_zero :
    ¬ ∀ (pkts : List Packet) (g : Bytes), (∀ pkt ∈ pkts, pkt.Sendable) → FRAME_DELIM ∉ g →
      ∃ stream, encodeStream pkts = .ok stream ∧
        scan (g ++ stream) = (pkts.map .ok, .error .IncompleteFrame) := by
  intro hall
  have hs : ∀ pkt ∈ [(⟨0, 1, 1, 0, []⟩ : Packet)], pkt.Sendable := by simp [Packet.Sendable]
  obtain ⟨stream, henc, hscan⟩ := encodeStream_scan [⟨0, 1, 1, 0, []⟩] hs
  obtain ⟨stream', henc', hscan'⟩ := hall [⟨0, 1, 1, 0, []⟩] [] hs (by decide)
  obtain rfl : stream = stream' := by rw [henc, Except.ok.injEq] at henc'; exact henc'
  rw [hscan [] (by decide)] at hscan'
  exact absurd hscan' (by decide)

/-! ### Starting in the middle of a frame -/

/-- A frame that `encode_packet` or `encode_response` writes. -/
def Encoded (frm : Bytes) : Prop :=
  (∃ pkt, encodePacket pkt = .ok frm) ∨ ∃ rsp, encodeResponse rsp = .ok frm

/-- The reader of the stream comes to decode the frame. -/
def Recovers (stream frm : Bytes) : Prop :=
  ∃ pkt, decodePacket frm = .ok pkt ∧ .ok pkt ∈ (scan stream).1

theorem Encoded.body {frm : Bytes} (h : Encoded frm) :
    ∃ body, FRAME_DELIM ∉ body ∧ frm = FRAME_DELIM :: (body ++ [FRAME_DELIM]) := by
  rcases h with ⟨pkt, h⟩ | ⟨rsp, h⟩
  · exact ⟨_, delim_notMem_stuff _, (Except.ok.inj h).symm⟩
  · exact ⟨_, delim_notMem_stuff _, (Except.ok.inj h).symm⟩

/-- What is left of a frame whose start is lost: text without delimiters, then its closing delimiter. -/
theorem Encoded.suffix {frm suf : Bytes} (h : Encoded frm) (hsuf : suf <:+ frm) (hne : suf ≠ [])
    (hproper : suf ≠ frm) : ∃ g, FRAME_DELIM ∉ g ∧ suf = g ++ [FRAME_DELIM] := by
  obtain ⟨body, hbody, rfl⟩ := h.body
  rcases List.suffix_cons_iff.mp hsuf with rfl | hsuf
  · exact absurd rfl hproper
  · rcases List.suffix_concat_iff.mp hsuf with rfl | ⟨g, rfl, hg⟩
    · exact absurd rfl hne
    · exact ⟨g, fun hmem => hbody (hg.subset hmem), rfl⟩

theorem findFrame_single {g : Bytes} (hg : FRAME_DELIM ∉ g) :
    findFrame (g ++ [FRAME_DELIM]) = .error (.error .IncompleteFrame) := by
  have hstart := findIdx_split (t := []) (beq_delim_false hg) (beq_self_eq_true FRAME_DELIM)
  rw [findFrame, if_neg (by simp), hstart, if_neg (by simp), if_pos]
  rw [List.length_append]
  exact Nat.le_add_right _ _

/-- Out of phase the reader pairs every closing delimiter with the next opening one: it finds as many
empty pairs as there are frames, and rejects them all. -/
theorem scan_out_of_phase {frames : List Bytes} (hframes : ∀ frm ∈ frames, Encoded frm) :
    ∀ g, FRAME_DELIM ∉ g → (scan (g ++ FRAME_DELIM :: frames.flatten)).1 =
      List.replicate frames.length (.error (.error .BadLength)) := by
  induction frames with
  | nil =>
    intro g hg
    rw [List.flatten_nil, scan_of_error (findFrame_single hg)]
    rfl
  | cons frm frames ih =>
    intro g hg
    obtain ⟨hfrm, htail⟩ := List.forall_mem_cons.mp hframes
    obtain ⟨body, hbody, rfl⟩ := hfrm.body
    have hshape : g ++ FRAME_DELIM :: ((FRAME_DELIM :: (body ++ [FRAME_DELIM])) :: frames).flatten =
        g ++ FRAME_DELIM :: ([] ++ FRAME_DELIM :: (body ++ FRAME_DELIM :: frames.flatten)) := by
      simp
    have hrest : (g ++ FRAME_DELIM :: ([] ++ FRAME_DELIM :: (body ++ FRAME_DELIM :: frames.flatten))).drop
        (g.length + ([] : Bytes).length + 2) = body ++ FRAME_DELIM :: frames.flatten := by
      rw [List.length_nil, Nat.add_zero, ← List.drop_drop, List.drop_left]
      rfl
    have hreject : decodePacket (FRAME_DELIM :: ([] ++ [FRAME_DELIM])) = .error (.error .BadLength) := by
      rw [decodePacket, extractPayload_inner]
      rfl
    rw [hshape, scan_of_ok (findFrame_frame hg (by simp)), hrest, hreject, ih htail body hbody]
    rfl

/-- **After a partial frame nothing is recovered.**  The reader that starts inside a frame gets back every
complete frame behind it exactly when there is none. -/
theorem recovers_iff (frm suf : Bytes) (frames : List Bytes) (hfrm : Encoded frm) (hsuf : suf <:+ frm)
    (hne : suf ≠ []) (hproper : suf ≠ frm) (hframes : ∀ f ∈ frames, Encoded f) :
    (∀ f ∈ frames, Recovers (suf ++ frames.flatten) f) ↔ frames = [] := by
  obtain ⟨g, hg, rfl⟩ := hfrm.suffix hsuf hne hproper
  refine ⟨fun h => ?_, ?_⟩
  · by_contra hsome
    obtain ⟨f, hf⟩ := List.exists_mem_of_ne_nil frames hsome
    obtain ⟨pkt, -, hmem⟩ := h f hf
    rw [List.append_assoc, List.singleton_append, scan_out_of_phase hframes g hg] at hmem
    cases List.eq_of_mem_replicate hmem
  · rintro rfl f hf
    cases hf

/-- The frame of a packet without data. -/
def emptyFrame : Bytes := frame (packetPayload ⟨12, 1, 1, 0, []⟩)

theorem emptyFrame_encoded : Encoded emptyFrame := .inl ⟨⟨12, 1, 1, 0, []⟩, rfl⟩

theorem delim_suffix_emptyFrame : [FRAME_DELIM] <:+ emptyFrame :=
  ⟨FRAME_DELIM :: stuff (packetPayload ⟨12, 1, 1, 0, []⟩), rfl⟩

/-- One lost start, and two frames behind it that are not both recovered. -/
theorem recovers_iff_two :
    (∀ f ∈ [emptyFrame, emptyFrame], Recovers ([FRAME_DELIM] ++ [emptyFrame, emptyFrame].flatten) f) ↔
      [emptyFrame, emptyFrame] = [] :=
  recovers_iff emptyFrame [FRAME_DELIM] [emptyFrame, emptyFrame] emptyFrame_encoded delim_suffix_emptyFrame
    (by simp) (by decide) (by simp [emptyFrame_encoded])

/-- A closing delimiter alone hides the frame behind it: the two delimiters between them are taken for a
frame, and the end of the stream for an incomplete one. -/
theorem not_recovers_after_delim :
    ¬ ∀ (frm suf : Bytes) (frames : List Bytes), Encoded frm → suf <:+ frm → suf ≠ [] → suf ≠ frm →
      (∀ f ∈ frames, Encoded f) → ∀ f ∈ frames, Recovers (suf ++ frames.flatten) f := by
  intro h
  have hone : ∀ f ∈ [emptyFrame], Encoded f := by
    intro f hf
    rw [List.mem_singleton.mp hf]
    exact emptyFrame_encoded
  obtain ⟨pkt, -, hmem⟩ := h emptyFrame [FRAME_DELIM] [emptyFrame] emptyFrame_encoded delim_suffix_emptyFrame
    (by simp) (by decide) hone emptyFrame (List.mem_singleton_self _)
  have hscan := scan_out_of_phase hone [] (by simp)
  rw [List.singleton_append, ← List.nil_append (FRAME_DELIM :: _), hscan] at hmem
  cases List.eq_of_mem_replicate hmem

end Rtsrv.UdProto
