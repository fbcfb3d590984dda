import Rtsrv.Lib.BigEndian
import Rtsrv.Lib.Escape

/-!
# Rtsrv.Wire.UdProto — the framing layer (`unix_domain/lib/ud_proto.cpp`)

A frame is `0x7E <stuffed payload> 0x7E`; the payload is a ten-byte header, the data and a CRC over
both.  Definitions first, in the order of the source; then one lemma for each function that says
exactly when it succeeds and with what (`findFrame_ok`, `destuff_ok`, `extractPayload_ok`,
`decodePacket_ok`, `decodeResponse_ok`).
-/

namespace Rtsrv

abbrev Bytes := List UInt8

namespace UdProto

open Lib

def FRAME_DELIM : UInt8 := 0x7E
def ESCAPE_BYTE : UInt8 := 0x7D
def ESC_DELIM : UInt8 := 0x5E
def ESC_ESCAPE : UInt8 := 0x5D

def HEADER_SIZE : ℕ := 10
def CRC_SIZE : ℕ := 2
def MIN_PAYLOAD : ℕ := HEADER_SIZE + CRC_SIZE

inductive ProtoError where
  | InvalidFrame
  | BadLength
  | CrcMismatch
  | BufferTooSmall
  | IncompleteFrame
  deriving DecidableEq, Repr

def ProtoError.message : ProtoError → String
  | .InvalidFrame => "invalid frame (bad delimiter)"
  | .BadLength => "payload length mismatch"
  | .CrcMismatch => "CRC-16 mismatch"
  | .BufferTooSmall => "buffer too small"
  | .IncompleteFrame => "incomplete frame"

structure Packet where
  length : UInt32
  pkt_num : UInt16
  total_pkts : UInt16
  ctrl : UInt16
  data : Bytes
  deriving DecidableEq, Repr

structure Response where
  length : UInt32
  pkt_num : UInt16
  total_pkts : UInt16
  ctrl : UInt16
  status : UInt8
  deriving DecidableEq, Repr

/-! ### CRC -/

def POLY : UInt16 := 0x8005

/-- One round of the inner loop of `crc16`. -/
def crc16Bit (crc : UInt16) : UInt16 :=
  if crc &&& 0x0001 ≠ 0 then (crc >>> 1) ^^^ POLY else crc >>> 1

/-- One byte: the eight rounds. -/
def crc16Byte (crc : UInt16) (byte : UInt8) : UInt16 :=
  crc16Bit^[8] (crc ^^^ byte.toUInt16)

def crc16 (data : Bytes) : UInt16 := data.foldl crc16Byte 0x0000

/-! ### Byte stuffing -/

def stuff : Bytes → Bytes
  | [] => []
  | b :: raw =>
    if b = FRAME_DELIM then ESCAPE_BYTE :: ESC_DELIM :: stuff raw
    else if b = ESCAPE_BYTE then ESCAPE_BYTE :: ESC_ESCAPE :: stuff raw
    else b :: stuff raw

/-- The loop of `destuff`: its `escaped` flag and its `out` vector. -/
def destuffLoop : Bool → Bytes → Bytes → Except (Fault ProtoError) Bytes
  | escaped, out, [] => if escaped then .error (.error .InvalidFrame) else .ok out
  | escaped, out, b :: stuffed =>
    if escaped then
      if b = ESC_DELIM then destuffLoop false (out ++ [FRAME_DELIM]) stuffed
      else if b = ESC_ESCAPE then destuffLoop false (out ++ [ESCAPE_BYTE]) stuffed
      else .error (.error .InvalidFrame)
    else if b = ESCAPE_BYTE then destuffLoop true out stuffed
    else destuffLoop false (out ++ [b]) stuffed

def destuff (stuffed : Bytes) : Except (Fault ProtoError) Bytes := destuffLoop false [] stuffed

/-! ### Encoding -/

/-- The header fields and the data, before the CRC. -/
def requestBody (length : UInt32) (pkt_num total_pkts ctrl : UInt16) (data : Bytes) : Bytes :=
  writeBe32 length ++ (writeBe16 pkt_num ++ (writeBe16 total_pkts ++ (writeBe16 ctrl ++ data)))

def buildRequestPayload (length : UInt32) (pkt_num total_pkts ctrl : UInt16) (data : Bytes) :
    Bytes :=
  let payload := requestBody length pkt_num total_pkts ctrl data
  payload ++ writeBe16 (crc16 payload)

def frame (raw : Bytes) : Bytes := FRAME_DELIM :: (stuff raw ++ [FRAME_DELIM])

def encodePacket (pkt : Packet) : Except (Fault ProtoError) Bytes :=
  let total_len := UInt32.ofNat (HEADER_SIZE + pkt.data.length + CRC_SIZE)
  let length_field := if pkt.length ≠ 0 then pkt.length else total_len
  .ok (frame (buildRequestPayload length_field pkt.pkt_num pkt.total_pkts pkt.ctrl pkt.data))

def encodeResponse (rsp : Response) : Except (Fault ProtoError) Bytes :=
  let total_len := UInt32.ofNat (HEADER_SIZE + 1 + CRC_SIZE)
  let length_field := if rsp.length ≠ 0 then rsp.length else total_len
  .ok (frame (buildRequestPayload length_field rsp.pkt_num rsp.total_pkts rsp.ctrl [rsp.status]))

/-! ### Decoding -/

/-- The checks of `extract_payload` on the raw payload: size, CRC, then the length field. -/
def checkPayload (raw : Bytes) : Except (Fault ProtoError) Bytes :=
  if raw.length < MIN_PAYLOAD then .error (.error .BadLength)
  else do
    let crc_expected ← readBe16 raw (raw.length - CRC_SIZE)
    let covered ← subspan raw 0 (raw.length - CRC_SIZE)
    let crc_computed := crc16 covered
    if crc_expected ≠ crc_computed then .error (.error .CrcMismatch)
    else do
      let reported_len ← readBe32 raw 0
      if reported_len ≠ UInt32.ofNat raw.length then .error (.error .BadLength)
      else .ok raw

def extractPayload (frm : Bytes) : Except (Fault ProtoError) Bytes :=
  if frm.length < 2 ∨ frm.head? ≠ some FRAME_DELIM ∨ frm.getLast? ≠ some FRAME_DELIM then
    .error (.error .InvalidFrame)
  else do
    let inner ← subspan frm 1 (frm.length - 2)
    let raw ← destuff inner
    checkPayload raw

def decodePacket (frm : Bytes) : Except (Fault ProtoError) Packet := do
  let raw ← extractPayload frm
  let length ← readBe32 raw 0
  let pkt_num ← readBe16 raw 4
  let total_pkts ← readBe16 raw 6
  let ctrl ← readBe16 raw 8
  let data_start := HEADER_SIZE
  let data_end := raw.length - CRC_SIZE
  let data ← subspan raw data_start (data_end - data_start)
  pure ⟨length, pkt_num, total_pkts, ctrl, data⟩

def decodeResponse (frm : Bytes) : Except (Fault ProtoError) Response := do
  let raw ← extractPayload frm
  let data_len := raw.length - MIN_PAYLOAD
  if data_len ≠ 1 then .error (.error .BadLength)
  else do
    let length ← readBe32 raw 0
    let pkt_num ← readBe16 raw 4
    let total_pkts ← readBe16 raw 6
    let ctrl ← readBe16 raw 8
    let status ← readAt raw HEADER_SIZE
    pure ⟨length, pkt_num, total_pkts, ctrl, status⟩

/-! ### Stream scanning -/

/-- The frame and the index after its closing delimiter. -/
def findFrame (stream : Bytes) : Except (Fault ProtoError) (Bytes × ℕ) :=
  if stream = [] then .error (.error .IncompleteFrame)
  else
    let start := stream.findIdx (· == FRAME_DELIM)
    if start ≥ stream.length then .error (.error .IncompleteFrame)
    else
      let close := start + 1 + (stream.drop (start + 1)).findIdx (· == FRAME_DELIM)
      if close ≥ stream.length then .error (.error .IncompleteFrame)
      else do
        let «end» := close + 1
        let found ← subspan stream start («end» - start)
        pure (found, «end»)

/-! ### Byte stuffing is an escape code -/

def escape : Escape UInt8 where
  delim := FRAME_DELIM
  esc := ESCAPE_BYTE
  codeDelim := ESC_DELIM
  codeEsc := ESC_ESCAPE
  delim_ne_esc := by decide
  codes_ne := by decide
  codeDelim_ne := by decide
  codeEsc_ne := by decide

theorem stuff_eq (raw : Bytes) : stuff raw = escape.stuff raw := by
  induction raw with
  | nil => rfl
  | cons b raw ih =>
    have hcons : escape.stuff (b :: raw) = escape.stuffOne b ++ escape.stuff raw := rfl
    rw [hcons, ← ih, stuff, Escape.stuffOne]
    split_ifs <;> first | rfl | contradiction

/-- What the loop returns when the bytes still to come stand for `rest`. -/
def destuffed (out : Bytes) : Option Bytes → Except (Fault ProtoError) Bytes
  | some rest => .ok (out ++ rest)
  | none => .error (.error .InvalidFrame)

theorem destuffed_map (out : Bytes) (b : UInt8) (rest : Option Bytes) :
    destuffed out (rest.map (b :: ·)) = destuffed (out ++ [b]) rest := by
  cases rest <;> simp [destuffed]

theorem destuffLoop_eq (stuffed : Bytes) : ∀ (escaped : Bool) (out : Bytes),
    destuffLoop escaped out stuffed = destuffed out (escape.destuff escaped stuffed) := by
  induction stuffed with
  | nil => intro escaped out; cases escaped <;> simp [destuffLoop, Escape.destuff, destuffed]
  | cons b stuffed ih =>
    intro escaped out
    cases escaped with
    | true =>
      rw [destuffLoop, if_pos rfl, Escape.destuff]
      show (if b = ESC_DELIM then _ else if b = ESC_ESCAPE then _ else _) =
        destuffed out (if b = ESC_DELIM then _ else if b = ESC_ESCAPE then _ else _)
      split_ifs
      · rw [ih, destuffed_map]; rfl
      · rw [ih, destuffed_map]; rfl
      · rfl
    | false =>
      rw [destuffLoop, if_neg (by simp), Escape.destuff]
      show (if b = ESCAPE_BYTE then _ else _) = destuffed out (if b = ESCAPE_BYTE then _ else _)
      split_ifs
      · rw [ih]
      · rw [ih, destuffed_map]

/-- Between delimiters `destuff` accepts the stuffed texts and nothing else. -/
theorem destuff_ok {inner raw : Bytes} (h : FRAME_DELIM ∉ inner) :
    destuff inner = .ok raw ↔ inner = stuff raw := by
  rw [destuff, destuffLoop_eq, stuff_eq]
  constructor
  · intro hd
    cases hs : escape.destuff false inner with
    | none => rw [hs] at hd; cases hd
    | some l =>
      rw [hs] at hd
      obtain rfl : l = raw := by simpa [destuffed] using hd
      exact ((escape.stuff_destuff inner l h).1 hs).symm
  · rintro rfl
    rw [escape.destuff_stuff]
    rfl

theorem delim_notMem_stuff (raw : Bytes) : FRAME_DELIM ∉ stuff raw := by
  rw [stuff_eq]
  exact escape.delim_notMem_stuff raw

/-! ### The payload of a frame -/

theorem buildRequestPayload_length (length : UInt32) (pkt_num total_pkts ctrl : UInt16)
    (data : Bytes) :
    (buildRequestPayload length pkt_num total_pkts ctrl data).length =
      HEADER_SIZE + data.length + CRC_SIZE := by
  simp only [buildRequestPayload, requestBody, List.length_append, writeBe32_length,
    writeBe16_length, HEADER_SIZE, CRC_SIZE]
  omega

/-- Twelve bytes are enough to name the header fields, the data and the CRC field. -/
theorem exists_fields {raw : Bytes} (h : MIN_PAYLOAD ≤ raw.length) :
    ∃ length pkt_num total_pkts ctrl data crc,
      raw = requestBody length pkt_num total_pkts ctrl data ++ writeBe16 crc := by
  have hmin : MIN_PAYLOAD = 12 := rfl
  obtain ⟨body, crc, rfl⟩ := exists_be16_end (s := raw) (by omega)
  rw [List.length_append, writeBe16_length] at h
  obtain ⟨l, s1, rfl⟩ := exists_be32 (s := body) (by omega)
  rw [List.length_append, writeBe32_length] at h
  obtain ⟨pn, s2, rfl⟩ := exists_be16 (s := s1) (by omega)
  rw [List.length_append, writeBe16_length] at h
  obtain ⟨tp, s3, rfl⟩ := exists_be16 (s := s2) (by omega)
  rw [List.length_append, writeBe16_length] at h
  obtain ⟨c, data, rfl⟩ := exists_be16 (s := s3) (by omega)
  exact ⟨l, pn, tp, c, data, crc, rfl⟩

section Fields

variable (length : UInt32) (pkt_num total_pkts ctrl crc : UInt16) (data : Bytes)

theorem requestBody_length :
    (requestBody length pkt_num total_pkts ctrl data).length = HEADER_SIZE + data.length := by
  simp only [requestBody, List.length_append, writeBe32_length, writeBe16_length, HEADER_SIZE]
  omega

/-- The four header fields and the data, read back from a raw payload. -/
theorem read_fields :
    let raw := requestBody length pkt_num total_pkts ctrl data ++ writeBe16 crc
    readBe32 (ε := ProtoError) raw 0 = .ok length ∧
    readBe16 (ε := ProtoError) raw 4 = .ok pkt_num ∧
    readBe16 (ε := ProtoError) raw 6 = .ok total_pkts ∧
    readBe16 (ε := ProtoError) raw 8 = .ok ctrl ∧
    subspan (ε := ProtoError) raw HEADER_SIZE (raw.length - CRC_SIZE - HEADER_SIZE) = .ok data := by
  intro raw
  have hraw : raw = writeBe32 length ++ (writeBe16 pkt_num ++ (writeBe16 total_pkts ++
      (writeBe16 ctrl ++ (data ++ writeBe16 crc)))) := by
    simp only [raw, requestBody, List.append_assoc]
  have hlen : raw.length = HEADER_SIZE + data.length + CRC_SIZE := by
    simp only [raw, List.length_append, requestBody_length, writeBe16_length, CRC_SIZE]
  have hdata : raw.drop HEADER_SIZE = data ++ writeBe16 crc := by rw [hraw]; rfl
  refine ⟨readBe32_of_drop (by rw [List.drop_zero, hraw]), readBe16_of_drop (by rw [hraw]; rfl),
    readBe16_of_drop (by rw [hraw]; rfl), readBe16_of_drop (by rw [hraw]; rfl), ?_⟩
  rw [subspan, if_pos (by omega), hdata, hlen]
  simp

/-- On a payload cut into its fields the checks compare the CRC and then the length field. -/
theorem checkPayload_fields :
    let body := requestBody length pkt_num total_pkts ctrl data
    checkPayload (body ++ writeBe16 crc) =
      if crc ≠ crc16 body then .error (.error .CrcMismatch)
      else if length ≠ UInt32.ofNat (HEADER_SIZE + data.length + CRC_SIZE) then
        .error (.error .BadLength)
      else .ok (body ++ writeBe16 crc) := by
  intro body
  have hlen : (body ++ writeBe16 crc).length = HEADER_SIZE + data.length + CRC_SIZE := by
    simp only [body, List.length_append, requestBody_length, writeBe16_length, CRC_SIZE]
  have hbody : (body ++ writeBe16 crc).length - CRC_SIZE = body.length := by
    simp only [List.length_append, writeBe16_length, CRC_SIZE]
    omega
  have hl := (read_fields length pkt_num total_pkts ctrl crc data).1
  rw [checkPayload, if_neg (by rw [hlen, MIN_PAYLOAD]; omega), hbody, readBe16_end,
    subspan_left, ← hlen]
  simp only [ok_bind, body, hl]

end Fields

/-- The raw payload that carries a packet. -/
def packetPayload (pkt : Packet) : Bytes :=
  buildRequestPayload pkt.length pkt.pkt_num pkt.total_pkts pkt.ctrl pkt.data

/-- The length field a packet should carry. -/
def totalLength (data : Bytes) : UInt32 := UInt32.ofNat (HEADER_SIZE + data.length + CRC_SIZE)

theorem checkPayload_ok {raw raw' : Bytes} :
    checkPayload raw = .ok raw' ↔
      raw' = raw ∧ ∃ pkt : Packet, raw = packetPayload pkt ∧ pkt.length = totalLength pkt.data := by
  constructor
  · intro h
    have hmin : MIN_PAYLOAD ≤ raw.length := by
      by_contra hlt
      rw [checkPayload, if_pos (by omega)] at h
      cases h
    obtain ⟨l, pn, tp, c, data, crc, rfl⟩ := exists_fields hmin
    rw [checkPayload_fields] at h
    split_ifs at h with h1 h2
    rw [ne_eq, not_not] at h1 h2
    rw [Except.ok.injEq] at h
    exact ⟨h.symm, ⟨l, pn, tp, c, data⟩, by rw [h1]; rfl, h2⟩
  · rintro ⟨rfl, pkt, rfl, hlen⟩
    rw [packetPayload, buildRequestPayload, checkPayload_fields, if_neg (not_not.mpr rfl)]
    exact if_neg (not_not.mpr hlen)

/-! ### What each decoder accepts -/

/-- Between two delimiters `extract_payload` destuffs and checks. -/
theorem extractPayload_inner (inner : Bytes) :
    extractPayload (FRAME_DELIM :: (inner ++ [FRAME_DELIM])) = (destuff inner >>= checkPayload) := by
  have hspan : (subspan (FRAME_DELIM :: (inner ++ [FRAME_DELIM])) 1
      ((FRAME_DELIM :: (inner ++ [FRAME_DELIM])).length - 2) : Except (Fault ProtoError) _) =
      .ok inner := by
    rw [subspan, if_pos (by simp; omega)]
    simp
  have hlast : (FRAME_DELIM :: (inner ++ [FRAME_DELIM])).getLast? = some FRAME_DELIM := by
    rw [← List.cons_append, List.getLast?_append]
    rfl
  rw [extractPayload, if_neg (by simp [hlast]), hspan]
  rfl

theorem extractPayload_frame (raw : Bytes) : extractPayload (frame raw) = checkPayload raw := by
  rw [frame, extractPayload_inner, (destuff_ok (delim_notMem_stuff raw)).mpr rfl, ok_bind]

theorem frame_injective : Function.Injective frame := by
  intro raw raw' h
  have hstuff : stuff raw = stuff raw' := List.append_cancel_right (List.cons.inj h).2
  have hraw := (destuff_ok (delim_notMem_stuff raw)).mpr rfl
  rw [hstuff] at hraw
  exact Except.ok.inj (hraw.symm.trans ((destuff_ok (delim_notMem_stuff raw')).mpr rfl))

theorem extractPayload_ok {frm raw : Bytes} :
    extractPayload frm = .ok raw ↔
      ∃ inner, frm = FRAME_DELIM :: (inner ++ [FRAME_DELIM]) ∧ destuff inner = .ok raw ∧
        ∃ pkt : Packet, raw = packetPayload pkt ∧ pkt.length = totalLength pkt.data := by
  constructor
  · intro h
    have hshape : ∃ inner, frm = FRAME_DELIM :: (inner ++ [FRAME_DELIM]) := by
      by_contra hno
      rw [extractPayload, if_pos] at h
      · cases h
      · by_contra hc
        simp only [not_or, not_not, not_lt] at hc
        obtain ⟨hlen, hhead, hlast⟩ := hc
        obtain ⟨tl, rfl⟩ := List.head?_eq_some_iff.mp hhead
        obtain ⟨inner, hin⟩ := List.getLast?_eq_some_iff.mp hlast
        cases inner with
        | nil => rw [hin] at hlen; simp at hlen
        | cons b inner =>
          rw [List.cons_append, List.cons.injEq] at hin
          exact hno ⟨inner, by rw [hin.2]⟩
    obtain ⟨inner, rfl⟩ := hshape
    rw [extractPayload_inner] at h
    refine ⟨inner, rfl, ?_⟩
    cases hd : destuff inner with
    | error e => rw [hd] at h; cases h
    | ok raw' =>
      rw [hd] at h
      obtain ⟨rfl, pkt, hpkt⟩ := checkPayload_ok.mp h
      exact ⟨rfl, pkt, hpkt⟩
  · rintro ⟨inner, rfl, hd, hpkt⟩
    rw [extractPayload_inner, hd]
    exact checkPayload_ok.mpr ⟨rfl, hpkt⟩

/-- The packet a frame carries; `decode_packet` accepts no other frame. -/
theorem decodePacket_ok {frm : Bytes} {pkt : Packet} :
    decodePacket frm = .ok pkt ↔
      ∃ inner, frm = FRAME_DELIM :: (inner ++ [FRAME_DELIM]) ∧
        destuff inner = .ok (packetPayload pkt) ∧ pkt.length = totalLength pkt.data := by
  have hread : ∀ pkt : Packet, extractPayload frm = .ok (packetPayload pkt) →
      decodePacket frm = .ok pkt := by
    intro pkt h
    obtain ⟨h1, h2, h3, h4, h5⟩ :=
      read_fields pkt.length pkt.pkt_num pkt.total_pkts pkt.ctrl
        (crc16 (requestBody pkt.length pkt.pkt_num pkt.total_pkts pkt.ctrl pkt.data)) pkt.data
    rw [decodePacket, h]
    simp only [packetPayload, buildRequestPayload, ok_bind, h1, h2, h3, h4, h5]
    rfl
  constructor
  · intro h
    cases hx : extractPayload frm with
    | error e => rw [decodePacket, hx] at h; cases h
    | ok raw =>
      obtain ⟨inner, hfrm, hd, pkt', rfl, hlen⟩ := extractPayload_ok.mp hx
      rw [hread pkt' hx, Except.ok.injEq] at h
      subst h
      exact ⟨inner, hfrm, hd, hlen⟩
  · rintro ⟨inner, hfrm, hd, hlen⟩
    exact hread pkt (extractPayload_ok.mpr ⟨inner, hfrm, hd, pkt, rfl, hlen⟩)

/-- A response travels as a packet whose data is the status byte. -/
def Response.packet (rsp : Response) : Packet :=
  ⟨rsp.length, rsp.pkt_num, rsp.total_pkts, rsp.ctrl, [rsp.status]⟩

theorem decodeResponse_ok {frm : Bytes} {rsp : Response} :
    decodeResponse frm = .ok rsp ↔
      ∃ inner, frm = FRAME_DELIM :: (inner ++ [FRAME_DELIM]) ∧
        destuff inner = .ok (packetPayload rsp.packet) ∧
        rsp.length = totalLength [rsp.status] := by
  have hread : ∀ rsp : Response, extractPayload frm = .ok (packetPayload rsp.packet) →
      decodeResponse frm = .ok rsp := by
    intro rsp h
    obtain ⟨h1, h2, h3, h4, -⟩ :=
      read_fields rsp.length rsp.pkt_num rsp.total_pkts rsp.ctrl
        (crc16 (requestBody rsp.length rsp.pkt_num rsp.total_pkts rsp.ctrl [rsp.status]))
        [rsp.status]
    have hlen : (packetPayload rsp.packet).length - MIN_PAYLOAD = 1 := by
      rw [packetPayload, buildRequestPayload_length]
      rfl
    have hst : (readAt (packetPayload rsp.packet) HEADER_SIZE : Except (Fault ProtoError) _) =
        .ok rsp.status := rfl
    rw [decodeResponse, h, ok_bind, if_neg (not_not.mpr hlen), hst]
    simp only [packetPayload, Response.packet, buildRequestPayload, ok_bind, h1, h2, h3, h4]
    rfl
  constructor
  · intro h
    cases hx : extractPayload frm with
    | error e => rw [decodeResponse, hx] at h; cases h
    | ok raw =>
      obtain ⟨inner, hfrm, hd, pkt, rfl, hlen⟩ := extractPayload_ok.mp hx
      have hone : pkt.data.length = 1 := by
        by_contra hne
        rw [decodeResponse, hx, ok_bind, if_pos] at h
        · cases h
        · rw [packetPayload, buildRequestPayload_length, MIN_PAYLOAD]
          omega
      obtain ⟨st, hst⟩ := List.length_eq_one_iff.mp hone
      obtain ⟨l, pn, tp, c, data⟩ := pkt
      obtain rfl : data = [st] := hst
      rw [hread ⟨l, pn, tp, c, st⟩ hx, Except.ok.injEq] at h
      subst h
      exact ⟨inner, hfrm, hd, hlen⟩
  · rintro ⟨inner, hfrm, hd, hlen⟩
    exact hread rsp (extractPayload_ok.mpr ⟨inner, hfrm, hd, rsp.packet, rfl, hlen⟩)

/-! ### Where a frame stands in a stream -/

theorem beq_delim_false {l : Bytes} (h : FRAME_DELIM ∉ l) : ∀ x ∈ l, (x == FRAME_DELIM) = false := by
  intro x hx
  rw [beq_eq_false_iff_ne]
  rintro rfl
  exact h hx

theorem findFrame_frame {g body rest : Bytes} (hg : FRAME_DELIM ∉ g) (hb : FRAME_DELIM ∉ body) :
    findFrame (g ++ FRAME_DELIM :: (body ++ FRAME_DELIM :: rest)) =
      .ok (FRAME_DELIM :: (body ++ [FRAME_DELIM]), g.length + body.length + 2) := by
  have hstart := findIdx_split (t := body ++ FRAME_DELIM :: rest) (beq_delim_false hg)
    (beq_self_eq_true FRAME_DELIM)
  have hdrop : (g ++ FRAME_DELIM :: (body ++ FRAME_DELIM :: rest)).drop (g.length + 1) =
      body ++ FRAME_DELIM :: rest := by
    rw [← List.drop_drop, List.drop_left]
    rfl
  have hclose := findIdx_split (t := rest) (beq_delim_false hb) (beq_self_eq_true FRAME_DELIM)
  have hspan : (subspan (g ++ FRAME_DELIM :: (body ++ FRAME_DELIM :: rest)) g.length
      (g.length + 1 + body.length + 1 - g.length) : Except (Fault ProtoError) _) =
      .ok (FRAME_DELIM :: (body ++ [FRAME_DELIM])) := by
    have hcount : g.length + 1 + body.length + 1 - g.length = (body.length + 1) + 1 := by omega
    have htake : (body ++ FRAME_DELIM :: rest).take (body.length + 1) = body ++ [FRAME_DELIM] := by
      rw [List.take_length_add_append]
      rfl
    rw [subspan, if_pos (by simp; omega), List.drop_left, hcount, List.take_succ_cons, htake]
  rw [findFrame, if_neg (by simp), hstart, if_neg (by simp), hdrop, hclose, if_neg (by simp; omega)]
  simp only [hspan, ok_bind]
  show Except.ok (_, _) = _
  rw [Except.ok.injEq, Prod.mk.injEq]
  exact ⟨rfl, by omega⟩

/-- A frame is found between the first two delimiters. -/
theorem findFrame_ok {stream frm : Bytes} {stop : ℕ} :
    findFrame stream = .ok (frm, stop) ↔
      ∃ g body rest, stream = g ++ FRAME_DELIM :: (body ++ FRAME_DELIM :: rest) ∧
        FRAME_DELIM ∉ g ∧ FRAME_DELIM ∉ body ∧ frm = FRAME_DELIM :: (body ++ [FRAME_DELIM]) ∧
        stop = g.length + body.length + 2 := by
  have hnot : ∀ l : Bytes, (∀ x ∈ l, (x == FRAME_DELIM) = false) → FRAME_DELIM ∉ l := by
    intro l hl hmem
    simpa using hl _ hmem
  constructor
  · intro h
    have hstart : stream.findIdx (· == FRAME_DELIM) < stream.length := by
      by_contra hlt
      rw [findFrame] at h
      by_cases hnil : stream = []
      · rw [if_pos hnil] at h; cases h
      · rw [if_neg hnil, if_pos (by omega)] at h; cases h
    obtain ⟨g, b, t, rfl, hg, hb, hidx⟩ := split_of_findIdx_lt hstart
    obtain rfl : b = FRAME_DELIM := by simpa using hb
    have hdrop : (g ++ FRAME_DELIM :: t).drop (g.length + 1) = t := by
      rw [← List.drop_drop, List.drop_left]
      rfl
    have hclose : t.findIdx (· == FRAME_DELIM) < t.length := by
      by_contra hlt
      rw [findFrame, if_neg (by simp), hidx, if_neg (by simp), hdrop, if_pos] at h
      · cases h
      · rw [List.length_append, List.length_cons]
        omega
    obtain ⟨body, b', rest, rfl, hbody, hb', -⟩ := split_of_findIdx_lt hclose
    obtain rfl : b' = FRAME_DELIM := by simpa using hb'
    rw [findFrame_frame (hnot g hg) (hnot body hbody), Except.ok.injEq, Prod.mk.injEq] at h
    exact ⟨g, body, rest, rfl, hnot g hg, hnot body hbody, h.1.symm, h.2.symm⟩
  · rintro ⟨g, body, rest, rfl, hg, hb, rfl, rfl⟩
    exact findFrame_frame hg hb

/-- A frame that was found stays where it is when more bytes arrive behind it. -/
theorem findFrame_append {stream frm : Bytes} {stop : ℕ} (h : findFrame stream = .ok (frm, stop))
    (more : Bytes) : findFrame (stream ++ more) = .ok (frm, stop) := by
  obtain ⟨g, body, rest, rfl, hg, hbody, hfrm, hstop⟩ := findFrame_ok.mp h
  exact findFrame_ok.mpr ⟨g, body, rest ++ more, by simp, hg, hbody, hfrm, hstop⟩

theorem findFrame_none {stream : Bytes} (h : FRAME_DELIM ∉ stream) :
    findFrame stream = .error (.error .IncompleteFrame) := by
  rw [findFrame, findIdx_none (beq_delim_false h), if_pos (Nat.le_refl stream.length)]
  exact ite_self _

end UdProto

end Rtsrv
