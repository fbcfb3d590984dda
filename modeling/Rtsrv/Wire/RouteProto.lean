import Rtsrv.Wire.UdProto

/-!
# Rtsrv.Wire.RouteProto — messages and exchange blocks (`unix_domain/lib/route_proto.cpp`)

A message is a typed payload with an identifier.  An exchange block wraps command bytes with two
16-bit size fields and a CRC; both sizes are cast to sixteen bits on the way out and compared with
the real sizes on the way in.
-/

namespace Rtsrv.RouteProto

open Lib
open UdProto (crc16)

inductive MsgType where
  | PING
  | PONG
  | DATA
  | DATA_ACK
  | ERROR
  deriving DecidableEq, Repr

def MsgType.toByte : MsgType → UInt8
  | .PING => 0x01
  | .PONG => 0x02
  | .DATA => 0x10
  | .DATA_ACK => 0x11
  | .ERROR => 0xFF

/-- The `switch` over the known types. -/
def MsgType.ofByte (b : UInt8) : Option MsgType :=
  if b = 0x01 then some .PING
  else if b = 0x02 then some .PONG
  else if b = 0x10 then some .DATA
  else if b = 0x11 then some .DATA_ACK
  else if b = 0xFF then some .ERROR
  else none

def FLAG_NONE : UInt8 := 0x00

inductive RouteError where
  | InvalidMessage
  | UnknownType
  deriving DecidableEq, Repr

def RouteError.message : RouteError → String
  | .InvalidMessage => "invalid or truncated message"
  | .UnknownType => "unknown message type"

inductive ExchangeError where
  | InvalidData
  | LengthMismatch
  | CrcMismatch
  | CountMismatch
  deriving DecidableEq, Repr

def ExchangeError.message : ExchangeError → String
  | .InvalidData => "invalid or truncated exchange data"
  | .LengthMismatch => "exchange data_length field mismatch"
  | .CrcMismatch => "exchange CRC-16 mismatch"
  | .CountMismatch => "num_commands does not match command array size"

structure ExchangeData where
  num_commands : UInt16
  commands : Bytes
  deriving DecidableEq, Repr

def EXCHANGE_MIN_SIZE : ℕ := 6

structure Message where
  msg_type : MsgType
  flags : UInt8
  msg_id : UInt16
  payload : Bytes
  deriving DecidableEq, Repr

def MSG_HEADER_SIZE : ℕ := 4

def makeData (msg_id : UInt16) (payload : Bytes) : Message := ⟨.DATA, FLAG_NONE, msg_id, payload⟩

/-! ### Messages -/

def encodeMessage (msg : Message) : Except (Fault RouteError) Bytes :=
  .ok (msg.msg_type.toByte :: msg.flags :: (writeBe16 msg.msg_id ++ msg.payload))

def decodeMessage (raw : Bytes) : Except (Fault RouteError) Message :=
  if raw.length < MSG_HEADER_SIZE then .error (.error .InvalidMessage)
  else do
    let type_byte ← readAt raw 0
    match MsgType.ofByte type_byte with
    | none => .error (.error .UnknownType)
    | some msg_type => do
      let flags ← readAt raw 1
      let msg_id ← readBe16 raw 2
      let payload ← subspan raw MSG_HEADER_SIZE (raw.length - MSG_HEADER_SIZE)
      pure ⟨msg_type, flags, msg_id, payload⟩

theorem MsgType.ofByte_toByte (t : MsgType) : MsgType.ofByte t.toByte = some t := by
  cases t <;> rfl

theorem MsgType.ofByte_eq_some {b : UInt8} {t : MsgType} (h : MsgType.ofByte b = some t) :
    b = t.toByte := by
  unfold MsgType.ofByte at h
  split_ifs at h <;> obtain rfl := Option.some.inj h <;> assumption

/-- A byte string decodes to a message exactly when it is that message's encoding. -/
theorem decodeMessage_ok {raw : Bytes} {msg : Message} :
    decodeMessage raw = .ok msg ↔ encodeMessage msg = .ok raw := by
  have hread : ∀ (b flags : UInt8) (msg_id : UInt16) (payload : Bytes),
      decodeMessage (b :: flags :: (writeBe16 msg_id ++ payload)) =
        match MsgType.ofByte b with
        | none => .error (.error .UnknownType)
        | some t => .ok ⟨t, flags, msg_id, payload⟩ := by
    intro b flags msg_id payload
    have hid : (readBe16 (b :: flags :: (writeBe16 msg_id ++ payload)) 2 :
        Except (Fault RouteError) _) = .ok msg_id := readBe16_of_drop rfl
    have hsub : (subspan (b :: flags :: (writeBe16 msg_id ++ payload)) MSG_HEADER_SIZE
        ((b :: flags :: (writeBe16 msg_id ++ payload)).length - MSG_HEADER_SIZE) :
        Except (Fault RouteError) _) = .ok payload := by
      rw [subspan, if_pos (by simp [MSG_HEADER_SIZE]; omega)]
      simp [MSG_HEADER_SIZE, writeBe16]
    rw [decodeMessage, if_neg (by simp [MSG_HEADER_SIZE]), hid, hsub]
    simp only [readAt, List.getElem?_cons_zero, List.getElem?_cons_succ, ok_bind]
    cases MsgType.ofByte b <;> rfl
  constructor
  · intro h
    have hlen : MSG_HEADER_SIZE ≤ raw.length := by
      by_contra hlt
      rw [decodeMessage, if_pos (by omega)] at h
      cases h
    obtain ⟨b, flags, s, rfl⟩ : ∃ b flags s, raw = b :: flags :: s := by
      rcases raw with _ | ⟨b, _ | ⟨flags, s⟩⟩
      · simp [MSG_HEADER_SIZE] at hlen
      · simp [MSG_HEADER_SIZE] at hlen
      · exact ⟨b, flags, s, rfl⟩
    obtain ⟨msg_id, payload, rfl⟩ := exists_be16 (s := s) (by simpa [MSG_HEADER_SIZE] using hlen)
    rw [hread] at h
    cases ht : MsgType.ofByte b with
    | none => rw [ht] at h; cases h
    | some t =>
      rw [ht] at h
      obtain rfl := Except.ok.inj h
      rw [MsgType.ofByte_eq_some ht]
      rfl
  · intro h
    obtain rfl := Except.ok.inj h
    rw [hread, MsgType.ofByte_toByte]

/-! ### Exchange blocks -/

def encodeExchange (ed : ExchangeData) : Except (Fault ExchangeError) Bytes :=
  let num_cmds := UInt16.ofNat ed.commands.length
  let data_length := UInt16.ofNat (EXCHANGE_MIN_SIZE + ed.commands.length)
  let out := writeBe16 num_cmds ++ (writeBe16 data_length ++ ed.commands)
  let checksum := crc16 out
  .ok (out ++ writeBe16 checksum)

def decodeExchange (raw : Bytes) : Except (Fault ExchangeError) ExchangeData :=
  if raw.length < EXCHANGE_MIN_SIZE then .error (.error .InvalidData)
  else do
    let data_length ← readBe16 raw 2
    if data_length.toNat ≠ raw.length then .error (.error .LengthMismatch)
    else do
      let crc_stored ← readBe16 raw (raw.length - 2)
      let covered ← subspan raw 0 (raw.length - 2)
      let crc_computed := crc16 covered
      if crc_stored ≠ crc_computed then .error (.error .CrcMismatch)
      else do
        let num_commands ← readBe16 raw 0
        let commands_len := raw.length - EXCHANGE_MIN_SIZE
        if num_commands.toNat ≠ commands_len then .error (.error .CountMismatch)
        else do
          let commands ← subspan raw 4 commands_len
          pure ⟨num_commands, commands⟩

/-- The block `encode_exchange` writes: it ignores the caller's `num_commands`. -/
def exchangeBlock (commands : Bytes) : Bytes :=
  let out := writeBe16 (UInt16.ofNat commands.length) ++
    (writeBe16 (UInt16.ofNat (EXCHANGE_MIN_SIZE + commands.length)) ++ commands)
  out ++ writeBe16 (crc16 out)

theorem exchangeBlock_length (commands : Bytes) :
    (exchangeBlock commands).length = EXCHANGE_MIN_SIZE + commands.length := by
  simp only [exchangeBlock, List.length_append, writeBe16_length, EXCHANGE_MIN_SIZE]
  omega

/-- The checks of `decode_exchange` on a block cut into its fields. -/
theorem decodeExchange_fields (num dl crc : UInt16) (commands : Bytes) :
    let out := writeBe16 num ++ (writeBe16 dl ++ commands)
    decodeExchange (out ++ writeBe16 crc) =
      if dl.toNat ≠ EXCHANGE_MIN_SIZE + commands.length then .error (.error .LengthMismatch)
      else if crc ≠ crc16 out then .error (.error .CrcMismatch)
      else if num.toNat ≠ commands.length then .error (.error .CountMismatch)
      else .ok ⟨num, commands⟩ := by
  intro out
  have hlen : (out ++ writeBe16 crc).length = EXCHANGE_MIN_SIZE + commands.length := by
    simp only [out, List.length_append, writeBe16_length, EXCHANGE_MIN_SIZE]
    omega
  have hout : EXCHANGE_MIN_SIZE + commands.length - 2 = out.length := by
    simp only [out, List.length_append, writeBe16_length, EXCHANGE_MIN_SIZE]
    omega
  have hsplit : out ++ writeBe16 crc =
      writeBe16 num ++ (writeBe16 dl ++ (commands ++ writeBe16 crc)) := by
    simp only [out, List.append_assoc]
  have hnum : (readBe16 (out ++ writeBe16 crc) 0 : Except (Fault ExchangeError) _) = .ok num :=
    readBe16_of_drop (by rw [hsplit]; rfl)
  have hdl : (readBe16 (out ++ writeBe16 crc) 2 : Except (Fault ExchangeError) _) = .ok dl :=
    readBe16_of_drop (by rw [hsplit]; rfl)
  have hcmds : (subspan (out ++ writeBe16 crc) 4 commands.length : Except (Fault ExchangeError) _) =
      .ok commands := by
    have hdrop : (out ++ writeBe16 crc).drop 4 = commands ++ writeBe16 crc := by rw [hsplit]; rfl
    rw [subspan, if_pos (by rw [hlen, EXCHANGE_MIN_SIZE]; omega), hdrop, List.take_left]
  rw [decodeExchange, hlen, if_neg (by omega), hdl, hout, hnum, readBe16_end, subspan_left,
    Nat.add_sub_cancel_left]
  simp only [ok_bind, hcmds]
  rfl

/-- `decode_exchange` accepts the blocks of the command bytes whose sizes fit the two fields, and
nothing else. -/
theorem decodeExchange_ok {raw : Bytes} {ed : ExchangeData} :
    decodeExchange raw = .ok ed ↔
      EXCHANGE_MIN_SIZE + ed.commands.length < 2 ^ 16 ∧
        ed.num_commands = UInt16.ofNat ed.commands.length ∧ raw = exchangeBlock ed.commands := by
  have hmin : EXCHANGE_MIN_SIZE = 6 := rfl
  constructor
  · intro h
    have hlen : EXCHANGE_MIN_SIZE ≤ raw.length := by
      by_contra hlt
      rw [decodeExchange, if_pos (by omega)] at h
      cases h
    obtain ⟨out, crc, rfl⟩ := exists_be16_end (s := raw) (by omega)
    rw [List.length_append, writeBe16_length] at hlen
    obtain ⟨num, s, rfl⟩ := exists_be16 (s := out) (by omega)
    rw [List.length_append, writeBe16_length] at hlen
    obtain ⟨dl, commands, rfl⟩ := exists_be16 (s := s) (by omega)
    rw [decodeExchange_fields] at h
    split_ifs at h with h1 h2 h3
    rw [ne_eq, not_not] at h1 h2 h3
    obtain rfl := Except.ok.inj h
    have hdl : dl = UInt16.ofNat (EXCHANGE_MIN_SIZE + commands.length) := by
      rw [← h1, UInt16.ofNat_toNat]
    have hnum : num = UInt16.ofNat commands.length := by rw [← h3, UInt16.ofNat_toNat]
    refine ⟨h1 ▸ dl.toNat_lt, hnum, ?_⟩
    rw [h2, hdl, hnum]
    rfl
  · rintro ⟨hsize, hnum, rfl⟩
    obtain ⟨num, commands⟩ := ed
    obtain rfl : num = UInt16.ofNat commands.length := hnum
    replace hsize : EXCHANGE_MIN_SIZE + commands.length < 2 ^ 16 := hsize
    have hdl : (UInt16.ofNat (EXCHANGE_MIN_SIZE + commands.length)).toNat =
        EXCHANGE_MIN_SIZE + commands.length := by
      rw [UInt16.toNat_ofNat', Nat.mod_eq_of_lt hsize]
    have hcount : (UInt16.ofNat commands.length).toNat = commands.length := by
      rw [UInt16.toNat_ofNat', Nat.mod_eq_of_lt (show commands.length < 2 ^ 16 by omega)]
    rw [exchangeBlock, decodeExchange_fields, if_neg (not_not.mpr hdl), if_neg (not_not.mpr rfl),
      if_neg (not_not.mpr hcount)]

theorem exchangeBlock_injective : Function.Injective exchangeBlock := by
  intro commands commands' h
  have hlen : commands.length = commands'.length := by
    have hsize := congrArg List.length h
    rw [exchangeBlock_length, exchangeBlock_length] at hsize
    omega
  have hout := (List.append_inj' h rfl).1
  exact (List.append_inj (List.append_inj hout rfl).2 rfl).2

/-- The block of some command bytes is accepted when its two sizes did not wrap. -/
theorem decodeExchange_block {commands : Bytes} {ed : ExchangeData} :
    decodeExchange (exchangeBlock commands) = .ok ed ↔
      EXCHANGE_MIN_SIZE + commands.length < 2 ^ 16 ∧ ed = ⟨UInt16.ofNat commands.length, commands⟩ := by
  rw [decodeExchange_ok]
  obtain ⟨num_commands, commands'⟩ := ed
  rw [ExchangeData.mk.injEq]
  constructor
  · rintro ⟨hsize, hnum, hraw⟩
    obtain rfl := exchangeBlock_injective hraw
    exact ⟨hsize, hnum, rfl⟩
  · rintro ⟨hsize, rfl, rfl⟩
    exact ⟨hsize, rfl, rfl⟩

/-- **Exchange blocks and command bytes are in bijection** as long as the sizes fit their fields: the command
bytes come back whatever count the caller had set, an accepted block is the one that is encoded for it, and
with longer command bytes the decoder rejects what the encoder writes. -/
theorem exchange_blocks_exact (ed : ExchangeData) :
    (ed.commands.length ≤ 65529 → ∃ raw, encodeExchange ed = .ok raw ∧
      decodeExchange raw = .ok ⟨UInt16.ofNat ed.commands.length, ed.commands⟩) ∧
    (∀ raw, decodeExchange raw = .ok ed → encodeExchange ed = .ok raw) ∧
    (65529 < ed.commands.length → ∃ raw, encodeExchange ed = .ok raw ∧
      ∀ ed', decodeExchange raw ≠ .ok ed') := by
  have hmin : EXCHANGE_MIN_SIZE = 6 := rfl
  have henc : encodeExchange ed = .ok (exchangeBlock ed.commands) := rfl
  refine ⟨fun hlen => ⟨_, henc, decodeExchange_block.mpr ⟨by omega, rfl⟩⟩, fun raw h => ?_,
    fun hlen => ⟨_, henc, fun ed' h => ?_⟩⟩
  · rw [henc, (decodeExchange_ok.mp h).2.2]
  · have hsize := (decodeExchange_block.mp h).1
    omega

end Rtsrv.RouteProto
