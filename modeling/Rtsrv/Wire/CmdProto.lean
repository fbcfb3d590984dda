import Rtsrv.Lib.BigEndian
import Rtsrv.Wire.UdProto

/-!
# Rtsrv.Wire.CmdProto — commands (`unix_domain/lib/cmd_proto.cpp`, generic part)

A command is an identifier byte, a 16-bit size and that many payload bytes.  The decoder keeps the
payload and also tries to read it as TLV fields, stopping quietly where that fails.  `decodeCommand_ok`
and `decodeCommands_ok` say what the two decoders accept.
-/

namespace Rtsrv.CmdProto

open Lib

inductive CmdId where
  | ROUTE_ADD
  | ROUTE_DEL
  | ROUTE_LIST
  deriving DecidableEq, Repr

def CmdId.toByte : CmdId → UInt8
  | .ROUTE_ADD => 0x01
  | .ROUTE_DEL => 0x02
  | .ROUTE_LIST => 0x03

/-- The `switch` over the known command identifiers. -/
def CmdId.ofByte (b : UInt8) : Option CmdId :=
  if b = 0x01 then some .ROUTE_ADD
  else if b = 0x02 then some .ROUTE_DEL
  else if b = 0x03 then some .ROUTE_LIST
  else none

inductive CmdError where
  | InvalidCommand
  | UnknownCommand
  | MissingField
  | InvalidField
  deriving DecidableEq, Repr

def CmdError.message : CmdError → String
  | .InvalidCommand => "invalid or truncated command"
  | .UnknownCommand => "unknown command identifier"
  | .MissingField => "required field absent from command"
  | .InvalidField => "field length or value is invalid"

def CMD_HEADER_SIZE : ℕ := 3
def FIELD_HEADER_SIZE : ℕ := 2

/-- A TLV field; the decoder takes any identifier byte. -/
structure Field where
  field_id : UInt8
  data : Bytes
  deriving DecidableEq, Repr

structure Command where
  cmd_id : CmdId
  fields : List Field
  raw_payload : Bytes
  deriving DecidableEq, Repr

/-! ### Encoding -/

def encodeField (f : Field) : Bytes := f.field_id :: UInt8.ofNat f.data.length :: f.data

/-- A non-empty raw payload takes precedence over the fields. -/
def encodeCommand (cmd : Command) : Except (Fault CmdError) Bytes :=
  if cmd.raw_payload ≠ [] then
    .ok (cmd.cmd_id.toByte ::
      (writeBe16 (UInt16.ofNat cmd.raw_payload.length) ++ cmd.raw_payload))
  else
    let fields_size := (cmd.fields.map fun f => FIELD_HEADER_SIZE + f.data.length).sum
    .ok (cmd.cmd_id.toByte ::
      (writeBe16 (UInt16.ofNat fields_size) ++ cmd.fields.flatMap encodeField))

/-! ### Decoding -/

/-- One round of the TLV loop; `none` is its `break`. -/
def fieldStep : Reader UInt8 CmdError (Option Field) := do
  if (← Reader.remaining) < FIELD_HEADER_SIZE then pure none
  else
    let field_id ← Reader.item
    let field_len ← Reader.item
    if (← Reader.remaining) < field_len.toNat then pure none
    else
      let data ← Reader.slice field_len.toNat
      pure (some ⟨field_id, data⟩)

def decodeCommand (raw : Bytes) : Except (Fault CmdError) Command :=
  if raw.length < CMD_HEADER_SIZE then .error (.error .InvalidCommand)
  else do
    let cmd_id_byte ← readAt raw 0
    match CmdId.ofByte cmd_id_byte with
    | none => .error (.error .UnknownCommand)
    | some cmd_id => do
      let data_len ← readBe16 raw 1
      if raw.length < CMD_HEADER_SIZE + data_len.toNat then .error (.error .InvalidCommand)
      else do
        let raw_payload ← subspan raw CMD_HEADER_SIZE data_len.toNat
        let (fields, _) ← Reader.untilBreak fieldStep raw_payload
        pure ⟨cmd_id, fields, raw_payload⟩

/-- One round of `decode_commands`: decode at `pos`, read `data_len` again, advance. -/
def commandStep : Reader UInt8 CmdError Command := fun sub => do
  let cmd ← decodeCommand sub
  let data_len ← readBe16 sub 1
  let consumed := CMD_HEADER_SIZE + data_len.toNat
  pure (cmd, sub.drop consumed)

def decodeCommands (raw : Bytes) : Except (Fault CmdError) (List Command) := do
  let (result, _) ← Reader.untilEnd commandStep raw
  pure result

/-! ### What the decoders accept -/

theorem CmdId.ofByte_toByte (c : CmdId) : CmdId.ofByte c.toByte = some c := by
  cases c <;> rfl

theorem CmdId.ofByte_eq_some {b : UInt8} {c : CmdId} (h : CmdId.ofByte b = some c) :
    b = c.toByte := by
  unfold CmdId.ofByte at h
  split_ifs at h <;> obtain rfl := Option.some.inj h <;> assumption

/-- A round that goes on has read one encoded field, of a length that fits its byte. -/
theorem fieldStep_ok {s t : Bytes} {f : Field} :
    fieldStep s = .ok (some f, t) ↔ f.data.length ≤ 255 ∧ s = encodeField f ++ t := by
  constructor
  · intro h
    obtain ⟨n, _, hn, h⟩ := Reader.bind_ok.mp h
    obtain ⟨rfl, rfl⟩ := Prod.mk.inj (Except.ok.inj hn)
    split_ifs at h with hshort
    · cases h
    · simp only [Reader.bind_ok, Reader.item_ok] at h
      obtain ⟨id, _, rfl, len, _, rfl, n, _, hn, h⟩ := h
      obtain ⟨rfl, rfl⟩ := Prod.mk.inj (Except.ok.inj hn)
      split_ifs at h
      · cases h
      · obtain ⟨data, _, hdata, h⟩ := Reader.bind_ok.mp h
        obtain ⟨hf, rfl⟩ := Reader.pure_ok.mp h
        obtain rfl := Option.some.inj hf
        obtain ⟨hlen, rfl⟩ := Reader.slice_ok.mp hdata
        refine ⟨?_, by simp [encodeField, hlen]⟩
        show data.length ≤ 255
        have hbyte := len.toNat_lt
        omega
  · rintro ⟨hlen, rfl⟩
    have hbyte : (UInt8.ofNat f.data.length).toNat = f.data.length := by
      rw [UInt8.toNat_ofNat', Nat.mod_eq_of_lt (by omega)]
    refine Reader.bind_ok.mpr ⟨_, _, rfl, ?_⟩
    rw [if_neg (by simp [encodeField, FIELD_HEADER_SIZE])]
    refine Reader.bind_ok.mpr ⟨f.field_id, _, rfl, Reader.bind_ok.mpr ⟨_, f.data ++ t, rfl, ?_⟩⟩
    refine Reader.bind_ok.mpr ⟨_, _, rfl, ?_⟩
    rw [hbyte, if_neg (by simp)]
    exact Reader.bind_ok.mpr ⟨f.data, t, Reader.slice_ok.mpr ⟨rfl, rfl⟩, rfl⟩

theorem fieldStep_total (s : Bytes) (hs : s ≠ []) :
    ∃ o t, fieldStep s = .ok (o, t) ∧ (o ≠ none → t.length < s.length) := by
  match s, hs with
  | [b], _ => exact ⟨none, [b], rfl, fun h => absurd rfl h⟩
  | id :: len :: t, _ =>
    by_cases hlen : t.length < len.toNat
    · refine ⟨none, t, ?_, fun h => absurd rfl h⟩
      refine Reader.bind_ok.mpr ⟨_, _, rfl, ?_⟩
      rw [if_neg (by simp [FIELD_HEADER_SIZE])]
      refine Reader.bind_ok.mpr ⟨id, _, rfl, Reader.bind_ok.mpr ⟨len, t, rfl, ?_⟩⟩
      refine Reader.bind_ok.mpr ⟨t.length, t, rfl, ?_⟩
      rw [if_pos hlen]
      rfl
    · have hdata : (t.take len.toNat).length = len.toNat := List.length_take_of_le (Nat.not_lt.mp hlen)
      have hbyte := len.toNat_lt
      refine ⟨some ⟨id, t.take len.toNat⟩, t.drop len.toNat, fieldStep_ok.mpr ⟨?_, ?_⟩, fun _ => ?_⟩
      · show (t.take len.toNat).length ≤ 255
        omega
      · simp [encodeField, hdata]
      · rw [List.length_drop, List.length_cons, List.length_cons]
        omega

/-- The fields the TLV loop finds in a payload; the loop itself never fails. -/
def tlvFields (payload : Bytes) : List Field :=
  match Reader.untilBreak fieldStep payload with
  | .ok (fields, _) => fields
  | .error _ => []

theorem untilBreak_fieldStep (payload : Bytes) :
    ∃ t, Reader.untilBreak fieldStep payload = .ok (tlvFields payload, t) := by
  obtain ⟨fields, t, h⟩ := Reader.untilBreak_total fieldStep_total payload
  exact ⟨t, by rw [tlvFields, h]⟩

/-- The fields found in a payload fit their length bytes, and the payload starts with their encodings. -/
theorem tlvFields_prefix (payload : Bytes) :
    (∀ f ∈ tlvFields payload, f.data.length ≤ 255) ∧ (tlvFields payload).flatMap encodeField <+: payload := by
  obtain ⟨t, hrun⟩ := untilBreak_fieldStep payload
  exact Reader.untilBreak_prefix (fun _ _ _ => fieldStep_ok.mp) hrun

/-- The first field, if any, has the identifier and the length the payload starts with. -/
theorem tlvFields_cons (id len : UInt8) (t : Bytes) :
    tlvFields (id :: len :: t) = [] ∨
      ∃ data fields, data.length = len.toNat ∧ tlvFields (id :: len :: t) = ⟨id, data⟩ :: fields := by
  obtain ⟨hfits, rest, hfront⟩ := tlvFields_prefix (id :: len :: t)
  rcases hf : tlvFields (id :: len :: t) with _ | ⟨f, fields⟩
  · exact .inl rfl
  · rw [hf] at hfits hfront
    have hle := hfits f List.mem_cons_self
    obtain ⟨hid, hfront⟩ := List.cons.inj hfront
    obtain ⟨hlen, -⟩ := List.cons.inj hfront
    refine .inr ⟨f.data, fields, ?_, by rw [← hid]⟩
    rw [← hlen, UInt8.toNat_ofNat', Nat.mod_eq_of_lt (by omega)]

/-- Fields that fit their length bytes are found again. -/
theorem tlvFields_flatMap {fields : List Field} (h : ∀ f ∈ fields, f.data.length ≤ 255) :
    tlvFields (fields.flatMap encodeField) = fields := by
  have hread : ∀ (f : Field) s, f.data.length ≤ 255 → fieldStep (encodeField f ++ s) = .ok (some f, s) :=
    fun f s hf => fieldStep_ok.mpr ⟨hf, rfl⟩
  rw [tlvFields, Reader.untilBreak_flatMap hread (fun f => by simp [encodeField]) h]

/-- The header and the raw payload of a command. -/
def commandBytes (cmd : Command) : Bytes :=
  cmd.cmd_id.toByte :: (writeBe16 (UInt16.ofNat cmd.raw_payload.length) ++ cmd.raw_payload)

/-- What a decoded command looks like: its size fits the field and its fields are read from its raw
payload. -/
def Command.Framed (cmd : Command) : Prop :=
  cmd.raw_payload.length < 2 ^ 16 ∧ cmd.fields = tlvFields cmd.raw_payload

theorem commandBytes_length (cmd : Command) :
    (commandBytes cmd).length = CMD_HEADER_SIZE + cmd.raw_payload.length := by
  simp only [commandBytes, List.length_cons, List.length_append, writeBe16_length, CMD_HEADER_SIZE]
  omega

/-- `decode_command` behind a header whose size field is `data_len`. -/
theorem decodeCommand_header (b : UInt8) (data_len : UInt16) (t : Bytes) :
    decodeCommand (b :: (writeBe16 data_len ++ t)) =
      match CmdId.ofByte b with
      | none => .error (.error .UnknownCommand)
      | some c =>
        if t.length < data_len.toNat then .error (.error .InvalidCommand)
        else .ok ⟨c, tlvFields (t.take data_len.toNat), t.take data_len.toNat⟩ := by
  have hread : (readBe16 (b :: (writeBe16 data_len ++ t)) 1 : Except (Fault CmdError) _) =
      .ok data_len := readBe16_of_drop rfl
  have hlen : (b :: (writeBe16 data_len ++ t)).length = CMD_HEADER_SIZE + t.length := by
    simp [CMD_HEADER_SIZE]
    omega
  rw [decodeCommand, hlen, if_neg (by omega), hread]
  simp only [readAt, List.getElem?_cons_zero, ok_bind]
  cases CmdId.ofByte b with
  | none => rfl
  | some c =>
    by_cases hshort : t.length < data_len.toNat
    · simp only [if_pos hshort, if_pos (Nat.add_lt_add_left hshort CMD_HEADER_SIZE)]
    · have hsub : (subspan (b :: (writeBe16 data_len ++ t)) CMD_HEADER_SIZE data_len.toNat :
          Except (Fault CmdError) _) = .ok (t.take data_len.toNat) := by
        have hdrop : (b :: (writeBe16 data_len ++ t)).drop CMD_HEADER_SIZE = t := rfl
        rw [subspan, hlen, if_pos (by omega), hdrop]
      obtain ⟨rest, hfields⟩ := untilBreak_fieldStep (t.take data_len.toNat)
      simp only [if_neg hshort, if_neg fun h => hshort (Nat.lt_of_add_lt_add_left h), hsub, ok_bind, hfields]
      rfl

/-- `decode_command` reports an error or returns the framed command its bytes start with. -/
theorem decodeCommand_cases (raw : Bytes) :
    (∃ e, decodeCommand raw = .error (.error e)) ∨
      ∃ cmd : Command, decodeCommand raw = .ok cmd ∧ cmd.Framed ∧
        ∃ rest, raw = commandBytes cmd ++ rest := by
  by_cases hmin : raw.length < CMD_HEADER_SIZE
  · exact .inl ⟨.InvalidCommand, by rw [decodeCommand, if_pos hmin]⟩
  · rw [CMD_HEADER_SIZE, Nat.not_lt] at hmin
    obtain ⟨b, s, rfl⟩ := List.exists_cons_of_length_pos (l := raw) (by omega)
    obtain ⟨data_len, t, rfl⟩ := exists_be16 (s := s) (by simpa using hmin)
    have hdec := decodeCommand_header b data_len t
    cases hb : CmdId.ofByte b with
    | none => exact .inl ⟨.UnknownCommand, by rw [hdec, hb]⟩
    | some c =>
      rw [hb] at hdec
      by_cases hlen : t.length < data_len.toNat
      · exact .inl ⟨.InvalidCommand, hdec.trans (if_pos hlen)⟩
      · have hpay : (t.take data_len.toNat).length = data_len.toNat :=
          List.length_take_of_le (Nat.not_lt.mp hlen)
        refine .inr ⟨_, hdec.trans (if_neg hlen), ⟨?_, rfl⟩, t.drop data_len.toNat, ?_⟩
        · show (t.take data_len.toNat).length < 2 ^ 16
          rw [hpay]
          exact data_len.toNat_lt
        · rw [commandBytes, hpay, UInt16.ofNat_toNat, CmdId.ofByte_eq_some hb]
          simp

theorem decodeCommand_ok {raw : Bytes} {cmd : Command} :
    decodeCommand raw = .ok cmd ↔ cmd.Framed ∧ ∃ rest, raw = commandBytes cmd ++ rest := by
  refine ⟨fun h => ?_, ?_⟩
  · rcases decodeCommand_cases raw with ⟨e, herr⟩ | ⟨cmd', hok, hframed⟩
    · rw [h] at herr
      cases herr
    · obtain rfl := Except.ok.inj (h.symm.trans hok)
      exact hframed
  · rintro ⟨⟨hsize, hfields⟩, rest, rfl⟩
    have hlen : (UInt16.ofNat cmd.raw_payload.length).toNat = cmd.raw_payload.length := by
      rw [UInt16.toNat_ofNat', Nat.mod_eq_of_lt hsize]
    have hshape : commandBytes cmd ++ rest = cmd.cmd_id.toByte ::
        (writeBe16 (UInt16.ofNat cmd.raw_payload.length) ++ (cmd.raw_payload ++ rest)) := by
      simp [commandBytes]
    rw [hshape, decodeCommand_header, CmdId.ofByte_toByte, hlen]
    dsimp only
    rw [if_neg (by simp), List.take_left, ← hfields]

theorem commandStep_command {cmd : Command} (hframed : cmd.Framed) (t : Bytes) :
    commandStep (commandBytes cmd ++ t) = .ok (cmd, t) := by
  have hread : (readBe16 (commandBytes cmd ++ t) 1 : Except (Fault CmdError) _) =
      .ok (UInt16.ofNat cmd.raw_payload.length) := readBe16_of_drop rfl
  have hlen : CMD_HEADER_SIZE + (UInt16.ofNat cmd.raw_payload.length).toNat =
      (commandBytes cmd).length := by
    rw [UInt16.toNat_ofNat', Nat.mod_eq_of_lt hframed.1, commandBytes_length]
  rw [commandStep, decodeCommand_ok.mpr ⟨hframed, t, rfl⟩]
  simp only [ok_bind, hread, hlen, List.drop_left]
  rfl

/-- One round of the loop consumes exactly one command. -/
theorem commandStep_parses : Parses commandStep commandBytes Command.Framed := by
  intro s cmd t
  refine ⟨fun h => ?_, ?_⟩
  · cases hd : decodeCommand s with
    | error e => rw [commandStep, hd] at h; cases h
    | ok cmd' =>
      obtain ⟨hframed, rest, rfl⟩ := decodeCommand_ok.mp hd
      rw [commandStep_command hframed] at h
      obtain ⟨rfl, rfl⟩ := Prod.mk.inj (Except.ok.inj h)
      exact ⟨hframed, rfl⟩
  · rintro ⟨hframed, rfl⟩
    exact commandStep_command hframed t

theorem commandStep_safe : Reader.Safe commandStep := by
  intro s f h
  rcases decodeCommand_cases s with ⟨e, herr⟩ | ⟨cmd, -, hframed, rest, rfl⟩
  · rw [commandStep, herr] at h
    exact ⟨e, (Except.error.inj h).symm⟩
  · rw [commandStep_command hframed] at h
    cases h

theorem commandStep_consumes : Reader.Consumes commandStep := by
  intro s cmd t h
  obtain ⟨-, rfl⟩ := (commandStep_parses s cmd t).mp h
  rw [List.length_append, commandBytes_length, CMD_HEADER_SIZE]
  omega

/-- `decode_commands` ends and never reads outside its buffer. -/
theorem decodeCommands_safe {raw : Bytes} {f : Fault CmdError} (h : decodeCommands raw = .error f) :
    ∃ e, f = .error e := by
  refine commandStep_safe.untilEnd commandStep_consumes raw f ?_
  cases hr : Reader.untilEnd commandStep raw with
  | error e => rw [decodeCommands, hr] at h; exact congrArg _ (Except.error.inj h)
  | ok r => rw [decodeCommands, hr] at h; cases h

/-- `decode_commands` accepts the concatenations of framed commands. -/
theorem decodeCommands_ok {raw : Bytes} {cmds : List Command} :
    decodeCommands raw = .ok cmds ↔
      (∀ cmd ∈ cmds, cmd.Framed) ∧ raw = cmds.flatMap commandBytes := by
  have hne : ∀ cmd : Command, cmd.Framed → commandBytes cmd ≠ [] := fun cmd _ => by
    simp [commandBytes]
  have hrun := fun as t => Parses.untilEnd commandStep_parses hne raw as t
  refine ⟨fun h => ?_, fun h => ?_⟩
  · cases hr : Reader.untilEnd commandStep raw with
    | error e => rw [decodeCommands, hr] at h; cases h
    | ok r =>
      obtain ⟨as, t⟩ := r
      rw [decodeCommands, hr] at h
      obtain rfl : as = cmds := Except.ok.inj h
      exact ((hrun as t).mp hr).2
  · rw [decodeCommands, (hrun cmds []).mpr ⟨rfl, h⟩]
    rfl

/-! ### Complete commands -/

/-- A command as `encode_command` writes it, as long as its size field says. -/
def CompleteCommand (block : Bytes) : Prop :=
  ∃ cmd data_len, encodeCommand cmd = .ok block ∧
    readBe16 block 1 = Except.ok (ε := Fault CmdError) data_len ∧
    block.length = CMD_HEADER_SIZE + data_len.toNat

theorem Command.Framed.encodeCommand {cmd : Command} (h : cmd.Framed) :
    encodeCommand cmd = .ok (commandBytes cmd) := by
  by_cases hraw : cmd.raw_payload = []
  · have hfields : cmd.fields = [] := by
      rw [h.2, hraw]
      rfl
    simp [CmdProto.encodeCommand, commandBytes, hraw, hfields]
  · exact if_pos hraw

/-- Every encoding starts with a known identifier and a size. -/
theorem encodeCommand_header {cmd : Command} {out : Bytes} (h : encodeCommand cmd = .ok out) :
    ∃ data_len payload, out = cmd.cmd_id.toByte :: (writeBe16 data_len ++ payload) := by
  unfold encodeCommand at h
  split_ifs at h
  · exact ⟨_, _, (Except.ok.inj h).symm⟩
  · exact ⟨_, _, (Except.ok.inj h).symm⟩

/-- The complete encodings are the framed commands, whichever of the two forms wrote them. -/
theorem completeCommand_iff {block : Bytes} :
    CompleteCommand block ↔ ∃ cmd : Command, cmd.Framed ∧ block = commandBytes cmd := by
  refine ⟨?_, ?_⟩
  · rintro ⟨cmd, data_len, henc, hread, hlen⟩
    obtain ⟨data_len', payload, rfl⟩ := encodeCommand_header henc
    obtain rfl : data_len' = data_len := by
      rw [readBe16_of_drop (v := data_len') (t := payload) rfl] at hread
      exact Except.ok.inj hread
    have hpay : payload.length = data_len'.toNat := by
      simp [CMD_HEADER_SIZE] at hlen
      omega
    refine ⟨⟨cmd.cmd_id, tlvFields payload, payload⟩, ⟨?_, rfl⟩, ?_⟩
    · show payload.length < 2 ^ 16
      rw [hpay]
      exact data_len'.toNat_lt
    · rw [commandBytes, hpay, UInt16.ofNat_toNat]
  · rintro ⟨cmd, hframed, rfl⟩
    refine ⟨cmd, UInt16.ofNat cmd.raw_payload.length, hframed.encodeCommand, readBe16_of_drop rfl, ?_⟩
    rw [commandBytes_length, UInt16.toNat_ofNat', Nat.mod_eq_of_lt hframed.1]

theorem writeAll_encodeCommand {cmds : List Command} (h : ∀ cmd ∈ cmds, cmd.Framed) :
    writeAll encodeCommand cmds = .ok (cmds.flatMap commandBytes) := by
  induction cmds with
  | nil => rfl
  | cons cmd cmds ih =>
    obtain ⟨hcmd, hcmds⟩ := List.forall_mem_cons.mp h
    rw [writeAll, hcmd.encodeCommand, ih hcmds]
    rfl

theorem exists_framed {blocks : List Bytes} (h : ∀ b ∈ blocks, CompleteCommand b) :
    ∃ cmds : List Command, (∀ cmd ∈ cmds, cmd.Framed) ∧ cmds.map commandBytes = blocks := by
  induction blocks with
  | nil => exact ⟨[], by simp, rfl⟩
  | cons b blocks ih =>
    obtain ⟨hb, hbs⟩ := List.forall_mem_cons.mp h
    obtain ⟨cmd, hframed, rfl⟩ := completeCommand_iff.mp hb
    obtain ⟨cmds, hall, rfl⟩ := ih hbs
    exact ⟨cmd :: cmds, List.forall_mem_cons.mpr ⟨hframed, hall⟩, rfl⟩

/-- **Commands parse exactly.**  `decode_commands` ends with a result or an error of the protocol; it
succeeds on the concatenations of complete commands and on nothing else, and encoding what it returned
gives the bytes back. -/
theorem decodeCommands_exact (raw : Bytes) :
    (∀ f, decodeCommands raw = .error f → ∃ e, f = .error e) ∧
      ((∃ cmds, decodeCommands raw = .ok cmds) ↔
        ∃ blocks : List Bytes, (∀ b ∈ blocks, CompleteCommand b) ∧ raw = blocks.flatten) ∧
      ∀ cmds, decodeCommands raw = .ok cmds → writeAll encodeCommand cmds = .ok raw := by
  refine ⟨fun f h => decodeCommands_safe h, ⟨?_, ?_⟩, ?_⟩
  · rintro ⟨cmds, h⟩
    obtain ⟨hframed, rfl⟩ := decodeCommands_ok.mp h
    refine ⟨cmds.map commandBytes, fun b hb => ?_, List.flatMap_def⟩
    obtain ⟨cmd, hmem, rfl⟩ := List.mem_map.mp hb
    exact completeCommand_iff.mpr ⟨cmd, hframed cmd hmem, rfl⟩
  · rintro ⟨blocks, hblocks, rfl⟩
    obtain ⟨cmds, hframed, rfl⟩ := exists_framed hblocks
    exact ⟨cmds, decodeCommands_ok.mpr ⟨hframed, List.flatMap_def.symm⟩⟩
  · intro cmds h
    obtain ⟨hframed, rfl⟩ := decodeCommands_ok.mp h
    exact writeAll_encodeCommand hframed

end Rtsrv.CmdProto
