import Rtsrv.Client.NetlinkRoutes
import Rtsrv.Client.NlReceive

/-!
# Rtsrv.Client.NlDump — the two receivers of a dump (`unix_domain/lib/netlink.cpp`, `routing.cpp`)

`nl_dump` collects the messages of a dump in one buffer, which its callers walk over afterwards.  `recvAll`
hands each message of its request to a handler while it receives.  Which datagrams the messages arrive in
makes no difference to either, and `recvAll` goes on across interruptions and answers to earlier requests.
-/

namespace Rtsrv.Client

open Lib CmdProto

/-! ### `nl_dump` -/

/-- What becomes of a call of `nl_dump`. -/
inductive DumpOutcome where
  | waiting
  | returned (data : Except TransactError (List UInt8))
  deriving DecidableEq, Repr

/-- The places in `nl_dump`.  The buffer keeps what earlier datagrams left behind the last one. -/
inductive NlDump where
  | sending (recvs : List Recv)
  | receiving (recvs : List Recv) (buf result : List UInt8)
  | walking (recvs : List Recv) (buf nlh : List UInt8) (len : ℤ) (result : List UInt8)
  deriving DecidableEq, Repr

/-- One round of `nl_dump`, with whether the request can be sent. -/
def NlDump.step (sent : Bool) : NlDump → Access (Round NlDump DumpOutcome)
  | .sending recvs =>
    if sent then .ok (.again (.receiving recvs (List.replicate kNlBufSize 0) []))
    else .ok (.done (.returned (.error .SendFailed)))
  | .receiving [] _ _ => .ok (.done .waiting)
  | .receiving (.failed _ :: _) _ _ => .ok (.done (.returned (.error .RecvFailed)))
  | .receiving (.datagram bytes :: recvs) buf result =>
    let received := bytes.take kNlBufSize
    let buf := received ++ buf.drop received.length
    .ok (.again (.walking recvs buf buf received.length result))
  | .walking recvs buf nlh len result => do
    match ← nlmsgOk nlh len with
    | none => pure (.again (.receiving recvs buf result))
    | some hdr =>
      if hdr.nlmsg_type = NLMSG_DONE then pure (.done (.returned (.ok result)))
      else if hdr.nlmsg_type = NLMSG_ERROR then do
        let error ← u32At nlh 16
        if error ≠ 0 then pure (.done (.returned (.error (.system (-error.toInt32)))))
        else pure (.done (.returned (.ok result)))
      else
        -- The aligned message is appended, which may be more than was received.
        let next := (nlmsgAlign hdr.nlmsg_len).toNat
        if next ≤ nlh.length then
          pure (.again (.walking recvs buf (nlh.drop next) (len - next) (result ++ nlh.take next)))
        else .error .outOfRange

/-! ### Messages of a dump -/

theorem nlmsghdr_flags {nlh : List UInt8} {hdr : NlMsgHdr} (h : nlmsghdr nlh = .ok hdr) :
    u16At nlh 6 = .ok hdr.nlmsg_flags := by
  match nlh with
  | l0 :: l1 :: l2 :: l3 :: t0 :: t1 :: f0 :: f1 :: tail =>
    rw [nlmsghdr] at h
    split_ifs at h
    rw [← Except.ok.inj h]
    rfl
  | [] | [_] | [_, _] | [_, _, _] | [_, _, _, _] | [_, _, _, _, _] | [_, _, _, _, _, _]
  | [_, _, _, _, _, _, _] => cases h

namespace PaddedMsg

variable (m : PaddedMsg)

/-- `nlmsg_seq`. -/
def seq : UInt32 := (u32At m.bytes 8).toOption.getD 0

theorem u32At_seq (rest : List UInt8) : u32At (m.bytes ++ rest) 8 = .ok m.seq := by
  obtain ⟨v, hv⟩ := u32At_ok m.bytes (i := 8) (Nat.le_trans (by decide) (m.low.trans m.length_le))
  rw [u32At_append hv, seq, hv]
  rfl

theorem u16At_flags (rest : List UInt8) : u16At (m.bytes ++ rest) 6 = .ok m.hdr.nlmsg_flags :=
  u16At_append (nlmsghdr_flags m.header) rest

theorem nlmsgOkSigned_le (rest : List UInt8) {n : ℤ} (hle : m.bytes.length ≤ n) (hn : n < 2 ^ 32) :
    nlmsgOkSigned (m.bytes ++ rest) n = .ok (some m.hdr) := by
  have hlen := m.length_le
  have hlow := m.low
  rw [nlmsgOkSigned, if_neg (by omega)]
  exact m.nlmsgOk_le rest hle hn

theorem next_eq : (nlmsgAlign m.hdr.nlmsg_len).toNat = m.bytes.length := by
  rw [nlmsgAlign_toNat m.high, m.padded]

/-- The message ends an answer, with the errno of an `NLMSG_ERROR`. -/
inductive Ends : UInt32 → Prop
  | done (h : m.hdr.nlmsg_type = NLMSG_DONE) : Ends 0
  | error {error : UInt32} (h : m.hdr.nlmsg_type = NLMSG_ERROR) (herror : u32At m.bytes 16 = .ok error) :
      Ends error

end PaddedMsg

theorem wire_append (msgs more : List PaddedMsg) : wire (msgs ++ more) = wire msgs ++ wire more :=
  List.flatMap_append

/-- Nothing is left of what was received. -/
theorem nlmsgOkSigned_zero (nlh : List UInt8) : nlmsgOkSigned nlh 0 = .ok none := rfl

/-! ### Answers -/

/-- A datagram of whole messages that the buffer has room for. -/
structure DumpPart where
  msgs : List PaddedMsg
  nonempty : msgs ≠ []
  fits : (wire msgs).length ≤ kNlBufSize

def DumpPart.recv (p : DumpPart) : Recv := .datagram (wire p.msgs)

/-- The first message says that it is part of a multipart answer. -/
def DumpPart.Multi (p : DumpPart) : Prop := ∀ m ∈ p.msgs.head?, m.hdr.nlmsg_flags &&& NLM_F_MULTI ≠ 0

/-- What a call of `recv` comes to in the middle of an answer. -/
inductive PartArrival where
  | interrupted
  | part (p : DumpPart)

def PartArrival.recv : PartArrival → Recv
  | interrupted => .failed EINTR
  | part p => p.recv

def PartArrival.msgs : PartArrival → List PaddedMsg
  | interrupted => []
  | part p => p.msgs

/-- An answer to a dump: what comes before its last datagram, in this the messages before the mark that ends
the answer and those behind it, and what later calls of `recv` come to. -/
structure PartedAnswer where
  before : List PartArrival
  last : DumpPart
  pre : List PaddedMsg
  mark : PaddedMsg
  lost : List PaddedMsg
  split : last.msgs = pre ++ mark :: lost
  error : UInt32
  ends : mark.Ends error
  after : List Recv

namespace PartedAnswer

def recvs (a : PartedAnswer) : List Recv := a.before.map PartArrival.recv ++ a.last.recv :: a.after

/-- The messages up to the mark. -/
def msgs (a : PartedAnswer) : List PaddedMsg := a.before.flatMap PartArrival.msgs ++ a.pre

/-- The messages of a request. -/
def own (a : PartedAnswer) (seq : UInt32) : List PaddedMsg := a.msgs.filter fun m => m.seq = seq

end PartedAnswer

/-- The buffer behind what is received stays as it was. -/
def overwrite (bytes buf : List UInt8) : List UInt8 := bytes ++ buf.drop bytes.length

theorem DumpPart.take_wire (p : DumpPart) : (wire p.msgs).take kNlBufSize = wire p.msgs :=
  List.take_of_length_le p.fits

theorem DumpPart.length_lt (p : DumpPart) : ((wire p.msgs).length : ℤ) < 2 ^ 32 := by
  have hfits := p.fits
  unfold kNlBufSize at hfits
  omega

/-- The buffer with a last datagram in it. -/
theorem DumpPart.overwrite_split {last : DumpPart} {pre lost : List PaddedMsg} {mark : PaddedMsg}
    (hsplit : last.msgs = pre ++ mark :: lost) (buf : List UInt8) :
    ∃ tail, overwrite (wire last.msgs) buf = wire pre ++ (mark.bytes ++ tail) ∧
      ((wire last.msgs).length : ℤ) =
        (wire pre).length + ((mark.bytes.length : ℤ) + (wire lost).length) := by
  have hwire : wire last.msgs = wire pre ++ (mark.bytes ++ wire lost) := by
    rw [hsplit, wire_append]
    exact congrArg _ List.flatMap_cons
  refine ⟨wire lost ++ buf.drop (wire last.msgs).length, ?_, ?_⟩
  · nth_rewrite 1 [overwrite, hwire]
    rw [List.append_assoc, List.append_assoc]
  · rw [hwire, List.length_append, List.length_append]
    push_cast
    rfl

/-! ### What `nl_dump` collects -/

namespace NlDump

variable {sent : Bool} {recvs : List Recv} {buf : List UInt8} {r : DumpOutcome}

/-- A message that goes on is appended with its padding. -/
theorem step_plain {m : PaddedMsg} (hplain : m.Plain) (tail : List UInt8) {len : ℤ}
    (hle : m.bytes.length ≤ len) (hlen : len < 2 ^ 32) (result : List UInt8) :
    step sent (.walking recvs buf (m.bytes ++ tail) len result) =
      .ok (.again (.walking recvs buf tail (len - m.bytes.length) (result ++ m.bytes))) := by
  have hroom : m.bytes.length ≤ (m.bytes ++ tail).length := by
    rw [List.length_append]
    exact Nat.le_add_right _ _
  rw [step, m.nlmsgOk_le tail hle hlen, ok_bind]
  dsimp only
  rw [if_neg hplain.1, if_neg hplain.2, m.next_eq, if_pos hroom, List.drop_left, List.take_left]
  rfl

theorem returns_wire {msgs : List PaddedMsg} (tail : List UInt8) {k : ℤ} (hk : 0 ≤ k) :
    ∀ {len : ℤ} {result : List UInt8}, (∀ m ∈ msgs, m.Plain) → len = (wire msgs).length + k → len < 2 ^ 32 →
      (Returns (step sent) (.walking recvs buf (wire msgs ++ tail) len result) r ↔
        Returns (step sent) (.walking recvs buf tail k (result ++ wire msgs)) r) := by
  induction msgs with
  | nil =>
    rintro len result - hlen -
    have heq : len = k := by simpa [wire] using hlen
    simp [wire, heq]
  | cons m msgs ih =>
    intro len result hplain hlen hlt
    obtain ⟨hm, hmsgs⟩ := List.forall_mem_cons.mp hplain
    have hwire : wire (m :: msgs) = m.bytes ++ wire msgs := List.flatMap_cons
    rw [hwire, List.length_append] at hlen
    rw [hwire, List.append_assoc, returns_again (step_plain hm _ (by omega) hlt _),
      ih hmsgs (by omega) (by omega), List.append_assoc]

/-- A datagram of messages that go on. -/
theorem returns_part {p : DumpPart} (hplain : ∀ m ∈ p.msgs, m.Plain) (result : List UInt8) :
    Returns (step sent) (.receiving (p.recv :: recvs) buf result) r ↔
      Returns (step sent) (.receiving recvs (overwrite (wire p.msgs) buf) (result ++ wire p.msgs)) r := by
  have hstep : step sent (.receiving (p.recv :: recvs) buf result) = .ok (.again (.walking recvs
      (overwrite (wire p.msgs) buf) (overwrite (wire p.msgs) buf) (wire p.msgs).length result)) := by
    rw [DumpPart.recv, step, p.take_wire]
    rfl
  have hend : step sent (.walking recvs (overwrite (wire p.msgs) buf) (buf.drop (wire p.msgs).length) 0
      (result ++ wire p.msgs)) =
        .ok (.again (.receiving recvs (overwrite (wire p.msgs) buf) (result ++ wire p.msgs))) := rfl
  rw [returns_again hstep, ← returns_again hend]
  exact returns_wire _ le_rfl hplain (Int.add_zero _).symm p.length_lt

theorem returns_parts {ps : List DumpPart} (hplain : ∀ p ∈ ps, ∀ m ∈ p.msgs, m.Plain) :
    ∀ buf result : List UInt8, ∃ buf', (Returns (step sent)
        (.receiving (ps.map DumpPart.recv ++ recvs) buf result) r ↔
      Returns (step sent) (.receiving recvs buf' (result ++ wire (ps.flatMap DumpPart.msgs))) r) := by
  induction ps with
  | nil => exact fun buf result => ⟨buf, by simp [wire]⟩
  | cons p ps ih =>
    intro buf result
    obtain ⟨hp, hps⟩ := List.forall_mem_cons.mp hplain
    obtain ⟨buf', hiff⟩ := ih hps (overwrite (wire p.msgs) buf) (result ++ wire p.msgs)
    refine ⟨buf', ?_⟩
    rw [List.map_cons, List.cons_append, returns_part hp, hiff, List.flatMap_cons, wire_append,
      List.append_assoc]

/-- What the mark of an answer returns. -/
def ending (error : UInt32) (data : List UInt8) : Except TransactError (List UInt8) :=
  if error ≠ 0 then .error (.system (-error.toInt32)) else .ok data

theorem returns_mark {mark : PaddedMsg} {error : UInt32} (hends : mark.Ends error) (tail : List UInt8) {len : ℤ}
    (hle : mark.bytes.length ≤ len) (hlen : len < 2 ^ 32) (result : List UInt8) :
    Returns (step sent) (.walking recvs buf (mark.bytes ++ tail) len result)
      (.returned (ending error result)) := by
  refine .done ?_
  rw [step, mark.nlmsgOk_le tail hle hlen, ok_bind]
  cases hends with
  | done h => exact if_pos h
  | error h herror =>
    have hne : mark.hdr.nlmsg_type ≠ NLMSG_DONE := h ▸ (by decide)
    dsimp only
    rw [if_neg hne, if_pos h, u32At_append herror, ok_bind, ending]
    split_ifs
    · rfl
    · rfl

/-- The last datagram gives the messages before its mark. -/
theorem returns_last {last : DumpPart} {pre lost : List PaddedMsg} {mark : PaddedMsg} {error : UInt32}
    (hsplit : last.msgs = pre ++ mark :: lost) (hends : mark.Ends error) (hpre : ∀ m ∈ pre, m.Plain)
    {result : List UInt8} : Returns (step sent) (.receiving (last.recv :: recvs) buf result)
      (.returned (ending error (result ++ wire pre))) := by
  obtain ⟨tail, htail, hcount⟩ := last.overwrite_split hsplit buf
  have hlen := last.length_lt
  have hstep : step sent (.receiving (last.recv :: recvs) buf result) = .ok (.again (.walking recvs
      (overwrite (wire last.msgs) buf) (overwrite (wire last.msgs) buf) (wire last.msgs).length result)) := by
    rw [DumpPart.recv, step, last.take_wire]
    rfl
  rw [returns_again hstep]
  generalize overwrite (wire last.msgs) buf = buf' at htail ⊢
  nth_rewrite 2 [htail]
  rw [returns_wire _ (by omega) hpre hcount hlen]
  exact returns_mark hends _ (by omega) (by omega) _

end NlDump

/-- **`nl_dump` collects the messages up to the mark**, whatever datagrams they come in. -/
theorem nlDump_collects (a : PartedAnswer) {ps : List DumpPart} (hparts : a.before = ps.map .part)
    (hplain : ∀ m ∈ a.msgs, m.Plain) :
    Returns (NlDump.step true) (.sending a.recvs) (.returned (NlDump.ending a.error (wire a.msgs))) := by
  have hmsgs : a.before.flatMap PartArrival.msgs = ps.flatMap DumpPart.msgs := by
    rw [hparts, List.flatMap_map]
    rfl
  have hrecvs : a.before.map PartArrival.recv = ps.map DumpPart.recv := by
    rw [hparts, List.map_map]
    rfl
  rw [PartedAnswer.msgs, hmsgs] at hplain ⊢
  obtain ⟨hps, hpre⟩ := List.forall_mem_append.mp hplain
  have hstart : NlDump.step true (.sending a.recvs) =
    .ok (.again (.receiving a.recvs (List.replicate kNlBufSize 0) [])) := rfl
  rw [returns_again hstart, PartedAnswer.recvs, hrecvs]
  obtain ⟨buf, hiff⟩ := NlDump.returns_parts (fun p hp m hm => hps m (List.mem_flatMap.mpr ⟨p, hp, hm⟩))
    (List.replicate kNlBufSize 0) []
  rw [hiff, List.nil_append, wire_append]
  exact NlDump.returns_last a.split a.ends hpre

/-! ### What `recvAll` hands on -/

/-- The handler reads the message, and nothing behind it. -/
def Handles {α : Type} (handler : α → List UInt8 → α) (apply : α → PaddedMsg → α) (m : PaddedMsg) : Prop :=
  ∀ acc tail, handler acc (m.bytes ++ tail) = apply acc m

namespace RecvAll

variable {α : Type} {seq : UInt32} {handler : α → List UInt8 → α} {apply : α → PaddedMsg → α}
  {recvs : List Recv} {buf : List UInt8} {r : RecvOutcome α}

/-- A message of another request is skipped, one of this request is handled if it goes on. -/
theorem step_padded {m : PaddedMsg} (hown : m.seq = seq → m.Plain ∧ Handles handler apply m)
    (tail : List UInt8) {n : ℤ} (hle : m.bytes.length ≤ n) (hn : n < 2 ^ 32) (acc : α) :
    step seq handler (.walking recvs buf (m.bytes ++ tail) n acc) =
      .ok (.again (.walking recvs buf tail (n - m.bytes.length)
        (if m.seq = seq then apply acc m else acc))) := by
  rw [step, m.nlmsgOkSigned_le tail hle hn, ok_bind]
  dsimp only
  rw [m.u32At_seq, ok_bind, m.next_eq, List.drop_left]
  by_cases hseq : m.seq = seq
  · obtain ⟨hplain, hhandles⟩ := hown hseq
    rw [if_neg (not_not.mpr hseq), if_neg hplain.1, if_neg hplain.2, if_pos hseq, hhandles]
    rfl
  · rw [if_pos hseq, if_neg hseq]
    rfl

/-- The messages of the request, handled one after the other. -/
def handled (seq : UInt32) (apply : α → PaddedMsg → α) (msgs : List PaddedMsg) (acc : α) : α :=
  (msgs.filter fun m => m.seq = seq).foldl apply acc

theorem handled_append (msgs more : List PaddedMsg) (acc : α) :
    handled seq apply (msgs ++ more) acc = handled seq apply more (handled seq apply msgs acc) := by
  rw [handled, List.filter_append, List.foldl_append]
  rfl

theorem returns_wire {msgs : List PaddedMsg} (tail : List UInt8) {k : ℤ} (hk : 0 ≤ k) :
    ∀ {n : ℤ} {acc : α}, (∀ m ∈ msgs, m.seq = seq → m.Plain ∧ Handles handler apply m) →
      n = (wire msgs).length + k → n < 2 ^ 32 →
      (Returns (step seq handler) (.walking recvs buf (wire msgs ++ tail) n acc) r ↔
        Returns (step seq handler) (.walking recvs buf tail k (handled seq apply msgs acc)) r) := by
  induction msgs with
  | nil =>
    rintro n acc - hn -
    have heq : n = k := by simpa [wire] using hn
    simp [wire, heq, handled]
  | cons m msgs ih =>
    intro n acc hown hn hlt
    obtain ⟨hm, hmsgs⟩ := List.forall_mem_cons.mp hown
    have hwire : wire (m :: msgs) = m.bytes ++ wire msgs := List.flatMap_cons
    have hhandled : handled seq apply (m :: msgs) acc =
        handled seq apply msgs (if m.seq = seq then apply acc m else acc) := by
      rw [handled, List.filter_cons]
      by_cases hseq : m.seq = seq
      · simp [handled, hseq]
      · simp [handled, hseq]
    rw [hwire, List.length_append] at hn
    rw [hwire, List.append_assoc, returns_again (step_padded hm _ (by omega) hlt _),
      ih hmsgs (by omega) (by omega), hhandled]

theorem reading_part (p : DumpPart) (acc : α) : step seq handler (.reading (p.recv :: recvs) buf acc) =
    .ok (.again (.walking recvs (overwrite (wire p.msgs) buf) (overwrite (wire p.msgs) buf)
      (wire p.msgs).length acc)) := by
  rw [DumpPart.recv, step, p.take_wire]
  rfl

/-- A datagram that is part of a multipart answer. -/
theorem returns_part {p : DumpPart} (hmulti : p.Multi)
    (hown : ∀ m ∈ p.msgs, m.seq = seq → m.Plain ∧ Handles handler apply m) (acc : α) :
    Returns (step seq handler) (.reading (p.recv :: recvs) buf acc) r ↔
      Returns (step seq handler)
        (.reading recvs (overwrite (wire p.msgs) buf) (handled seq apply p.msgs acc)) r := by
  obtain ⟨m, msgs, hmsgs⟩ := List.exists_cons_of_ne_nil p.nonempty
  have hflags : u16At (overwrite (wire p.msgs) buf) 6 = .ok m.hdr.nlmsg_flags := by
    rw [overwrite, hmsgs, wire, List.flatMap_cons, List.append_assoc]
    exact m.u16At_flags _
  have hset : m.hdr.nlmsg_flags &&& NLM_F_MULTI ≠ 0 := hmulti m (by simp [hmsgs])
  have hend : step seq handler (.walking recvs (overwrite (wire p.msgs) buf)
      (buf.drop (wire p.msgs).length) 0 (handled seq apply p.msgs acc)) =
        .ok (.again (.reading recvs (overwrite (wire p.msgs) buf) (handled seq apply p.msgs acc))) := by
    rw [step, nlmsgOkSigned_zero, ok_bind]
    dsimp only
    rw [hflags, ok_bind, if_pos hset]
    rfl
  rw [returns_again (reading_part p acc), ← returns_again hend]
  exact returns_wire _ le_rfl hown (Int.add_zero _).symm p.length_lt

theorem returns_before {before : List PartArrival} (hmulti : ∀ p, .part p ∈ before → p.Multi)
    (hown : ∀ m ∈ before.flatMap PartArrival.msgs, m.seq = seq → m.Plain ∧ Handles handler apply m) :
    ∀ (buf : List UInt8) (acc : α), ∃ buf', (Returns (step seq handler)
        (.reading (before.map PartArrival.recv ++ recvs) buf acc) r ↔
      Returns (step seq handler)
        (.reading recvs buf' (handled seq apply (before.flatMap PartArrival.msgs) acc)) r) := by
  induction before with
  | nil => exact fun buf acc => ⟨buf, by simp [handled]⟩
  | cons d before ih =>
    intro buf acc
    obtain ⟨hd, hbefore⟩ := List.forall_mem_append.mp (List.flatMap_cons ▸ hown)
    have hih := ih (fun p hp => hmulti p (List.mem_cons_of_mem _ hp)) hbefore
    cases d with
    | interrupted =>
      obtain ⟨buf', hiff⟩ := hih buf acc
      refine ⟨buf', ?_⟩
      have hstep : step seq handler
          (.reading (.failed EINTR :: (before.map PartArrival.recv ++ recvs)) buf acc) =
            .ok (.again (.reading (before.map PartArrival.recv ++ recvs) buf acc)) := rfl
      exact (returns_again hstep).trans hiff
    | part p =>
      obtain ⟨buf', hiff⟩ := hih (overwrite (wire p.msgs) buf) (handled seq apply p.msgs acc)
      refine ⟨buf', ?_⟩
      rw [List.flatMap_cons, handled_append]
      exact (returns_part (hmulti p (List.mem_cons_self ..)) hd acc).trans hiff

/-- What the mark of an answer comes to. -/
def ending (error : UInt32) (acc : α) : RecvOutcome α :=
  if error ≠ 0 then .failed (.netlink (-error.toInt32)) else .success acc

theorem returns_mark {mark : PaddedMsg} {error : UInt32} (hends : mark.Ends error) (hseq : mark.seq = seq)
    (tail : List UInt8) {n : ℤ} (hle : mark.bytes.length ≤ n) (hn : n < 2 ^ 32) (acc : α) :
    Returns (step seq handler) (.walking recvs buf (mark.bytes ++ tail) n acc) (ending error acc) := by
  refine .done ((step_message (mark.nlmsgOkSigned_le tail hle hn)).mpr ⟨hseq ▸ mark.u32At_seq tail, ?_⟩)
  cases hends with
  | done h => exact .inl ⟨h, rfl⟩
  | error h herror => exact .inr ⟨h, error, u32At_append herror tail, rfl⟩

theorem returns_last {last : DumpPart} {pre lost : List PaddedMsg} {mark : PaddedMsg} {error : UInt32}
    (hsplit : last.msgs = pre ++ mark :: lost) (hends : mark.Ends error) (hseq : mark.seq = seq)
    (hown : ∀ m ∈ pre, m.seq = seq → m.Plain ∧ Handles handler apply m) {acc : α} :
    Returns (step seq handler) (.reading (last.recv :: recvs) buf acc)
      (ending error (handled seq apply pre acc)) := by
  obtain ⟨tail, htail, hcount⟩ := last.overwrite_split hsplit buf
  have hlen := last.length_lt
  rw [returns_again (reading_part last acc)]
  generalize overwrite (wire last.msgs) buf = buf' at htail ⊢
  nth_rewrite 2 [htail]
  rw [returns_wire _ (by omega) hown hcount hlen]
  exact returns_mark hends hseq _ (by omega) (by omega) _

end RecvAll

/-- **`recvAll` hands the messages of its request on, up to the mark**, whatever datagrams they come in, across
interruptions and messages of earlier requests. -/
theorem recvAll_handles {α : Type} {seq : UInt32} {handler : α → List UInt8 → α} {apply : α → PaddedMsg → α}
    (a : PartedAnswer) (hseq : a.mark.seq = seq) (hmulti : ∀ p, .part p ∈ a.before → p.Multi)
    (hown : ∀ m ∈ a.own seq, m.Plain ∧ Handles handler apply m) (acc : α) :
    Returns (RecvAll.step seq handler) (.start a.recvs acc)
      (RecvAll.ending a.error ((a.own seq).foldl apply acc)) := by
  have hmsgs : ∀ m ∈ a.msgs, m.seq = seq → m.Plain ∧ Handles handler apply m := fun m hm hseq =>
    hown m (List.mem_filter.mpr ⟨hm, decide_eq_true hseq⟩)
  obtain ⟨hbefore, hpre⟩ := List.forall_mem_append.mp hmsgs
  obtain ⟨buf, hiff⟩ := RecvAll.returns_before hmulti hbefore (List.replicate kNlBufSize 0) acc
  have hfold : (a.own seq).foldl apply acc = RecvAll.handled seq apply a.pre
      (RecvAll.handled seq apply (a.before.flatMap PartArrival.msgs) acc) :=
    RecvAll.handled_append _ _ _
  rw [RecvAll.start, PartedAnswer.recvs, hiff, hfold]
  exact RecvAll.returns_last a.split a.ends hseq hpre

end Rtsrv.Client
