import Rtsrv.Client.NlReplies
import Rtsrv.Client.RouteRequest

/-!
# Rtsrv.Client.NlReceive — the receiving loops (`netlink.c`, `netlink_neigh.c`, `netlink_nexthop.c`)

The dumps and the `run` functions receive one datagram after the other and walk over the messages in it.  How
the kernel packs messages into datagrams, and which calls of `recv` are interrupted, makes no difference to
the callbacks, except that the messages behind an `NLMSG_DONE` in its datagram are lost.
-/

namespace Rtsrv.Client

open Lib CmdProto

/-- `NL_BUF_SIZE` of `netlink.c`. -/
def NL_BUF_SIZE : ℕ := 8192

/-- `NL_BUF_SIZE` of `netlink_neigh.c`. -/
def NL_NEIGH_BUF_SIZE : ℕ := 32768

/-- `NL_BUF_SIZE` of `netlink_nexthop.c`. -/
def NL_NEXTHOP_BUF_SIZE : ℕ := 32768

def EAGAIN : ℕ := 11
def NLM_F_DUMP : UInt16 := 0x300
def RTM_GETNEIGH : UInt16 := 30
def RTM_GETNEXTHOP : UInt16 := 106

variable {α : Type}

/-- The walk over the bytes that were received. -/
def processBuf (process : MessageLoop α) (buf : List UInt8) : Access (Processed α) :=
  (loop process (buf.length + 1) (.start buf)).getD (.error .diverges)

/-- What a receiving function has come to: its callbacks, the value it returned unless it is still in `recv`,
and what later calls of `recv` will come to. -/
structure Received (α : Type) where
  events : List α
  ret : Option ℤ
  recvs : List Recv
  deriving DecidableEq, Repr

section Receive

variable (size : ℕ) (process : MessageLoop α)

/-- The loop of `netlink_neigh_dump` and of `netlink_nexthop_dump`, with the size of the buffer: of a datagram
that is longer the rest is lost. -/
def dumpLoop (total : ℤ) (events : List α) : List Recv → Access (Received α)
  | [] => pure ⟨events, none, []⟩
  | .failed errno :: recvs =>
    if errno = EINTR then dumpLoop total events recvs else pure ⟨events, some (-1), recvs⟩
  | .datagram bytes :: recvs =>
    let buf := bytes.take size
    if buf = [] then pure ⟨events, some total, recvs⟩
    else do
      let r ← processBuf process buf
      if r.ret < 0 then pure ⟨events ++ r.events, some (-1), recvs⟩
      else if r.done then pure ⟨events ++ r.events, some (total + r.ret), recvs⟩
      else dumpLoop (total + r.ret) (events ++ r.events) recvs

/-- A dump: the request, if it can be sent, and the loop over the answer. -/
def netlinkDump (send : List UInt8 → Bool) (req : NlMsg) (recvs : List Recv) : Access (Received α) :=
  if send req.bytes then dumpLoop size process 0 [] recvs else pure ⟨[], some (-1), recvs⟩

/-- The loop of `netlink_run`, of `netlink_neigh_run` and of `netlink_nexthop_run`. -/
def runLoop (events : List α) : List Recv → Access (Received α)
  | [] => pure ⟨events, none, []⟩
  | .failed errno :: recvs => if errno = EINTR then runLoop events recvs else pure ⟨events, some (-1), recvs⟩
  | .datagram bytes :: recvs =>
    let buf := bytes.take size
    if buf = [] then pure ⟨events, some 0, recvs⟩
    else do
      let r ← processBuf process buf
      if r.ret < 0 then pure ⟨events ++ r.events, some (-1), recvs⟩ else runLoop (events ++ r.events) recvs

/-- The loop of `netlink_process`, which does not wait: it is not told an interruption from an error, and an
empty datagram does not end it. -/
def processLoop (total : ℤ) (events : List α) : List Recv → Access (Received α)
  | [] => pure ⟨events, none, []⟩
  | .failed errno :: recvs => pure ⟨events, some (if errno = EAGAIN then total else -1), recvs⟩
  | .datagram bytes :: recvs => do
    let r ← processBuf process (bytes.take size)
    if r.ret < 0 then pure ⟨events ++ r.events, some (-1), recvs⟩
    else processLoop (total + r.ret) (events ++ r.events) recvs

end Receive

section Functions

variable (libc : Libc) (send : List UInt8 → Bool)

def netlinkProcess : List Recv → Access (Received (NetlinkEvent × NetlinkRoute32)) :=
  processLoop NL_BUF_SIZE (nlProcessBuf libc) 0 []

def netlinkRun : List Recv → Access (Received (NetlinkEvent × NetlinkRoute32)) :=
  runLoop NL_BUF_SIZE (nlProcessBuf libc) []

/-- The request of `netlink_neigh_dump`, with an `ndmsg` of all families. -/
def neighDumpRequest : NlMsg := ⟨RTM_GETNEIGH, NLM_F_REQUEST ||| NLM_F_DUMP, 1, List.replicate 12 0⟩

def netlinkNeighDump : List Recv → Access (Received (NetlinkEvent × NetlinkNeigh)) :=
  netlinkDump NL_NEIGH_BUF_SIZE (nlNeighProcessBuf libc) send neighDumpRequest

def netlinkNeighRun : List Recv → Access (Received (NetlinkEvent × NetlinkNeigh)) :=
  runLoop NL_NEIGH_BUF_SIZE (nlNeighProcessBuf libc) []

/-- The request of `netlink_nexthop_dump`, with an `nhmsg` of all families. -/
def nexthopDumpRequest : NlMsg := ⟨RTM_GETNEXTHOP, NLM_F_REQUEST ||| NLM_F_DUMP, 1, List.replicate 8 0⟩

def netlinkNexthopDump : List Recv → Access (Received (NetlinkEvent × NetlinkNexthop)) :=
  netlinkDump NL_NEXTHOP_BUF_SIZE (nlNexthopProcessBuf libc) send nexthopDumpRequest

def netlinkNexthopRun : List Recv → Access (Received (NetlinkEvent × NetlinkNexthop)) :=
  runLoop NL_NEXTHOP_BUF_SIZE (nlNexthopProcessBuf libc) []

end Functions

/-! ### Messages with their padding -/

/-- A message as the kernel puts it into a datagram. -/
structure PaddedMsg where
  hdr : NlMsgHdr
  bytes : List UInt8
  header : nlmsghdr bytes = .ok hdr
  low : 16 ≤ hdr.nlmsg_len.toNat
  high : hdr.nlmsg_len.toNat + 3 < 2 ^ 32
  padded : bytes.length = align4 hdr.nlmsg_len.toNat

def wire (msgs : List PaddedMsg) : List UInt8 := msgs.flatMap PaddedMsg.bytes

theorem nlmsghdr_append {nlh : List UInt8} {hdr : NlMsgHdr} (h : nlmsghdr nlh = .ok hdr) (rest : List UInt8) :
    nlmsghdr (nlh ++ rest) = .ok hdr := by
  match nlh with
  | l0 :: l1 :: l2 :: l3 :: t0 :: t1 :: f0 :: f1 :: tail =>
    rw [nlmsghdr] at h
    split_ifs at h with hlen
    rw [← h]
    exact if_pos (Nat.le_trans hlen (tail.length_append ▸ Nat.le_add_right _ _))
  | [] | [_] | [_, _] | [_, _, _] | [_, _, _, _] | [_, _, _, _, _] | [_, _, _, _, _, _]
  | [_, _, _, _, _, _, _] => cases h

namespace PaddedMsg

variable (m : PaddedMsg) (rest : List UInt8)

theorem length_le : m.hdr.nlmsg_len.toNat ≤ m.bytes.length := by
  rw [m.padded]
  exact length_le_align4 _

theorem length_pos : 0 < m.bytes.length := Nat.lt_of_lt_of_le (by decide) (m.low.trans m.length_le)

/-- `NLMSG_OK` finds the message in front, whatever is behind what was received. -/
theorem nlmsgOk_le {n : ℤ} (hle : m.bytes.length ≤ n) (hn : n < 2 ^ 32) :
    Client.nlmsgOk (m.bytes ++ rest) n = .ok (some m.hdr) := by
  have hlen := m.length_le
  have hlow := m.low
  unfold Client.nlmsgOk
  dsimp only
  rw [if_neg (by omega), nlmsghdr_append m.header, ok_bind, if_pos (by omega)]
  rfl

theorem nlmsgOk (hfits : (m.bytes ++ rest).length < 2 ^ 32) :
    nlmsgOk (m.bytes ++ rest) (m.bytes ++ rest).length = .ok (some m.hdr) := by
  rw [List.length_append] at hfits ⊢
  exact m.nlmsgOk_le rest (by omega) (by omega)

/-- `NLMSG_NEXT` comes to what is behind it. -/
theorem drop_next : (m.bytes ++ rest).drop (nlmsgAlign m.hdr.nlmsg_len).toNat = rest := by
  rw [nlmsgAlign_toNat m.high, ← m.padded]
  exact List.drop_left

end PaddedMsg

/-! ### Messages that are built -/

theorem NlMsg.hdr_len {nlh : NlMsg} (h : nlh.nlmsg_len + 3 < 2 ^ 32) :
    nlh.hdr.nlmsg_len.toNat = nlh.nlmsg_len :=
  UInt32.toNat_ofNat_of_lt' (show _ < 2 ^ 32 by omega)

/-- A message with its padding. -/
def NlMsg.toPadded (nlh : NlMsg) (h : nlh.nlmsg_len + 3 < 2 ^ 32) : PaddedMsg where
  hdr := nlh.hdr
  bytes := nlh.bytes ++ List.replicate (align4 nlh.nlmsg_len - nlh.nlmsg_len) 0
  header := nlmsghdr_append (nlmsghdr_bytes nlh) _
  low := by
    rw [NlMsg.hdr_len h]
    exact Nat.le_add_right 16 _
  high := by
    rw [NlMsg.hdr_len h]
    exact h
  padded := by
    have hle := length_le_align4 nlh.nlmsg_len
    rw [NlMsg.hdr_len h, List.length_append, nlh.bytes_length, List.length_replicate]
    omega

/-! ### The walk over whole messages -/

section Walk

variable (new del : UInt16) (dispatch : NlMsgHdr → List UInt8 → Access (Option α))

/-- The message is of the types of the walk. -/
def PaddedMsg.Mine (m : PaddedMsg) : Prop := m.hdr.nlmsg_type = new ∨ m.hdr.nlmsg_type = del

instance (m : PaddedMsg) : Decidable (m.Mine new del) := inferInstanceAs (Decidable (_ ∨ _))

/-- The callback of a message, whatever is behind it in its datagram. -/
def PaddedMsg.events (m : PaddedMsg) : List α :=
  if m.Mine new del then (dispatch m.hdr m.bytes).toOption.join.toList else []

/-- The dispatcher reads the message, and nothing behind it. -/
def PaddedMsg.Reads (m : PaddedMsg) : Prop :=
  m.Mine new del → ∃ event, ∀ rest, dispatch m.hdr (m.bytes ++ rest) = .ok event

/-- The walk goes on behind the message. -/
def PaddedMsg.Plain (m : PaddedMsg) : Prop :=
  m.hdr.nlmsg_type ≠ NLMSG_DONE ∧ m.hdr.nlmsg_type ≠ NLMSG_ERROR

instance (m : PaddedMsg) : Decidable m.Plain := inferInstanceAs (Decidable (_ ∧ _))

/-- The messages in front of the first that ends the walk. -/
def front (msgs : List PaddedMsg) : List PaddedMsg := msgs.takeWhile fun m => m.Plain

theorem front_cons {m : PaddedMsg} {msgs : List PaddedMsg} :
    front (m :: msgs) = if m.Plain then m :: front msgs else [] := by
  rw [front, List.takeWhile_cons]
  simp only [decide_eq_true_eq]
  rfl

theorem mem_of_mem_front {m : PaddedMsg} {msgs : List PaddedMsg} (h : m ∈ front msgs) : m ∈ msgs :=
  (List.takeWhile_sublist _).subset h

theorem front_append {msgs : List PaddedMsg} (h : ∀ m ∈ msgs, m.Plain) (more : List PaddedMsg) :
    front (msgs ++ more) = msgs ++ front more :=
  List.takeWhile_append_of_pos fun m hm => decide_eq_true (h m hm)

/-- What a walk comes to that has made some callbacks before it comes to the messages. -/
def walked (events : List α) (count : ℤ) : List PaddedMsg → Processed α
  | [] => ⟨events, count, false⟩
  | m :: msgs =>
    if m.hdr.nlmsg_type = NLMSG_DONE then ⟨events, count, true⟩
    else if m.hdr.nlmsg_type = NLMSG_ERROR then ⟨events, -1, false⟩
    else if m.Mine new del then walked (events ++ m.events new del dispatch) (count + 1) msgs
    else walked events count msgs

/-- The messages that are counted. -/
def countMine (msgs : List PaddedMsg) : ℤ := msgs.countP fun m => m.Mine new del

variable {new del dispatch}

/-- A round over the message in front. -/
theorem processStep_padded {m : PaddedMsg} (hreads : m.Plain → m.Reads new del dispatch) {rest : List UInt8}
    (hfits : (m.bytes ++ rest).length < 2 ^ 32) (events : List α) (count : ℤ) :
    processStep new del dispatch ⟨m.bytes ++ rest, (m.bytes ++ rest).length, events, count⟩ =
      if m.hdr.nlmsg_type = NLMSG_DONE then .ok (.done ⟨events, count, true⟩)
      else if m.hdr.nlmsg_type = NLMSG_ERROR then .ok (.done ⟨events, -1, false⟩)
      else if m.Mine new del then
        .ok (.again ⟨rest, rest.length, events ++ m.events new del dispatch, count + 1⟩)
      else .ok (.again ⟨rest, rest.length, events, count⟩) := by
  have hdrop := m.drop_next rest
  have hn : ((m.bytes ++ rest).length : ℤ) - (nlmsgAlign m.hdr.nlmsg_len).toNat = rest.length := by
    rw [nlmsgAlign_toNat m.high, ← m.padded, List.length_append]
    omega
  rw [processStep, m.nlmsgOk rest hfits, ok_bind]
  dsimp only
  rw [hdrop, hn]
  by_cases hdone : m.hdr.nlmsg_type = NLMSG_DONE
  · rw [if_pos hdone, if_pos hdone]
    rfl
  rw [if_neg hdone, if_neg hdone]
  by_cases herror : m.hdr.nlmsg_type = NLMSG_ERROR
  · rw [if_pos herror, if_pos herror]
    rfl
  rw [if_neg herror, if_neg herror]
  by_cases hmine : m.Mine new del
  · obtain ⟨event, hevent⟩ := hreads ⟨hdone, herror⟩ hmine
    have hself := hevent []
    rw [List.append_nil] at hself
    rw [if_pos hmine, PaddedMsg.events, if_pos hmine, hself]
    show (if m.Mine new del then _ else _) = _
    rw [if_pos hmine, hevent rest]
    rfl
  · rw [if_neg hmine]
    exact if_neg hmine

/-- The walk needs to read the messages in front of the first that ends it. -/
theorem loop_walked {msgs : List PaddedMsg} :
    ∀ {events : List α} {count : ℤ} {fuel : ℕ},
      (∀ m ∈ front msgs, m.Reads new del dispatch) → (wire msgs).length < 2 ^ 32 →
      (wire msgs).length < fuel →
        loop (processStep new del dispatch) fuel ⟨wire msgs, (wire msgs).length, events, count⟩ =
          some (.ok (walked new del dispatch events count msgs)) := by
  induction msgs with
  | nil =>
    rintro events count (_ | fuel) - - hfuel
    · exact absurd hfuel (Nat.not_lt_zero _)
    · rfl
  | cons m msgs ih =>
    rintro events count (_ | fuel) hreads hfits hfuel
    · exact absurd hfuel (Nat.not_lt_zero _)
    have hmsgs : m.Plain → m.Reads new del dispatch ∧ ∀ m ∈ front msgs, m.Reads new del dispatch := by
      intro hplain
      rw [front_cons, if_pos hplain] at hreads
      exact List.forall_mem_cons.mp hreads
    have hwire : wire (m :: msgs) = m.bytes ++ wire msgs := List.flatMap_cons
    have hpos := m.length_pos
    rw [hwire] at hfits hfuel ⊢
    have hlen : (m.bytes ++ wire msgs).length = m.bytes.length + (wire msgs).length := List.length_append
    rw [loop, processStep_padded (fun hplain => (hmsgs hplain).1) hfits, walked]
    split_ifs with hdone herror hmine
    · rfl
    · rfl
    · exact ih (hmsgs ⟨hdone, herror⟩).2 (by omega) (by omega)
    · exact ih (hmsgs ⟨hdone, herror⟩).2 (by omega) (by omega)

variable (new del dispatch)

/-- Over messages that go on the walk makes their callbacks. -/
theorem walked_plain {msgs : List PaddedMsg} (hplain : ∀ m ∈ msgs, m.Plain) (more : List PaddedMsg) :
    ∀ (events : List α) (count : ℤ), walked new del dispatch events count (msgs ++ more) =
      walked new del dispatch (events ++ msgs.flatMap (PaddedMsg.events new del dispatch))
        (count + countMine new del msgs) more := by
  induction msgs with
  | nil => intro events count; simp [countMine]
  | cons m msgs ih =>
    intro events count
    obtain ⟨hm, hmsgs⟩ := List.forall_mem_cons.mp hplain
    have hcount : countMine new del (m :: msgs) =
        (if m.Mine new del then 1 else 0) + countMine new del msgs := by
      simp only [countMine, List.countP_cons, decide_eq_true_eq]
      split_ifs <;> omega
    rw [List.cons_append, walked, if_neg hm.1, if_neg hm.2, List.flatMap_cons, hcount]
    split_ifs with hmine
    · rw [ih hmsgs, List.append_assoc, add_assoc]
    · rw [ih hmsgs, PaddedMsg.events, if_neg hmine, List.nil_append, zero_add]

end Walk

/-! ### What a dispatcher reads -/

section Mono

variable {nlh : List UInt8} {hdr : NlMsgHdr} {i : ℕ}

theorem byteAt_append {b : UInt8} (h : byteAt nlh i = .ok b) (rest : List UInt8) :
    byteAt (nlh ++ rest) i = .ok b := by
  cases hget : nlh[i]? with
  | none => rw [byteAt, hget] at h; cases h
  | some b' =>
    obtain ⟨hi, -⟩ := List.getElem?_eq_some_iff.mp hget
    rw [byteAt, List.getElem?_append_left hi]
    exact h

theorem u16At_append {v : UInt16} (h : u16At nlh i = .ok v) (rest : List UInt8) :
    u16At (nlh ++ rest) i = .ok v := by
  obtain ⟨b0, h0, h⟩ := except_bind_ok.mp h
  obtain ⟨b1, h1, h⟩ := except_bind_ok.mp h
  rw [u16At, byteAt_append h0, ok_bind, byteAt_append h1, ok_bind]
  exact h

theorem u32At_append {v : UInt32} (h : u32At nlh i = .ok v) (rest : List UInt8) :
    u32At (nlh ++ rest) i = .ok v := by
  obtain ⟨b0, h0, h⟩ := except_bind_ok.mp h
  obtain ⟨b1, h1, h⟩ := except_bind_ok.mp h
  obtain ⟨b2, h2, h⟩ := except_bind_ok.mp h
  obtain ⟨b3, h3, h⟩ := except_bind_ok.mp h
  rw [u32At, byteAt_append h0, ok_bind, byteAt_append h1, ok_bind, byteAt_append h2, ok_bind,
    byteAt_append h3, ok_bind]
  exact h

theorem attrBytes_append (hlen : hdr.nlmsg_len.toNat ≤ nlh.length) (rest : List UInt8) (start : ℕ) :
    attrBytes hdr (nlh ++ rest) start = attrBytes hdr nlh start := by
  rw [attrBytes, List.take_append_of_le_length hlen, attrBytes]

variable {libc : Libc} (hlen : hdr.nlmsg_len.toNat ≤ nlh.length)

include hlen in
theorem nlNeighDispatch_append {event : Option (NetlinkEvent × NetlinkNeigh)}
    (h : nlNeighDispatch libc hdr nlh = .ok event) (rest : List UInt8) :
    nlNeighDispatch libc hdr (nlh ++ rest) = .ok event := by
  unfold nlNeighDispatch at h ⊢
  split_ifs at h ⊢
  · exact h
  cases hevent : hdr.event RTM_NEWNEIGH RTM_DELNEIGH with
  | none => rw [hevent] at h; exact h
  | some ev =>
    rw [hevent] at h
    dsimp only at h ⊢
    obtain ⟨family, hfamily, h⟩ := except_bind_ok.mp h
    obtain ⟨ifindex, hifindex, h⟩ := except_bind_ok.mp h
    obtain ⟨state, hstate, h⟩ := except_bind_ok.mp h
    obtain ⟨flags, hflags, h⟩ := except_bind_ok.mp h
    obtain ⟨type, htype, h⟩ := except_bind_ok.mp h
    rw [byteAt_append hfamily, ok_bind, u32At_append hifindex, ok_bind, u16At_append hstate, ok_bind,
      byteAt_append hflags, ok_bind, byteAt_append htype, ok_bind, attrBytes_append hlen]
    exact h

include hlen in
theorem nlNexthopDispatch_append {event : Option (NetlinkEvent × NetlinkNexthop)}
    (h : nlNexthopDispatch libc hdr nlh = .ok event) (rest : List UInt8) :
    nlNexthopDispatch libc hdr (nlh ++ rest) = .ok event := by
  unfold nlNexthopDispatch at h ⊢
  split_ifs at h ⊢
  · exact h
  cases hevent : hdr.event RTM_NEWNEXTHOP RTM_DELNEXTHOP with
  | none => rw [hevent] at h; exact h
  | some ev =>
    rw [hevent] at h
    dsimp only at h ⊢
    obtain ⟨family, hfamily, h⟩ := except_bind_ok.mp h
    obtain ⟨scope, hscope, h⟩ := except_bind_ok.mp h
    obtain ⟨protocol, hprotocol, h⟩ := except_bind_ok.mp h
    obtain ⟨flags, hflags, h⟩ := except_bind_ok.mp h
    rw [byteAt_append hfamily, ok_bind, byteAt_append hscope, ok_bind, byteAt_append hprotocol, ok_bind,
      u32At_append hflags, ok_bind, attrBytes_append hlen]
    exact h

include hlen in
theorem nlLogOspf_append {printed : Option (String × List OspfLine)}
    (h : nlLogOspf libc hdr nlh = .ok printed) (rest : List UInt8) :
    nlLogOspf libc hdr (nlh ++ rest) = .ok printed := by
  unfold nlLogOspf at h ⊢
  obtain ⟨protocol, hprotocol, h⟩ := except_bind_ok.mp h
  rw [byteAt_append hprotocol, ok_bind]
  by_cases hospf : protocol ≠ RTPROT_OSPF
  · rw [if_pos hospf] at h ⊢
    exact h
  rw [if_neg hospf] at h ⊢
  dsimp only at h ⊢
  obtain ⟨type, htype, h⟩ := except_bind_ok.mp h
  obtain ⟨family, hfamily, h⟩ := except_bind_ok.mp h
  obtain ⟨dst_len, hdst_len, h⟩ := except_bind_ok.mp h
  obtain ⟨src_len, hsrc_len, h⟩ := except_bind_ok.mp h
  obtain ⟨tos, htos, h⟩ := except_bind_ok.mp h
  obtain ⟨table, htable, h⟩ := except_bind_ok.mp h
  obtain ⟨scope, hscope, h⟩ := except_bind_ok.mp h
  obtain ⟨flags, hflags, h⟩ := except_bind_ok.mp h
  rw [byteAt_append htype, ok_bind, byteAt_append hfamily, ok_bind, byteAt_append hdst_len, ok_bind,
    byteAt_append hsrc_len, ok_bind, byteAt_append htos, ok_bind, byteAt_append htable, ok_bind,
    byteAt_append hscope, ok_bind, u32At_append hflags, ok_bind, attrBytes_append hlen]
  exact h

include hlen in
theorem nlDispatch_append {event : Option (NetlinkEvent × NetlinkRoute32)}
    (h : nlDispatch libc hdr nlh = .ok event) (rest : List UInt8) :
    nlDispatch libc hdr (nlh ++ rest) = .ok event := by
  unfold nlDispatch at h ⊢
  obtain ⟨family, hfamily, h⟩ := except_bind_ok.mp h
  rw [byteAt_append hfamily, ok_bind]
  split_ifs at h ⊢
  · exact h
  obtain ⟨printed, hprinted, h⟩ := except_bind_ok.mp h
  obtain ⟨dst_len, hdst_len, h⟩ := except_bind_ok.mp h
  rw [nlLogOspf_append hlen hprinted, ok_bind, byteAt_append hdst_len, ok_bind]
  split_ifs at h ⊢
  · exact h
  obtain ⟨type, htype, h⟩ := except_bind_ok.mp h
  rw [byteAt_append htype, ok_bind]
  split_ifs at h ⊢
  · exact h
  cases hevent : hdr.event RTM_NEWROUTE RTM_DELROUTE with
  | none => rw [hevent] at h; exact h
  | some ev =>
    rw [hevent] at h
    dsimp only at h ⊢
    obtain ⟨tos, htos, h⟩ := except_bind_ok.mp h
    obtain ⟨table, htable, h⟩ := except_bind_ok.mp h
    obtain ⟨protocol, hprotocol, h⟩ := except_bind_ok.mp h
    obtain ⟨scope, hscope, h⟩ := except_bind_ok.mp h
    obtain ⟨flags, hflags, h⟩ := except_bind_ok.mp h
    rw [byteAt_append htos, ok_bind, byteAt_append htable, ok_bind, byteAt_append hprotocol, ok_bind,
      byteAt_append hscope, ok_bind, u32At_append hflags, ok_bind, attrBytes_append hlen]
    exact h

end Mono

section Reads

variable (libc : Libc) {m : PaddedMsg}

theorem neigh_reads (h : m.Mine RTM_NEWNEIGH RTM_DELNEIGH → AttrsReadable 28 m.hdr m.bytes) :
    m.Reads RTM_NEWNEIGH RTM_DELNEIGH (nlNeighDispatch libc) := by
  intro hmine
  obtain ⟨event, hevent⟩ := (nlNeighDispatch_iff m.length_le hmine).mpr (h hmine)
  exact ⟨event, nlNeighDispatch_append m.length_le hevent⟩

theorem nexthop_reads (h : m.Mine RTM_NEWNEXTHOP RTM_DELNEXTHOP → AttrsReadable 24 m.hdr m.bytes) :
    m.Reads RTM_NEWNEXTHOP RTM_DELNEXTHOP (nlNexthopDispatch libc) := by
  intro hmine
  obtain ⟨event, hevent⟩ := (nlNexthopDispatch_iff m.length_le hmine).mpr (h hmine)
  exact ⟨event, nlNexthopDispatch_append m.length_le hevent⟩

theorem route_reads (h : m.Mine RTM_NEWROUTE RTM_DELROUTE → RouteReadable m.hdr m.bytes) :
    m.Reads RTM_NEWROUTE RTM_DELROUTE (nlDispatch libc) := by
  intro hmine
  obtain ⟨event, hevent⟩ := (nlDispatch_iff m.length_le m.low hmine).mpr (h hmine)
  exact ⟨event, nlDispatch_append m.length_le hevent⟩

end Reads

/-! ### Datagrams -/

/-- A datagram of whole messages that a buffer of this size has room for. -/
structure Datagram (size : ℕ) where
  msgs : List PaddedMsg
  nonempty : msgs ≠ []
  fits : (wire msgs).length ≤ size

variable {size : ℕ}

def Datagram.recv (d : Datagram size) : Recv := .datagram (wire d.msgs)

/-- What a socket gives to a call of `recv` that comes to an end. -/
inductive Arrival (size : ℕ) where
  | interrupted
  | datagram (d : Datagram size)

def Arrival.recv : Arrival size → Recv
  | interrupted => .failed EINTR
  | datagram d => d.recv

def Arrival.msgs : Arrival size → List PaddedMsg
  | interrupted => []
  | datagram d => d.msgs

/-- The messages, in the order in which they come. -/
def arrived (as : List (Arrival size)) : List PaddedMsg := as.flatMap Arrival.msgs

namespace Datagram

variable (d : Datagram size)

theorem take_wire : (wire d.msgs).take size = wire d.msgs := List.take_of_length_le d.fits

theorem wire_ne_nil : wire d.msgs ≠ [] := by
  obtain ⟨m, msgs, hmsgs⟩ := List.exists_cons_of_ne_nil d.nonempty
  have hpos := m.length_pos
  rw [hmsgs, wire, List.flatMap_cons]
  intro hnil
  rw [(List.append_eq_nil_iff.mp hnil).1] at hpos
  exact absurd hpos (Nat.lt_irrefl 0)

variable {new del : UInt16} {dispatch : NlMsgHdr → List UInt8 → Access (Option α)}

theorem processBuf (hsize : size < 2 ^ 32) (hreads : ∀ m ∈ front d.msgs, m.Reads new del dispatch) :
    processBuf (processStep new del dispatch) (wire d.msgs) = .ok (walked new del dispatch [] 0 d.msgs) := by
  have hfits : (wire d.msgs).length < 2 ^ 32 := Nat.lt_of_le_of_lt d.fits hsize
  rw [Client.processBuf, MessageWalk.start, loop_walked hreads hfits (Nat.lt_succ_self _)]
  rfl

end Datagram

section Loops

variable (new del : UInt16) (dispatch : NlMsgHdr → List UInt8 → Access (Option α))

/-- The callbacks of messages. -/
def callbacks (msgs : List PaddedMsg) : List α := msgs.flatMap (PaddedMsg.events new del dispatch)

variable {new del dispatch}

theorem arrived_cons (a : Arrival size) (as : List (Arrival size)) : arrived (a :: as) = a.msgs ++ arrived as :=
  List.flatMap_cons

theorem callbacks_append (msgs more : List PaddedMsg) : callbacks new del dispatch (msgs ++ more) =
    callbacks new del dispatch msgs ++ callbacks new del dispatch more := List.flatMap_append

theorem countMine_append (msgs more : List PaddedMsg) :
    countMine new del (msgs ++ more) = countMine new del msgs + countMine new del more := by
  simp [countMine]

theorem countMine_nonneg (msgs : List PaddedMsg) : 0 ≤ countMine new del msgs := Int.natCast_nonneg _

variable (hsize : size < 2 ^ 32)

include hsize

/-- A datagram of messages that go on. -/
theorem Datagram.processBuf_plain (d : Datagram size) (hreads : ∀ m ∈ d.msgs, m.Reads new del dispatch)
    (hplain : ∀ m ∈ d.msgs, m.Plain) : Client.processBuf (processStep new del dispatch) (wire d.msgs) =
      .ok ⟨callbacks new del dispatch d.msgs, countMine new del d.msgs, false⟩ := by
  have hwalked := walked_plain new del dispatch hplain [] [] 0
  rw [List.append_nil, zero_add] at hwalked
  rw [d.processBuf hsize fun m hm => hreads m (mem_of_mem_front hm), hwalked]
  rfl

/-- The dump goes on behind what has arrived. -/
theorem dumpLoop_arrived {as : List (Arrival size)} (hreads : ∀ m ∈ arrived as, m.Reads new del dispatch)
    (hplain : ∀ m ∈ arrived as, m.Plain) (recvs : List Recv) :
    ∀ (total : ℤ) (events : List α),
      dumpLoop size (processStep new del dispatch) total events (as.map Arrival.recv ++ recvs) =
        dumpLoop size (processStep new del dispatch) (total + countMine new del (arrived as))
          (events ++ callbacks new del dispatch (arrived as)) recvs := by
  induction as with
  | nil => intro total events; simp [arrived, countMine, callbacks]
  | cons a as ih =>
    intro total events
    rw [arrived_cons] at hreads hplain ⊢
    obtain ⟨hread, hreadAs⟩ := List.forall_mem_append.mp hreads
    obtain ⟨hgo, hgoAs⟩ := List.forall_mem_append.mp hplain
    cases a with
    | interrupted => exact ih hreadAs hgoAs total events
    | datagram d =>
      show dumpLoop size _ total events (.datagram (wire d.msgs) :: (as.map Arrival.recv ++ recvs)) = _
      rw [dumpLoop, d.take_wire, if_neg d.wire_ne_nil, d.processBuf_plain hsize hread hgo, ok_bind]
      dsimp only
      rw [if_neg (Int.not_lt.mpr (countMine_nonneg _)), ih hreadAs hgoAs]
      simp [callbacks_append, countMine_append, Arrival.msgs, add_assoc]

theorem runLoop_arrived {as : List (Arrival size)} (hreads : ∀ m ∈ arrived as, m.Reads new del dispatch)
    (hplain : ∀ m ∈ arrived as, m.Plain) (recvs : List Recv) :
    ∀ events : List α, runLoop size (processStep new del dispatch) events (as.map Arrival.recv ++ recvs) =
      runLoop size (processStep new del dispatch) (events ++ callbacks new del dispatch (arrived as)) recvs := by
  induction as with
  | nil => intro events; simp [arrived, callbacks]
  | cons a as ih =>
    intro events
    rw [arrived_cons] at hreads hplain ⊢
    obtain ⟨hread, hreadAs⟩ := List.forall_mem_append.mp hreads
    obtain ⟨hgo, hgoAs⟩ := List.forall_mem_append.mp hplain
    cases a with
    | interrupted => exact ih hreadAs hgoAs events
    | datagram d =>
      show runLoop size _ events (.datagram (wire d.msgs) :: (as.map Arrival.recv ++ recvs)) = _
      rw [runLoop, d.take_wire, if_neg d.wire_ne_nil, d.processBuf_plain hsize hread hgo, ok_bind]
      dsimp only
      rw [if_neg (Int.not_lt.mpr (countMine_nonneg _)), ih hreadAs hgoAs]
      simp [callbacks_append, Arrival.msgs]

theorem processLoop_arrived {ds : List (Datagram size)} (hreads : ∀ d ∈ ds, ∀ m ∈ d.msgs, m.Reads new del dispatch)
    (hplain : ∀ d ∈ ds, ∀ m ∈ d.msgs, m.Plain) (recvs : List Recv) :
    ∀ (total : ℤ) (events : List α),
      processLoop size (processStep new del dispatch) total events (ds.map Datagram.recv ++ recvs) =
        processLoop size (processStep new del dispatch) (total + countMine new del (ds.flatMap Datagram.msgs))
          (events ++ callbacks new del dispatch (ds.flatMap Datagram.msgs)) recvs := by
  induction ds with
  | nil => intro total events; simp [countMine, callbacks]
  | cons d ds ih =>
    intro total events
    obtain ⟨hread, hreads⟩ := List.forall_mem_cons.mp hreads
    obtain ⟨hgo, hplain⟩ := List.forall_mem_cons.mp hplain
    show processLoop size _ total events (.datagram (wire d.msgs) :: (ds.map Datagram.recv ++ recvs)) = _
    rw [processLoop, d.take_wire, d.processBuf_plain hsize hread hgo, ok_bind, List.flatMap_cons]
    dsimp only
    rw [if_neg (Int.not_lt.mpr (countMine_nonneg _)), ih hreads hplain]
    simp [callbacks_append, countMine_append, add_assoc]

/-- A waiting `run` has made the callbacks of all messages. -/
theorem runLoop_waits {as : List (Arrival size)} (hreads : ∀ m ∈ arrived as, m.Reads new del dispatch)
    (hplain : ∀ m ∈ arrived as, m.Plain) :
    runLoop size (processStep new del dispatch) [] (as.map Arrival.recv) =
      .ok ⟨callbacks new del dispatch (arrived as), none, []⟩ := by
  have hrun := runLoop_arrived hsize hreads hplain [] []
  rw [List.append_nil] at hrun
  exact hrun

/-- A dump whose mark comes behind `pre` in its datagram returns the count, and leaves the rest. -/
theorem dumpLoop_done {as : List (Arrival size)} {last : Datagram size} {pre lost : List PaddedMsg} {mark : PaddedMsg}
    (hlast : last.msgs = pre ++ mark :: lost) (hmark : mark.hdr.nlmsg_type = NLMSG_DONE)
    (hreads : ∀ m ∈ arrived as ++ pre, m.Reads new del dispatch) (hplain : ∀ m ∈ arrived as ++ pre, m.Plain)
    (recvs : List Recv) :
    dumpLoop size (processStep new del dispatch) 0 [] (as.map Arrival.recv ++ last.recv :: recvs) =
      .ok ⟨callbacks new del dispatch (arrived as ++ pre), some (countMine new del (arrived as ++ pre)),
        recvs⟩ := by
  obtain ⟨hread, hreadPre⟩ := List.forall_mem_append.mp hreads
  obtain ⟨hgo, hgoPre⟩ := List.forall_mem_append.mp hplain
  have hfront : front last.msgs = pre := by
    rw [hlast, front_append hgoPre, front_cons, if_neg fun hplain => hplain.1 hmark, List.append_nil]
  have hbuf : Client.processBuf (processStep new del dispatch) (wire last.msgs) =
      .ok ⟨callbacks new del dispatch pre, countMine new del pre, true⟩ := by
    rw [last.processBuf hsize (hfront.symm ▸ hreadPre), hlast, walked_plain new del dispatch hgoPre, walked,
      if_pos hmark, List.nil_append, zero_add]
    rfl
  rw [dumpLoop_arrived hsize hread hgo, Datagram.recv, dumpLoop, last.take_wire, if_neg last.wire_ne_nil, hbuf,
    ok_bind]
  dsimp only
  rw [if_neg (Int.not_lt.mpr (countMine_nonneg _)), if_pos rfl, callbacks_append, countMine_append,
    List.nil_append, zero_add]
  rfl

end Loops

/-- What a socket gives that has been asked for a dump: messages up to an `NLMSG_DONE`, those behind it in its
datagram, and what comes later. -/
structure DumpAnswer (size : ℕ) where
  before : List (Arrival size)
  last : Datagram size
  pre : List PaddedMsg
  mark : PaddedMsg
  lost : List PaddedMsg
  after : List (Arrival size)
  split : last.msgs = pre ++ mark :: lost
  done : mark.hdr.nlmsg_type = NLMSG_DONE
  plain : ∀ m ∈ arrived before ++ pre ++ arrived after, m.Plain

namespace DumpAnswer

variable (a : DumpAnswer size)

/-- The messages that the dump comes to. -/
def dumped : List PaddedMsg := arrived a.before ++ a.pre

/-- The messages behind the datagram of the mark. -/
def later : List PaddedMsg := arrived a.after

def rest : List Recv := a.after.map Arrival.recv
def recvs : List Recv := a.before.map Arrival.recv ++ a.last.recv :: a.rest

variable {new del : UInt16} {dispatch : NlMsgHdr → List UInt8 → Access (Option α)}

theorem dump_run (hsize : size < 2 ^ 32) (hreads : ∀ m ∈ a.dumped ++ a.later, m.Reads new del dispatch)
    {send : List UInt8 → Bool} {req : NlMsg} (hsend : send req.bytes = true) :
    netlinkDump size (processStep new del dispatch) send req a.recvs =
        .ok ⟨callbacks new del dispatch a.dumped, some (countMine new del a.dumped), a.rest⟩ ∧
      runLoop size (processStep new del dispatch) [] a.rest =
        .ok ⟨callbacks new del dispatch a.later, none, []⟩ := by
  obtain ⟨hread, hreadLater⟩ := List.forall_mem_append.mp hreads
  obtain ⟨hgo, hgoLater⟩ := List.forall_mem_append.mp a.plain
  refine ⟨?_, runLoop_waits hsize hreadLater hgoLater⟩
  rw [netlinkDump, if_pos hsend]
  exact dumpLoop_done hsize a.split a.done hread hgo a.rest

end DumpAnswer

section Callbacks

variable (libc : Libc)

abbrev neighCallbacks (msgs : List PaddedMsg) : List (NetlinkEvent × NetlinkNeigh) :=
  callbacks RTM_NEWNEIGH RTM_DELNEIGH (nlNeighDispatch libc) msgs

abbrev nexthopCallbacks (msgs : List PaddedMsg) : List (NetlinkEvent × NetlinkNexthop) :=
  callbacks RTM_NEWNEXTHOP RTM_DELNEXTHOP (nlNexthopDispatch libc) msgs

abbrev routeCallbacks (msgs : List PaddedMsg) : List (NetlinkEvent × NetlinkRoute32) :=
  callbacks RTM_NEWROUTE RTM_DELROUTE (nlDispatch libc) msgs

end Callbacks

/-- **A dump and the live loop behind it make the callbacks of the messages in their order**, however these
are packed into datagrams that the buffer has room for and whichever calls of `recv` are interrupted; only what
is behind the mark in its own datagram has none. -/
theorem dump_run_callbacks (libc : Libc) (send : List UInt8 → Bool) :
    (∀ a : DumpAnswer NL_NEIGH_BUF_SIZE, send neighDumpRequest.bytes = true →
      (∀ m ∈ a.dumped ++ a.later, m.Mine RTM_NEWNEIGH RTM_DELNEIGH → AttrsReadable 28 m.hdr m.bytes) →
        netlinkNeighDump libc send a.recvs =
            .ok ⟨neighCallbacks libc a.dumped, some (countMine RTM_NEWNEIGH RTM_DELNEIGH a.dumped), a.rest⟩ ∧
          netlinkNeighRun libc a.rest = .ok ⟨neighCallbacks libc a.later, none, []⟩) ∧
    (∀ a : DumpAnswer NL_NEXTHOP_BUF_SIZE, send nexthopDumpRequest.bytes = true →
      (∀ m ∈ a.dumped ++ a.later, m.Mine RTM_NEWNEXTHOP RTM_DELNEXTHOP → AttrsReadable 24 m.hdr m.bytes) →
        netlinkNexthopDump libc send a.recvs =
            .ok ⟨nexthopCallbacks libc a.dumped,
              some (countMine RTM_NEWNEXTHOP RTM_DELNEXTHOP a.dumped), a.rest⟩ ∧
          netlinkNexthopRun libc a.rest = .ok ⟨nexthopCallbacks libc a.later, none, []⟩) :=
  ⟨fun a hsend h => a.dump_run (by decide) (fun m hm => neigh_reads libc (h m hm)) hsend,
    fun a hsend h => a.dump_run (by decide) (fun m hm => nexthop_reads libc (h m hm)) hsend⟩

/-- A neighbor, a nexthop and a host route, each in a message, and the end of a dump. -/
def neighMsg : NlMsg :=
  ⟨RTM_NEWNEIGH, 0, 0, [2, 0, 0, 0, 2, 0, 0, 0, 2, 0, 0, 1] ++ [8, 0, 1, 0, 10, 0, 0, 1]⟩
def nexthopMsg : NlMsg :=
  ⟨RTM_NEWNEXTHOP, 0, 0, [2, 0, 0, 0, 0, 0, 0, 0] ++ [8, 0, 1, 0, 7, 0, 0, 0]⟩
def routeMsg : NlMsg :=
  ⟨RTM_NEWROUTE, 0, 0, [2, 32, 0, 0, 254, 3, 0, 1, 0, 0, 0, 0] ++ [8, 0, 1, 0, 10, 0, 0, 1]⟩
def doneMsg : NlMsg := ⟨NLMSG_DONE, NLM_F_MULTI, 1, [0, 0, 0, 0]⟩

def neighPadded : PaddedMsg := neighMsg.toPadded (by decide)
def nexthopPadded : PaddedMsg := nexthopMsg.toPadded (by decide)
def routePadded : PaddedMsg := routeMsg.toPadded (by decide)
def donePadded : PaddedMsg := doneMsg.toPadded (by decide)

theorem donePadded_done : donePadded.hdr.nlmsg_type = NLMSG_DONE := rfl

def threeMsgs : List PaddedMsg := [neighPadded, nexthopPadded, routePadded]

theorem threeMsgs_plain : ∀ m ∈ threeMsgs, m.Plain := by decide

section Sample

variable (hsize : 128 ≤ size)

include hsize in
theorem threeMsgs_fits : (wire threeMsgs).length ≤ size := Nat.le_trans (by decide) hsize

/-- The three objects in one datagram. -/
def threeObjects : Datagram size := ⟨threeMsgs, List.cons_ne_nil _ _, threeMsgs_fits hsize⟩

include hsize in
theorem lastMsgs_fits : (wire [routePadded, donePadded, neighPadded]).length ≤ size :=
  Nat.le_trans (by decide) hsize

theorem arrived_threeObjects : arrived [.interrupted, .datagram (threeObjects hsize)] = threeMsgs ∧
    arrived [.datagram (threeObjects hsize), .interrupted] = threeMsgs := by
  simp [arrived, Arrival.msgs, threeObjects]

theorem threeDumped_plain : ∀ m ∈ arrived [.interrupted, .datagram (threeObjects hsize)] ++ [routePadded] ++
    arrived [.datagram (threeObjects hsize), .interrupted], m.Plain := by
  rw [(arrived_threeObjects hsize).1, (arrived_threeObjects hsize).2]
  decide

/-- The objects are dumped, and each is replaced once; one that is replaced in the datagram of the mark is
lost. -/
def threeDumped : DumpAnswer size where
  before := [.interrupted, .datagram (threeObjects hsize)]
  last := ⟨[routePadded, donePadded, neighPadded], List.cons_ne_nil _ _, lastMsgs_fits hsize⟩
  pre := [routePadded]
  mark := donePadded
  lost := [neighPadded]
  after := [.datagram (threeObjects hsize), .interrupted]
  split := rfl
  done := donePadded_done
  plain := threeDumped_plain hsize

theorem threeDumped_dumped : (threeDumped hsize).dumped = threeMsgs ++ [routePadded] :=
  congrArg (· ++ [routePadded]) (arrived_threeObjects hsize).1

theorem threeDumped_later : (threeDumped hsize).later = threeMsgs := (arrived_threeObjects hsize).2

theorem mem_threeMsgs : ∀ m ∈ (threeDumped hsize).dumped ++ (threeDumped hsize).later, m ∈ threeMsgs := by
  rw [threeDumped_dumped, threeDumped_later]
  intro m hm
  rcases List.mem_append.mp hm with hm | hm
  · rcases List.mem_append.mp hm with hm | hm
    · exact hm
    · rw [List.mem_singleton.mp hm]
      exact List.mem_of_getLast? rfl
  · exact hm

end Sample

theorem threeMsgs_readable : ∀ m ∈ threeMsgs,
    (m.Mine RTM_NEWNEIGH RTM_DELNEIGH → AttrsReadable 28 m.hdr m.bytes) ∧
      (m.Mine RTM_NEWNEXTHOP RTM_DELNEXTHOP → AttrsReadable 24 m.hdr m.bytes) ∧
      (m.Mine RTM_NEWROUTE RTM_DELROUTE → RouteReadable m.hdr m.bytes) := by
  refine List.forall_mem_cons.mpr ⟨⟨fun h => ?_, fun h => ?_, fun h => ?_⟩, List.forall_mem_cons.mpr
    ⟨⟨fun h => ?_, fun h => ?_, fun h => ?_⟩, List.forall_mem_singleton.mpr
      ⟨fun h => ?_, fun h => ?_, fun h => ?_⟩⟩⟩
  · exact (nlNeighDispatch_iff (by decide) h).mp ⟨_, (rfl : nlNeighDispatch oneInterface _ _ = _)⟩
  · exact absurd h (by decide)
  · exact absurd h (by decide)
  · exact absurd h (by decide)
  · exact (nlNexthopDispatch_iff (by decide) h).mp ⟨_, (rfl : nlNexthopDispatch oneInterface _ _ = _)⟩
  · exact absurd h (by decide)
  · exact absurd h (by decide)
  · exact absurd h (by decide)
  · exact (nlDispatch_iff (by decide) (by decide) h).mp ⟨_, (rfl : nlDispatch oneInterface _ _ = _)⟩

theorem neigh_size : 128 ≤ NL_NEIGH_BUF_SIZE := by decide

theorem nexthop_size : 128 ≤ NL_NEXTHOP_BUF_SIZE := by decide

theorem dump_run_callbacks_threeDumped :
    (netlinkNeighDump oneInterface (fun _ => true) (threeDumped neigh_size).recvs =
        .ok ⟨neighCallbacks oneInterface (threeMsgs ++ [routePadded]), some 1, (threeDumped neigh_size).rest⟩ ∧
      netlinkNeighRun oneInterface (threeDumped neigh_size).rest =
        .ok ⟨neighCallbacks oneInterface threeMsgs, none, []⟩) ∧
    (netlinkNexthopDump oneInterface (fun _ => true) (threeDumped nexthop_size).recvs =
        .ok ⟨nexthopCallbacks oneInterface (threeMsgs ++ [routePadded]), some 1,
          (threeDumped nexthop_size).rest⟩ ∧
      netlinkNexthopRun oneInterface (threeDumped nexthop_size).rest =
        .ok ⟨nexthopCallbacks oneInterface threeMsgs, none, []⟩) := by
  have hboth := dump_run_callbacks oneInterface (fun _ => true)
  have hneigh := hboth.1 (threeDumped neigh_size) rfl fun m hm =>
    (threeMsgs_readable m (mem_threeMsgs neigh_size m hm)).1
  have hnexthop := hboth.2 (threeDumped nexthop_size) rfl fun m hm =>
    (threeMsgs_readable m (mem_threeMsgs nexthop_size m hm)).2.1
  rw [threeDumped_dumped, threeDumped_later] at hneigh hnexthop
  exact ⟨hneigh, hnexthop⟩

/-- **`netlink_run` and `netlink_process` make the callbacks of the messages in their order**, where the log of
OSPF routes does not read behind the message; the one does so across interruptions, the other up to the first
call of `recv` that finds nothing. -/
theorem route_callbacks (libc : Libc) (as : List (Arrival NL_BUF_SIZE)) (ds : List (Datagram NL_BUF_SIZE))
    (later : List Recv) (hsame : ds.flatMap Datagram.msgs = arrived as) (hplain : ∀ m ∈ arrived as, m.Plain)
    (hreads : ∀ m ∈ arrived as, m.Mine RTM_NEWROUTE RTM_DELROUTE → RouteReadable m.hdr m.bytes) :
    netlinkRun libc (as.map Arrival.recv) =
        .ok ⟨routeCallbacks libc (arrived as), none, []⟩ ∧
      netlinkProcess libc (ds.map Datagram.recv ++ .failed EAGAIN :: later) =
        .ok ⟨routeCallbacks libc (arrived as),
          some (countMine RTM_NEWROUTE RTM_DELROUTE (arrived as)), later⟩ := by
  have hread : ∀ m ∈ arrived as, m.Reads RTM_NEWROUTE RTM_DELROUTE (nlDispatch libc) :=
    fun m hm => route_reads libc (hreads m hm)
  have hmem : ∀ d ∈ ds, ∀ m ∈ d.msgs, m ∈ arrived as :=
    fun d hd m hm => hsame ▸ List.mem_flatMap.mpr ⟨d, hd, hm⟩
  refine ⟨runLoop_waits (by decide) hread hplain, ?_⟩
  show processLoop NL_BUF_SIZE (processStep RTM_NEWROUTE RTM_DELROUTE (nlDispatch libc)) 0 [] _ = _
  rw [processLoop_arrived (by decide) (fun d hd m hm => hread m (hmem d hd m hm))
    (fun d hd m hm => hplain m (hmem d hd m hm)), hsame, processLoop, if_pos rfl, List.nil_append, zero_add]
  rfl

theorem route_size : 128 ≤ NL_BUF_SIZE := by decide

theorem route_callbacks_threeObjects :
    netlinkRun oneInterface ([.interrupted, .datagram (threeObjects route_size)].map Arrival.recv) =
        .ok ⟨routeCallbacks oneInterface threeMsgs, none, []⟩ ∧
      netlinkProcess oneInterface ([threeObjects route_size].map Datagram.recv ++ [.failed EAGAIN]) =
        .ok ⟨routeCallbacks oneInterface threeMsgs, some 1, []⟩ := by
  have harrived := (arrived_threeObjects route_size).1
  have hsame : [threeObjects route_size].flatMap Datagram.msgs =
      arrived [.interrupted, .datagram (threeObjects route_size)] := List.flatMap_singleton _ _
  have hboth := route_callbacks oneInterface [.interrupted, .datagram (threeObjects route_size)]
    [threeObjects route_size] [] hsame (harrived ▸ threeMsgs_plain) (harrived ▸ fun m hm =>
      (threeMsgs_readable m hm).2.2)
  rw [harrived] at hboth
  exact hboth

end Rtsrv.Client
