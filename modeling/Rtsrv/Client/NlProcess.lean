import Rtsrv.Client.NlDispatch

/-!
# Rtsrv.Client.NlProcess — the three message walks (`netlink.c`, `netlink_neigh.c`, `netlink_nexthop.c`)

`nl_process_buf`, `nl_neigh_process_buf` and `nl_nexthop_process_buf` are one loop with three dispatchers.
The bytes that are left are counted in a signed `n`, which `NLMSG_OK` is given as unsigned: behind a last
message without its padding `n` is negative and the walk goes on, outside what was received.
-/

namespace Rtsrv.Client

open Lib CmdProto

def NLMSG_ERROR : UInt16 := 2
def NLMSG_DONE : UInt16 := 3

/-- `NLMSG_ALIGN`, on the 32 bits of `nlmsg_len`. -/
def nlmsgAlign (len : UInt32) : UInt32 := (len + 3) / 4 * 4

/-- The header at the start of what is left. -/
def nlmsghdr : List UInt8 → Access NlMsgHdr
  | l0 :: l1 :: l2 :: l3 :: t0 :: t1 :: f0 :: f1 :: rest =>
    if 8 ≤ rest.length then .ok ⟨joinBe32 l3 l2 l1 l0, joinBe16 t1 t0, joinBe16 f1 f0⟩
    else .error .outOfRange
  | _ => .error .outOfRange

/-- `NLMSG_OK(nlh, (unsigned int)n)`, with the header it finds. -/
def nlmsgOk (nlh : List UInt8) (n : ℤ) : Access (Option NlMsgHdr) :=
  let len := n % 2 ^ 32
  if len < 16 then .ok none
  else do
    let hdr ← nlmsghdr nlh
    pure (if 16 ≤ hdr.nlmsg_len.toNat ∧ (hdr.nlmsg_len.toNat : ℤ) ≤ len then some hdr else none)

/-- The state of the loop: what was received from `nlh` on, the bytes that `n` says are left, the callbacks
so far and the count. -/
structure MessageWalk (α : Type) where
  nlh : List UInt8
  n : ℤ
  events : List α
  count : ℤ

/-- What a call leaves: its callbacks, the value returned, and `done` where there is such a parameter. -/
structure Processed (α : Type) where
  events : List α
  ret : ℤ
  done : Bool
  deriving DecidableEq, Repr

/-- One round of a message walk. -/
abbrev MessageLoop (α : Type) := MessageWalk α → Access (Round (MessageWalk α) (Processed α))

def MessageWalk.start {α : Type} (buf : List UInt8) : MessageWalk α := ⟨buf, buf.length, [], 0⟩

section Process

variable {α : Type} (new del : UInt16) (dispatch : NlMsgHdr → List UInt8 → Access (Option α))

/-- A round of the `for` loop, with `NLMSG_NEXT` at its end. -/
def processStep : MessageLoop α := fun w => do
  match ← nlmsgOk w.nlh w.n with
  | none => pure (.done ⟨w.events, w.count, false⟩)
  | some hdr =>
    if hdr.nlmsg_type = NLMSG_DONE then pure (.done ⟨w.events, w.count, true⟩)
    else if hdr.nlmsg_type = NLMSG_ERROR then pure (.done ⟨w.events, -1, false⟩)
    else
      let next := (nlmsgAlign hdr.nlmsg_len).toNat
      if hdr.nlmsg_type = new ∨ hdr.nlmsg_type = del then
        let event ← dispatch hdr w.nlh
        pure (.again ⟨w.nlh.drop next, w.n - next, w.events ++ event.toList, w.count + 1⟩)
      else pure (.again ⟨w.nlh.drop next, w.n - next, w.events, w.count⟩)

end Process

variable (libc : Libc)

def nlProcessBuf : MessageLoop (NetlinkEvent × NetlinkRoute32) :=
  processStep RTM_NEWROUTE RTM_DELROUTE (nlDispatch libc)

def nlNeighProcessBuf : MessageLoop (NetlinkEvent × NetlinkNeigh) :=
  processStep RTM_NEWNEIGH RTM_DELNEIGH (nlNeighDispatch libc)

def nlNexthopProcessBuf : MessageLoop (NetlinkEvent × NetlinkNexthop) :=
  processStep RTM_NEWNEXTHOP RTM_DELNEXTHOP (nlNexthopDispatch libc)

/-! ### The messages of a buffer -/

/-- The message at the start of what is left, where the walk goes on behind it. -/
def messageAt (nlh : List UInt8) : Option NlMsgHdr :=
  match nlmsgOk nlh nlh.length with
  | .ok (some hdr) => if hdr.nlmsg_type ≠ NLMSG_DONE ∧ hdr.nlmsg_type ≠ NLMSG_ERROR then some hdr else none
  | _ => none

/-- The position behind a message. -/
def nextMessage (nlh : List UInt8) : Option (List UInt8) :=
  (messageAt nlh).map fun hdr => nlh.drop (nlmsgAlign hdr.nlmsg_len).toNat

/-- Each message that the walk goes on behind has its padding, of a length below 2³² - 3, and can be read
where it is of the walk's own types. -/
def MessagesPadded (new del : UInt16) (readable : NlMsgHdr → List UInt8 → Prop) (buf : List UInt8) : Prop :=
  ∀ nlh, Reaches nextMessage buf nlh → ∀ hdr, messageAt nlh = some hdr →
    hdr.nlmsg_len.toNat + 3 < 2 ^ 32 ∧ align4 hdr.nlmsg_len.toNat ≤ nlh.length ∧
      (hdr.nlmsg_type = new ∨ hdr.nlmsg_type = del → readable hdr nlh)

/-! ### `NLMSG_OK` and `NLMSG_NEXT` -/

theorem nlmsgAlign_toNat {len : UInt32} (h : len.toNat + 3 < 2 ^ 32) :
    (nlmsgAlign len).toNat = align4 len.toNat := by
  rw [nlmsgAlign, UInt32.toNat_mul, UInt32.toNat_div, UInt32.toNat_add]
  show (len.toNat + 3) % 2 ^ 32 / 4 * 4 % 2 ^ 32 = (len.toNat + 3) / 4 * 4
  omega

/-- Rounding up a length next to 2³² gives zero. -/
theorem nlmsgAlign_wraps {len : UInt32} (h : 2 ^ 32 ≤ len.toNat + 3) : (nlmsgAlign len).toNat = 0 := by
  have hlt := len.toNat_lt
  rw [nlmsgAlign, UInt32.toNat_mul, UInt32.toNat_div, UInt32.toNat_add]
  show (len.toNat + 3) % 2 ^ 32 / 4 * 4 % 2 ^ 32 = 0
  omega

theorem nlmsghdr_ok {nlh : List UInt8} (h : 16 ≤ nlh.length) : ∃ hdr, nlmsghdr nlh = .ok hdr := by
  rcases nlh with _ | ⟨l0, _ | ⟨l1, _ | ⟨l2, _ | ⟨l3, _ | ⟨t0, _ | ⟨t1, _ | ⟨f0, _ | ⟨f1, rest⟩⟩⟩⟩⟩⟩⟩⟩
  case cons.cons.cons.cons.cons.cons.cons.cons =>
    have hrest : 8 ≤ rest.length := by
      simp only [List.length_cons] at h
      omega
    exact ⟨_, if_pos hrest⟩
  all_goals simp at h

/-- While `n` is what is left, `NLMSG_OK` reads inside it, and an accepted message ends inside it. -/
theorem nlmsgOk_received (nlh : List UInt8) :
    ∃ o, nlmsgOk nlh nlh.length = .ok o ∧
      ∀ hdr, o = some hdr → 16 ≤ hdr.nlmsg_len.toNat ∧ hdr.nlmsg_len.toNat ≤ nlh.length := by
  unfold nlmsgOk
  dsimp only
  split_ifs with hshort
  · exact ⟨none, rfl, nofun⟩
  · have hreceived : 16 ≤ nlh.length := by omega
    obtain ⟨hdr, hhdr⟩ := nlmsghdr_ok hreceived
    rw [hhdr, ok_bind]
    refine ⟨_, rfl, fun hdr' hsome => ?_⟩
    split_ifs at hsome with hok
    obtain rfl := Option.some.inj hsome
    omega

/-- Behind the end, a negative `n` lets `NLMSG_OK` read on. -/
theorem nlmsgOk_outside {n : ℤ} (hneg : n < 0) (hlow : -3 ≤ n) : nlmsgOk [] n = .error .outOfRange := by
  unfold nlmsgOk
  dsimp only
  rw [if_neg (by omega)]
  rfl

theorem messageAt_eq_some {nlh : List UInt8} {hdr : NlMsgHdr} :
    messageAt nlh = some hdr ↔ nlmsgOk nlh nlh.length = .ok (some hdr) ∧
      hdr.nlmsg_type ≠ NLMSG_DONE ∧ hdr.nlmsg_type ≠ NLMSG_ERROR := by
  obtain ⟨o, ho, -⟩ := nlmsgOk_received nlh
  unfold messageAt
  rw [ho]
  cases o with
  | none => simp
  | some hdr' =>
    dsimp only
    constructor
    · intro h
      split_ifs at h with htype
      obtain rfl := Option.some.inj h
      exact ⟨rfl, htype⟩
    · rintro ⟨heq, htype⟩
      obtain rfl := Option.some.inj (Except.ok.inj heq)
      exact if_pos htype

theorem messageAt_length {nlh : List UInt8} {hdr : NlMsgHdr} (h : messageAt nlh = some hdr) :
    16 ≤ hdr.nlmsg_len.toNat ∧ hdr.nlmsg_len.toNat ≤ nlh.length := by
  obtain ⟨o, ho, hlen⟩ := nlmsgOk_received nlh
  have hok := (messageAt_eq_some.mp h).1
  rw [ho] at hok
  exact hlen hdr (Except.ok.inj hok)

/-! ### The walk -/

section Walk

variable {α : Type} {new del : UInt16} {dispatch : NlMsgHdr → List UInt8 → Access (Option α)}

/-- Where no message is found behind which the walk goes on, it ends. -/
theorem processStep_ends {w : MessageWalk α} (hn : w.n = w.nlh.length) (h : messageAt w.nlh = none) :
    ∃ r, processStep new del dispatch w = .ok (.done r) := by
  obtain ⟨o, ho, -⟩ := nlmsgOk_received w.nlh
  rw [processStep, hn, ho, ok_bind]
  cases o with
  | none => exact ⟨_, rfl⟩
  | some hdr =>
    dsimp only
    split_ifs with hdone herror hmine
    · exact ⟨_, rfl⟩
    · exact ⟨_, rfl⟩
    all_goals
      have hat := messageAt_eq_some.mpr ⟨ho, hdone, herror⟩
      rw [h] at hat
      cases hat

/-- A round over a message, with what the dispatcher makes of it. -/
theorem processStep_message {w : MessageWalk α} {hdr : NlMsgHdr} (hn : w.n = w.nlh.length)
    (h : messageAt w.nlh = some hdr) :
    processStep new del dispatch w =
      if hdr.nlmsg_type = new ∨ hdr.nlmsg_type = del then
        dispatch hdr w.nlh >>= fun event =>
          .ok (.again ⟨w.nlh.drop (nlmsgAlign hdr.nlmsg_len).toNat, w.n - (nlmsgAlign hdr.nlmsg_len).toNat,
            w.events ++ event.toList, w.count + 1⟩)
      else
        .ok (.again ⟨w.nlh.drop (nlmsgAlign hdr.nlmsg_len).toNat, w.n - (nlmsgAlign hdr.nlmsg_len).toNat,
          w.events, w.count⟩) := by
  obtain ⟨hok, hdone, herror⟩ := messageAt_eq_some.mp h
  rw [processStep, hn, hok, ok_bind]
  dsimp only
  rw [if_neg hdone, if_neg herror]
  rfl

/-- The round goes on to the next position, or it fails in the dispatcher. -/
theorem processStep_next (new del : UInt16) (dispatch : NlMsgHdr → List UInt8 → Access (Option α))
    {w : MessageWalk α} {hdr : NlMsgHdr} (hn : w.n = w.nlh.length)
    (h : messageAt w.nlh = some hdr) :
    ((∃ e, processStep new del dispatch w = .error e) ∧
        (hdr.nlmsg_type = new ∨ hdr.nlmsg_type = del) ∧ ¬∃ event, dispatch hdr w.nlh = .ok event) ∨
      ((∃ w', processStep new del dispatch w = .ok (.again w') ∧
          w'.nlh = w.nlh.drop (nlmsgAlign hdr.nlmsg_len).toNat ∧
          w'.n = w.n - (nlmsgAlign hdr.nlmsg_len).toNat) ∧
        (hdr.nlmsg_type = new ∨ hdr.nlmsg_type = del → ∃ event, dispatch hdr w.nlh = .ok event)) := by
  rw [processStep_message hn h]
  split_ifs with hmine
  · cases hd : dispatch hdr w.nlh with
    | error e =>
      left
      refine ⟨⟨e, rfl⟩, hmine, ?_⟩
      rintro ⟨event, hevent⟩
      cases hevent
    | ok event => exact .inr ⟨⟨_, rfl, rfl, rfl⟩, fun _ => ⟨event, rfl⟩⟩
  · exact .inr ⟨⟨_, rfl, rfl, rfl⟩, fun h => absurd h hmine⟩

/-- A message that the walk gets behind: its padding is there, and where it is dispatched the dispatcher
reads what it may. -/
def Passed (new del : UInt16) (dispatch : NlMsgHdr → List UInt8 → Access (Option α)) (nlh : List UInt8) :
    Prop :=
  ∀ hdr, messageAt nlh = some hdr →
    hdr.nlmsg_len.toNat + 3 < 2 ^ 32 ∧ align4 hdr.nlmsg_len.toNat ≤ nlh.length ∧
      (hdr.nlmsg_type = new ∨ hdr.nlmsg_type = del → ∃ event, dispatch hdr nlh = .ok event)

/-- Behind the last byte the walk reads outside. -/
theorem not_returns_outside {w : MessageWalk α} (hnlh : w.nlh = []) (hneg : w.n < 0) (hlow : -3 ≤ w.n)
    (r : Processed α) : ¬Returns (processStep new del dispatch) w r := by
  have herror : processStep new del dispatch w = .error .outOfRange := by
    rw [processStep, hnlh, nlmsgOk_outside hneg hlow]
    rfl
  exact not_returns_of_error herror r

/-- From a message that it does not get behind the walk never returns: it reads outside, or stays there. -/
theorem not_returns_lost {w : MessageWalk α} {hdr : NlMsgHdr} (hn : w.n = w.nlh.length)
    (h : messageAt w.nlh = some hdr) (hlost : ¬Passed new del dispatch w.nlh) (r : Processed α) :
    ¬Returns (processStep new del dispatch) w r := by
  have hlen := messageAt_length h
  by_cases hwide : hdr.nlmsg_len.toNat + 3 < 2 ^ 32
  · rcases processStep_next new del dispatch hn h with
      ⟨⟨e, he⟩, -, -⟩ | ⟨⟨w', hagain, hnlh, hn'⟩, hdispatched⟩
    · exact not_returns_of_error he r
    · rw [nlmsgAlign_toNat hwide] at hnlh hn'
      have hgt : w.nlh.length < align4 hdr.nlmsg_len.toNat := by
        by_contra hle
        refine hlost fun hdr' h' => ?_
        rw [h] at h'
        obtain rfl := Option.some.inj h'
        exact ⟨hwide, Nat.not_lt.mp hle, hdispatched⟩
      have hpad : align4 hdr.nlmsg_len.toNat ≤ hdr.nlmsg_len.toNat + 3 := by unfold align4; omega
      rw [returns_again hagain]
      have hnil : w'.nlh = [] := hnlh.trans (List.drop_eq_nil_of_le (Nat.le_of_lt hgt))
      exact not_returns_outside hnil (by omega) (by omega) r
  · have hzero := nlmsgAlign_wraps (Nat.not_lt.mp hwide)
    refine not_returns_of_trap (fun w' => w'.nlh = w.nlh ∧ w'.n = w.n) ?_ ⟨rfl, rfl⟩
    rintro w' ⟨hnlh, hn'⟩
    have hsame : w'.n = w'.nlh.length := by rw [hn', hnlh, hn]
    rcases processStep_next new del dispatch hsame (hnlh ▸ h) with
      ⟨herror, -, -⟩ | ⟨⟨w'', hagain, hnlh', hn''⟩, -⟩
    · exact .inl herror
    · rw [hzero] at hnlh' hn''
      exact .inr ⟨w'', hagain, hnlh'.trans hnlh, by omega⟩

/-- **A message walk comes to an end, without reading outside, exactly when it gets behind each message.** -/
theorem processStep_returns_iff (buf : List UInt8) :
    (∃ r, Returns (processStep new del dispatch) (.start buf) r) ↔
      ∀ nlh, Reaches nextMessage buf nlh → Passed new del dispatch nlh := by
  refine returns_walk_iff nextMessage (Passed new del dispatch)
    (fun w nlh => w.nlh = nlh ∧ w.n = (nlh.length : ℤ)) List.length ?_ ?_ ?_ ⟨rfl, rfl⟩
  · rintro w nlh ⟨rfl, hn⟩ hnext -
    exact processStep_ends hn (Option.map_eq_none_iff.mp hnext)
  · rintro w nlh u ⟨rfl, hn⟩ hnext hpassed
    obtain ⟨hdr, hat, rfl⟩ := Option.map_eq_some_iff.mp hnext
    obtain ⟨hwide, hpad, hdispatch⟩ := hpassed hdr hat
    have hlen := messageAt_length hat
    have halign := length_le_align4 hdr.nlmsg_len.toNat
    rw [nlmsgAlign_toNat hwide]
    rcases processStep_next new del dispatch hn hat with
      ⟨-, hmine, hno⟩ | ⟨⟨w', hagain, hnlh, hn'⟩, -⟩
    · exact absurd (hdispatch hmine) hno
    · rw [nlmsgAlign_toNat hwide] at hnlh hn'
      refine ⟨?_, w', hagain, hnlh, ?_⟩
      · rw [List.length_drop]
        omega
      · rw [hn', hn, List.length_drop]
        omega
  · rintro w nlh ⟨rfl, hn⟩ hlost
    obtain ⟨hdr, hbad⟩ := not_forall.mp hlost
    exact not_returns_lost hn (Classical.not_imp.mp hbad).1 hlost

/-- What a dispatcher can read, on the messages that its walk dispatches, is what the walk asks for. -/
theorem messagesPadded_iff {readable : NlMsgHdr → List UInt8 → Prop}
    (hdispatch : ∀ hdr nlh, 16 ≤ hdr.nlmsg_len.toNat → hdr.nlmsg_len.toNat ≤ nlh.length →
      hdr.nlmsg_type = new ∨ hdr.nlmsg_type = del →
        ((∃ event, dispatch hdr nlh = .ok event) ↔ readable hdr nlh)) (buf : List UInt8) :
    (∃ r, Returns (processStep new del dispatch) (.start buf) r) ↔ MessagesPadded new del readable buf := by
  rw [processStep_returns_iff]
  refine forall₂_congr fun nlh _ => forall₂_congr fun hdr hat => and_congr_right fun _ =>
    and_congr_right fun _ => forall_congr' fun hmine => ?_
  have hlen := messageAt_length hat
  exact hdispatch hdr nlh hlen.1 hlen.2 hmine

end Walk

/-- **The three walks end inside the received bytes exactly when each message and each attribute that they
go on behind has its padding**, and each message dispatched can be read. -/
theorem nl_walks_safe_iff (buf : List UInt8) :
    ((∃ r, Returns (nlProcessBuf libc) (.start buf) r) ↔
        MessagesPadded RTM_NEWROUTE RTM_DELROUTE RouteReadable buf) ∧
      ((∃ r, Returns (nlNeighProcessBuf libc) (.start buf) r) ↔
        MessagesPadded RTM_NEWNEIGH RTM_DELNEIGH (AttrsReadable 28) buf) ∧
      ((∃ r, Returns (nlNexthopProcessBuf libc) (.start buf) r) ↔
        MessagesPadded RTM_NEWNEXTHOP RTM_DELNEXTHOP (AttrsReadable 24) buf) :=
  ⟨messagesPadded_iff (fun _ _ hlow hlen hmine => nlDispatch_iff hlen hlow hmine) buf,
    messagesPadded_iff (fun _ _ _ hlen hmine => nlNeighDispatch_iff hlen hmine) buf,
    messagesPadded_iff (fun _ _ _ hlen hmine => nlNexthopDispatch_iff hlen hmine) buf⟩

/-- A message of 17 bytes without its padding, of a type that no walk dispatches. -/
def oddNoop : List UInt8 := [17, 0, 0, 0, 1, 0, 0, 0, 0, 0, 0, 0, 0, 0, 0, 0, 0]

/-- Behind it each walk reads outside the 17 bytes. -/
theorem oddNoop_outside :
    (loop (nlProcessBuf noLibc) 2 (.start oddNoop) = some (.error .outOfRange) ∧
      loop (nlNeighProcessBuf noLibc) 2 (.start oddNoop) = some (.error .outOfRange) ∧
      loop (nlNexthopProcessBuf noLibc) 2 (.start oddNoop) = some (.error .outOfRange)) ∧
    ¬∃ r, Returns (nlProcessBuf noLibc) (.start oddNoop) r := by
  have herror : loop (nlProcessBuf noLibc) 2 (.start oddNoop) = some (.error .outOfRange) := rfl
  refine ⟨⟨herror, rfl, rfl⟩, ?_⟩
  rintro ⟨r, hr⟩
  cases loop_of_returns hr herror

end Rtsrv.Client
