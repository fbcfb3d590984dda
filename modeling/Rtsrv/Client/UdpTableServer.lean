import Rtsrv.Lib.Keyed
import Rtsrv.Lib.Run

/-!
# Rtsrv.Client.UdpTableServer — snapshots on a port and their subscribers (`udp_table_server.cpp`)

One port with its calls of `setData` and its listener thread.  `setData` stores under one mutex and pushes
under another; the listener adds a subscriber, reads the snapshot and replies in three more steps.  A
snapshot that has been replaced in between can be the last that a subscriber is sent, and one that is longer
than a datagram can be is not sent at all.
-/

namespace Rtsrv.Client

open Lib

structure SockAddr where
  s_addr : UInt32
  sin_port : UInt16
  deriving DecidableEq, Repr

/-- Where the listener is in its loop. -/
inductive Listener where
  | polling
  | received (sender : SockAddr) (subscribe : Bool)
  | answering (sender : SockAddr)
  | replying (sender : SockAddr) (snapshot : String)
  deriving DecidableEq, Repr

/-- A call of `setData` between its two critical sections. -/
structure SetData where
  call : ℕ
  data : String
  deriving DecidableEq, Repr

/-- The longest payload of a UDP datagram over IPv4. -/
def maxDatagram : ℕ := 65507

/-- A datagram can carry the payload. -/
def Fits (payload : String) : Prop := payload.utf8ByteSize ≤ maxDatagram

instance (payload : String) : Decidable (Fits payload) := inferInstanceAs (Decidable (_ ≤ _))

/-- `::sendto`, whose result is not looked at: a payload that is too long is refused with `EMSGSIZE`. -/
def sendto (sent : List (SockAddr × String)) (addr : SockAddr) (payload : String) : List (SockAddr × String) :=
  if Fits payload then (addr, payload) :: sent else sent

/-- `sent` has the latest datagram first. -/
structure PortState where
  data : String
  subscribers : List SockAddr
  calls : Keyed SetData.call
  listener : Listener
  sent : List (SockAddr × String)

/-- The payload of the latest datagram to an address. -/
def lastTo (sent : List (SockAddr × String)) (addr : SockAddr) : Option String :=
  (sent.find? fun d => d.1 = addr).map Prod.snd

namespace PortState

def initial : PortState := ⟨"", [], .empty, .polling, []⟩

/-- The last datagram sent to an address. -/
def lastSent (ps : PortState) (addr : SockAddr) : Option String := lastTo ps.sent addr

end PortState

/-- `SUBSCRIBE` -/
def subscribeBytes : List UInt8 := [0x53, 0x55, 0x42, 0x53, 0x43, 0x52, 0x49, 0x42, 0x45]

/-- `n >= 9 && std::strncmp(buf, "SUBSCRIBE", 9) == 0`, on what fits the buffer of a datagram. -/
def isSubscribe (datagram : List UInt8) : Bool := (datagram.take 255).take 9 = subscribeBytes

inductive PortAction where
  | store (call : ℕ) (data : String)
  | push (call : ℕ)
  | receive (sender : SockAddr) (datagram : List UInt8)
  | subscribe
  | read
  | reply
  deriving DecidableEq, Repr

/-- The first section of `setData`. -/
def storeData (ps : PortState) (call : ℕ) (data : String) : Option PortState :=
  if ps.calls.find call = none then
    some { ps with data := data, calls := ps.calls.put ⟨call, data⟩ }
  else none

/-- `pushToSubscribers`, the second section of `setData`. -/
def pushToSubscribers (ps : PortState) (call : ℕ) : Option PortState :=
  match ps.calls.find call with
  | none => none
  | some c =>
    some { ps with
      calls := ps.calls.erase call
      sent := ps.subscribers.foldl (fun sent addr => sendto sent addr c.data) ps.sent }

/-- One round of `runListener`, step by step. -/
def runListener (ps : PortState) (a : PortAction) : Option PortState :=
  match a, ps.listener with
  | .receive sender datagram, .polling => some { ps with listener := .received sender (isSubscribe datagram) }
  | .subscribe, .received sender subscribe =>
    some { ps with
      subscribers :=
        if subscribe ∧ sender ∉ ps.subscribers then ps.subscribers ++ [sender] else ps.subscribers
      listener := .answering sender }
  | .read, .answering sender => some { ps with listener := .replying sender ps.data }
  | .reply, .replying sender snapshot =>
    some { ps with
      listener := .polling
      sent := if snapshot.isEmpty then ps.sent else sendto ps.sent sender snapshot }
  | _, _ => none

def portStep (ps : PortState) : PortAction → Option PortState
  | .store call data => storeData ps call data
  | .push call => pushToSubscribers ps call
  | a => runListener ps a

/-! ### Up to date -/

namespace PortState

/-- All calls and requests have finished. -/
def Quiet (ps : PortState) : Prop := ps.calls.rows = [] ∧ ps.listener = .polling

/-- The last datagram to each subscriber is the stored snapshot, where that is not empty. -/
def UpToDate (ps : PortState) : Prop :=
  ps.data ≠ "" → ∀ addr ∈ ps.subscribers, ps.lastSent addr = some ps.data

/-- A call that has still to push carries the stored snapshot. -/
def PushAhead (ps : PortState) : Prop := ∃ c ∈ ps.calls.rows, c.data = ps.data

/-- The listener is about to answer this address with the stored snapshot. -/
def AnswerAhead (ps : PortState) (addr : SockAddr) : Prop :=
  ps.listener = .answering addr ∨ ps.listener = .replying addr ps.data

end PortState

/-- What is sent to some addresses, the latest first. -/
def datagrams (addrs : List SockAddr) (payload : String) : List (SockAddr × String) :=
  if Fits payload then addrs.reverse.map fun addr => (addr, payload) else []

/-- What a step sends, the latest first. -/
def outgoing (ps : PortState) : PortAction → List (SockAddr × String)
  | .push call =>
    match ps.calls.find call with
    | none => []
    | some c => datagrams ps.subscribers c.data
  | .reply =>
    match ps.listener with
    | .replying sender snapshot => if snapshot.isEmpty then [] else datagrams [sender] snapshot
    | _ => []
  | _ => []

/-- What the step sends to a subscriber is the stored snapshot, unless a call has still to push that or the
listener has still to answer the subscriber with it. -/
def Timely (ps : PortState) (a : PortAction) : Prop :=
  ps.data ≠ "" → ∀ d ∈ outgoing ps a, d.1 ∈ ps.subscribers →
    d.2 = ps.data ∨ ps.PushAhead ∨ ps.AnswerAhead d.1

/-! ### Steps -/

section Steps

variable {ps ps' : PortState} {a : PortAction}

theorem lastTo_mem {addrs : List SockAddr} {addr : SockAddr} (h : addr ∈ addrs) (data : String)
    (sent : List (SockAddr × String)) :
    lastTo (addrs.map (fun x => (x, data)) ++ sent) addr = some data := by
  induction addrs with
  | nil => exact absurd h List.not_mem_nil
  | cons x addrs ih =>
    unfold lastTo at ih ⊢
    rw [List.map_cons, List.cons_append, List.find?_cons]
    by_cases hx : x = addr
    · rw [decide_eq_true hx]
      rfl
    · rw [decide_eq_false hx]
      exact ih ((List.mem_cons.mp h).resolve_left fun heq => hx heq.symm)

theorem foldl_sendto (addrs : List SockAddr) (payload : String) :
    ∀ sent, addrs.foldl (fun sent addr => sendto sent addr payload) sent = datagrams addrs payload ++ sent := by
  unfold datagrams
  by_cases hfits : Fits payload
  · rw [if_pos hfits]
    induction addrs with
    | nil => exact fun _ => rfl
    | cons addr addrs ih =>
      intro sent
      rw [List.foldl_cons, ih, sendto, if_pos hfits, List.reverse_cons, List.map_append, List.append_assoc]
      rfl
  · rw [if_neg hfits]
    induction addrs with
    | nil => exact fun _ => rfl
    | cons addr addrs ih =>
      intro sent
      rw [List.foldl_cons, ih, sendto, if_neg hfits]

theorem mem_datagrams {addrs : List SockAddr} {payload : String} {d : SockAddr × String} :
    d ∈ datagrams addrs payload ↔ Fits payload ∧ d.1 ∈ addrs ∧ d.2 = payload := by
  unfold datagrams
  split_ifs with hfits
  · rw [List.mem_map, and_iff_right hfits]
    refine ⟨fun ⟨addr, haddr, hd⟩ => hd ▸ ⟨List.mem_reverse.mp haddr, rfl⟩, fun ⟨haddr, hd⟩ =>
      ⟨d.1, List.mem_reverse.mpr haddr, by rw [← hd]⟩⟩
  · exact ⟨fun h => absurd h List.not_mem_nil, fun h => absurd h.1 hfits⟩

/-- What a step can do. -/
theorem portStep_cases (h : portStep ps a = some ps') :
    (∃ call data, a = .store call data ∧
      ps' = { ps with data := data, calls := ps.calls.put ⟨call, data⟩ }) ∨
    (∃ call c, a = .push call ∧ ps.calls.find call = some c ∧
      ps' = { ps with calls := ps.calls.erase call, sent := datagrams ps.subscribers c.data ++ ps.sent }) ∨
    (∃ sender datagram, a = .receive sender datagram ∧ ps.listener = .polling ∧
      ps' = { ps with listener := .received sender (isSubscribe datagram) }) ∨
    (∃ sender subscribers, a = .subscribe ∧ (∃ b, ps.listener = .received sender b) ∧
      (∀ addr ∈ subscribers, addr = sender ∨ addr ∈ ps.subscribers) ∧
      ps' = { ps with subscribers := subscribers, listener := .answering sender }) ∨
    (∃ sender, a = .read ∧ ps.listener = .answering sender ∧
      ps' = { ps with listener := .replying sender ps.data }) ∨
    (∃ sender snapshot, a = .reply ∧ ps.listener = .replying sender snapshot ∧
      ps' = { ps with
        listener := .polling
        sent := if snapshot.isEmpty then ps.sent else datagrams [sender] snapshot ++ ps.sent }) := by
  cases a with
  | store call data =>
    rw [portStep, storeData] at h
    split_ifs at h
    exact .inl ⟨call, data, rfl, (Option.some.inj h).symm⟩
  | push call =>
    rw [portStep, pushToSubscribers] at h
    cases hfind : ps.calls.find call with
    | none => simp [hfind] at h
    | some c =>
      simp only [hfind, foldl_sendto] at h
      exact .inr (.inl ⟨call, c, rfl, hfind, (Option.some.inj h).symm⟩)
  | receive sender datagram =>
    cases hl : ps.listener with
    | polling =>
      simp only [portStep, runListener, hl] at h
      exact .inr (.inr (.inl ⟨sender, datagram, rfl, rfl, (Option.some.inj h).symm⟩))
    | _ => simp [portStep, runListener, hl] at h
  | subscribe =>
    cases hl : ps.listener with
    | received sender b =>
      simp only [portStep, runListener, hl] at h
      refine .inr (.inr (.inr (.inl ⟨sender, _, rfl, ⟨b, rfl⟩, fun addr haddr => ?_,
        (Option.some.inj h).symm⟩)))
      split_ifs at haddr
      · rcases List.mem_append.mp haddr with hold | hnew
        · exact .inr hold
        · exact .inl (List.mem_singleton.mp hnew)
      · exact .inr haddr
    | _ => simp [portStep, runListener, hl] at h
  | read =>
    cases hl : ps.listener with
    | answering sender =>
      simp only [portStep, runListener, hl] at h
      exact .inr (.inr (.inr (.inr (.inl ⟨sender, rfl, rfl, (Option.some.inj h).symm⟩))))
    | _ => simp [portStep, runListener, hl] at h
  | reply =>
    cases hl : ps.listener with
    | replying sender snapshot =>
      have hsend : sendto ps.sent sender snapshot = datagrams [sender] snapshot ++ ps.sent :=
        foldl_sendto [sender] snapshot ps.sent
      simp only [portStep, runListener, hl, hsend] at h
      exact .inr (.inr (.inr (.inr (.inr ⟨sender, snapshot, rfl, rfl, (Option.some.inj h).symm⟩))))
    | _ => simp [portStep, runListener, hl] at h

/-! ### The invariant -/

/-- Each subscriber has the stored snapshot or is about to be sent it, where a datagram can carry it. -/
def PortState.Served (ps : PortState) : Prop :=
  ps.data ≠ "" → Fits ps.data → ∀ addr ∈ ps.subscribers,
    ps.PushAhead ∨ ps.AnswerAhead addr ∨ ps.lastSent addr = some ps.data

/-- A push of another snapshot leaves the call that carries the stored one. -/
theorem pushAhead_erase {call : ℕ} {c : SetData} (hc : ps.calls.find call = some c) (hne : c.data ≠ ps.data)
    (h : ps.PushAhead) : ∃ c' ∈ (ps.calls.erase call).rows, c'.data = ps.data := by
  obtain ⟨c', hc', hdata⟩ := h
  obtain ⟨hmem, hcall⟩ := Keyed.find_eq_some.mp hc
  refine ⟨c', Keyed.mem_erase.mpr ⟨hc', fun heq => hne ?_⟩, hdata⟩
  rw [Keyed.key_inj hmem hc' (hcall.trans heq.symm), hdata]

/-- While no answer is under way, a subscriber has the snapshot or a call will push it. -/
theorem served_idle (hs : ps.Served) (hidle : ∀ addr, ¬ps.AnswerAhead addr) (hdata : ps.data ≠ "")
    (hfits : Fits ps.data) {addr : SockAddr} (haddr : addr ∈ ps.subscribers) :
    ps.PushAhead ∨ ps.lastSent addr = some ps.data := by
  rcases hs hdata hfits addr haddr with hpush | hans | hlast
  · exact .inl hpush
  · exact absurd hans (hidle addr)
  · exact .inr hlast

theorem lastTo_datagrams {addrs : List SockAddr} {addr : SockAddr} (h : addr ∈ addrs) {payload : String}
    (hfits : Fits payload) (sent : List (SockAddr × String)) :
    lastTo (datagrams addrs payload ++ sent) addr = some payload := by
  rw [datagrams, if_pos hfits]
  exact lastTo_mem (List.mem_reverse.mpr h) payload sent

/-- What does not go to an address leaves what this one was sent last. -/
theorem lastTo_other {addrs : List SockAddr} {addr : SockAddr} {payload : String}
    (h : ¬Fits payload ∨ addr ∉ addrs) (sent : List (SockAddr × String)) :
    lastTo (datagrams addrs payload ++ sent) addr = lastTo sent addr := by
  have hnone : (datagrams addrs payload).find? (fun d => d.1 = addr) = none := by
    refine List.find?_eq_none.mpr fun d hd heq => ?_
    obtain ⟨hfits, hmem, -⟩ := mem_datagrams.mp hd
    rw [of_decide_eq_true heq] at hmem
    exact h.elim (fun hnot => hnot hfits) fun hnot => hnot hmem
  rw [lastTo, lastTo, List.find?_append, hnone, Option.none_or]

theorem served_push {call : ℕ} {c : SetData} (hs : ps.Served) (hc : ps.calls.find call = some c)
    (htimely : Timely ps (.push call)) :
    PortState.Served { ps with
      calls := ps.calls.erase call
      sent := datagrams ps.subscribers c.data ++ ps.sent } := by
  intro hdata hfits addr haddr
  by_cases hsame : c.data = ps.data
  · refine .inr (.inr ?_)
    rw [← hsame] at hfits ⊢
    exact lastTo_datagrams haddr hfits ps.sent
  by_cases hcarried : Fits c.data
  · have hout : (addr, c.data) ∈ outgoing ps (.push call) := by
      simp only [outgoing, hc]
      exact mem_datagrams.mpr ⟨hcarried, haddr, rfl⟩
    rcases (htimely hdata _ hout haddr).resolve_left hsame with hpush | hans
    · exact .inl (pushAhead_erase hc hsame hpush)
    · exact .inr (.inl hans)
  · rcases hs hdata hfits addr haddr with hpush | hans | hlast
    · exact .inl (pushAhead_erase hc hsame hpush)
    · exact .inr (.inl hans)
    · exact .inr (.inr ((lastTo_other (.inl hcarried) ps.sent).trans hlast))

theorem served_reply {sender : SockAddr} {snapshot : String} (hs : ps.Served)
    (hl : ps.listener = .replying sender snapshot) (htimely : Timely ps .reply) :
    PortState.Served { ps with
      listener := .polling
      sent := if snapshot.isEmpty then ps.sent else datagrams [sender] snapshot ++ ps.sent } := by
  intro hdata hfits addr haddr
  have hans : ∀ {addr}, ps.AnswerAhead addr → sender = addr ∧ snapshot = ps.data := by
    rintro addr (hans | hans)
    · rw [hl] at hans
      cases hans
    · rw [hl] at hans
      exact Listener.replying.inj hans
  by_cases hempty : snapshot.isEmpty = true
  · rw [if_pos hempty]
    rcases hs hdata hfits addr haddr with hpush | hahead | hlast
    · exact .inl hpush
    · have hsame := (hans hahead).2
      exact absurd (hsame ▸ String.isEmpty_iff.mp hempty) hdata
    · exact .inr (.inr hlast)
  rw [if_neg hempty]
  by_cases hcarried : Fits snapshot ∧ sender = addr
  · obtain ⟨hcarried, rfl⟩ := hcarried
    have hout : (sender, snapshot) ∈ outgoing ps .reply := by
      simp only [outgoing, hl, if_neg hempty]
      exact mem_datagrams.mpr ⟨hcarried, List.mem_singleton_self sender, rfl⟩
    have hsent := lastTo_datagrams (List.mem_singleton_self sender) hcarried ps.sent
    rcases htimely hdata _ hout haddr with hsame | hpush | hahead
    · exact .inr (.inr (hsent.trans (congrArg some hsame)))
    · exact .inl hpush
    · exact .inr (.inr (hsent.trans (congrArg some (hans hahead).2)))
  · rcases hs hdata hfits addr haddr with hpush | hahead | hlast
    · exact .inl hpush
    · obtain ⟨hsender, hsame⟩ := hans hahead
      exact absurd ⟨hsame ▸ hfits, hsender⟩ hcarried
    · refine .inr (.inr ((lastTo_other ?_ ps.sent).trans hlast))
      rw [List.mem_singleton, eq_comm]
      exact not_and_or.mp hcarried

theorem served_step (hs : ps.Served) (htimely : Timely ps a) (h : portStep ps a = some ps') :
    ps'.Served := by
  rcases portStep_cases h with ⟨call, data, rfl, rfl⟩ | ⟨call, c, rfl, hc, rfl⟩ |
    ⟨sender, datagram, rfl, hl, rfl⟩ | ⟨sender, subscribers, rfl, ⟨b, hl⟩, hsub, rfl⟩ |
    ⟨sender, rfl, hl, rfl⟩ | ⟨sender, snapshot, rfl, hl, rfl⟩
  · exact fun _ _ addr _ => .inl ⟨⟨call, data⟩, Keyed.mem_put.mpr (.inl rfl), rfl⟩
  · exact served_push hs hc htimely
  · intro hdata hfits addr haddr
    have hidle : ∀ addr, ¬ps.AnswerAhead addr := by
      rintro addr (hans | hans) <;> rw [hl] at hans <;> cases hans
    exact (served_idle hs hidle hdata hfits haddr).imp_right .inr
  · intro hdata hfits addr haddr
    have hidle : ∀ addr, ¬ps.AnswerAhead addr := by
      rintro addr (hans | hans) <;> rw [hl] at hans <;> cases hans
    rcases hsub addr haddr with rfl | hold
    · exact .inr (.inl (.inl rfl))
    · exact (served_idle hs hidle hdata hfits hold).imp_right .inr
  · intro hdata hfits addr haddr
    rcases hs hdata hfits addr haddr with hpush | (hans | hans) | hlast
    · exact .inl hpush
    · rw [hl] at hans
      obtain rfl := Listener.answering.inj hans
      exact .inr (.inl (.inr rfl))
    · rw [hl] at hans
      cases hans
    · exact .inr (.inr hlast)
  · exact served_reply hs hl htimely

/-- Nothing is sent that a datagram cannot carry. -/
theorem sent_fits {actions : List PortAction} (hrun : run portStep .initial actions = some ps) :
    ∀ d ∈ ps.sent, Fits d.2 := by
  have hstep : ∀ (ps : PortState) a ps', (∀ d ∈ ps.sent, Fits d.2) → True → portStep ps a = some ps' →
      ∀ d ∈ ps'.sent, Fits d.2 := by
    intro ps a ps' hsent _ h
    rcases portStep_cases h with ⟨call, data, rfl, rfl⟩ | ⟨call, c, rfl, hc, rfl⟩ |
      ⟨sender, datagram, rfl, hl, rfl⟩ | ⟨sender, subscribers, rfl, -, -, rfl⟩ | ⟨sender, rfl, hl, rfl⟩ |
      ⟨sender, snapshot, rfl, hl, rfl⟩
    · exact hsent
    · refine List.forall_mem_append.mpr ⟨fun d hd => ?_, hsent⟩
      obtain ⟨hfits, -, heq⟩ := mem_datagrams.mp hd
      exact heq ▸ hfits
    · exact hsent
    · exact hsent
    · exact hsent
    · show ∀ d ∈ (if snapshot.isEmpty then ps.sent else _), Fits d.2
      split_ifs
      · exact hsent
      · refine List.forall_mem_append.mpr ⟨fun d hd => ?_, hsent⟩
        obtain ⟨hfits, -, heq⟩ := mem_datagrams.mp hd
        exact heq ▸ hfits
  exact run_invariant hstep (fun d hd => absurd hd List.not_mem_nil) (along_of_mem (fun _ _ _ => trivial) _) hrun

/-- **In a run in which nothing but the stored snapshot is sent to a subscriber once the calls that carry
it have pushed, the subscribers are up to date, whenever all calls and requests have finished, exactly when a
datagram can carry the snapshot** (or there is no one or nothing to send). -/
theorem quiet_upToDate {actions : List PortAction} (htimely : Along portStep Timely .initial actions)
    (hrun : run portStep .initial actions = some ps) (hquiet : ps.Quiet) :
    ps.UpToDate ↔ (ps.data ≠ "" → ps.subscribers ≠ [] → Fits ps.data) := by
  have hinitial : PortState.initial.Served := fun hdata => absurd rfl hdata
  have hserved : ps.Served := run_invariant (fun _ _ _ hs ht h => served_step hs ht h) hinitial htimely hrun
  refine ⟨fun hup hdata hsome => ?_, fun hfits hdata addr haddr => ?_⟩
  · obtain ⟨addr, haddr⟩ := List.exists_mem_of_ne_nil _ hsome
    obtain ⟨d, hd, heq⟩ := Option.map_eq_some_iff.mp (hup hdata addr haddr)
    exact heq ▸ sent_fits hrun d (List.mem_of_find?_eq_some hd)
  · obtain ⟨hcalls, hlistener⟩ := hquiet
    rcases hserved hdata (hfits hdata (List.ne_nil_of_mem haddr)) addr haddr with ⟨c, hc, -⟩ | (hans | hans) | hlast
    · rw [hcalls] at hc
      exact absurd hc List.not_mem_nil
    · rw [hlistener] at hans
      cases hans
    · rw [hlistener] at hans
      cases hans
    · exact hlast

end Steps

/-- One subscriber, asking while the snapshot `A` is stored. -/
def loopback : SockAddr := ⟨0x7f000001, 40000⟩

instance (ps : PortState) : Decidable ps.PushAhead := List.decidableBEx _ _

instance (ps : PortState) (addr : SockAddr) : Decidable (ps.AnswerAhead addr) :=
  inferInstanceAs (Decidable (_ ∨ _))

instance (ps : PortState) (a : PortAction) : Decidable (Timely ps a) := inferInstanceAs (Decidable (_ → _))

def subscribed : List PortAction :=
  [.store 0 "A", .push 0, .receive loopback subscribeBytes, .subscribe, .read]

theorem quiet_upToDate_sample :
    ∃ ps, run portStep .initial (subscribed ++ [.reply, .store 1 "B", .push 1]) = some ps ∧
      ps.lastSent loopback = some "B" ∧ ps.UpToDate :=
  ⟨_, rfl, by decide, (@quiet_upToDate _ (subscribed ++ [.reply, .store 1 "B", .push 1]) (by decide) rfl
    ⟨rfl, rfl⟩).mpr fun _ _ => by decide⟩

/-- The snapshot `B` is stored and pushed while the listener holds `A` for its reply. -/
theorem late_reply_stays :
    ∃ ps, run portStep .initial (subscribed ++ [.store 1 "B", .push 1, .reply]) = some ps ∧
      ps.Quiet ∧ loopback ∈ ps.subscribers ∧ ps.data = "B" ∧ ps.lastSent loopback = some "A" ∧
      ¬ps.UpToDate := by
  refine ⟨_, rfl, ⟨rfl, rfl⟩, by decide, rfl, by decide, fun h => ?_⟩
  have hlast := h (by decide) loopback (by decide)
  exact absurd hlast (by decide)

end Rtsrv.Client
