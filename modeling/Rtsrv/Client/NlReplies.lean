import Rtsrv.Client.NlProcess

/-!
# Rtsrv.Client.NlReplies — the answer to a netlink request (`routing.cpp`, `unix_domain/lib/netlink.cpp`)

`RoutingManager::recvAll` receives datagrams until a message with the sequence number of the request ends
the answer, or until a datagram whose first message is no part of a multipart answer.  `nl_transact` receives
one datagram and looks for an `NLMSG_ERROR`, whosever it is.
-/

namespace Rtsrv.Client

open Lib CmdProto

def NLM_F_MULTI : UInt16 := 0x2
def EINTR : ℕ := 4
def kNlBufSize : ℕ := 32768

/-- What a `recv` comes to. -/
inductive Recv where
  | failed (errno : ℕ)
  | datagram (bytes : List UInt8)
  deriving DecidableEq, Repr

/-- `NLMSG_OK(nlh, n)` with a signed `n`. -/
def nlmsgOkSigned (nlh : List UInt8) (n : ℤ) : Access (Option NlMsgHdr) :=
  if n < 16 then .ok none else nlmsgOk nlh n

/-! ### `RoutingManager::recvAll` -/

inductive RecvError where
  | recv (errno : ℕ)
  | netlink (errno : Int32)
  deriving DecidableEq, Repr

def RecvError.message (strerror : ℤ → String) : RecvError → String
  | .recv errno => "recv: " ++ strerror errno
  | .netlink errno => "netlink error: " ++ strerror errno.toInt

/-- What becomes of a call: it is still in `recv`, or it has returned; with what the handler made. -/
inductive RecvOutcome (α : Type) where
  | waiting
  | failed (e : RecvError)
  | success (acc : α)
  deriving DecidableEq, Repr

/-- The two loops of `recvAll`: in front of `recv`, with what the calls will come to, or at a message of what
was received.  The buffer keeps what earlier datagrams left behind the last one. -/
inductive RecvAll (α : Type) where
  | reading (recvs : List Recv) (buf : List UInt8) (acc : α)
  | walking (recvs : List Recv) (buf nlh : List UInt8) (n : ℤ) (acc : α)

namespace RecvAll

variable {α : Type}

def start (recvs : List Recv) (acc : α) : RecvAll α := .reading recvs (List.replicate kNlBufSize 0) acc

/-- One round, of the outer loop up to `recv` or of the inner loop. -/
def step (seq : UInt32) (handler : α → List UInt8 → α) :
    RecvAll α → Access (Round (RecvAll α) (RecvOutcome α))
  | .reading [] _ _ => .ok (.done .waiting)
  | .reading (.failed errno :: recvs) buf acc =>
    if errno = EINTR then .ok (.again (.reading recvs buf acc)) else .ok (.done (.failed (.recv errno)))
  | .reading (.datagram bytes :: recvs) buf acc =>
    let received := bytes.take kNlBufSize
    let buf := received ++ buf.drop received.length
    .ok (.again (.walking recvs buf buf received.length acc))
  | .walking recvs buf nlh n acc => do
    match ← nlmsgOkSigned nlh n with
    | none => do
      let nlmsg_flags ← u16At buf 6
      if nlmsg_flags &&& NLM_F_MULTI ≠ 0 then pure (.again (.reading recvs buf acc))
      else pure (.done (.success acc))
    | some hdr => do
      let nlmsg_seq ← u32At nlh 8
      let next := (nlmsgAlign hdr.nlmsg_len).toNat
      if nlmsg_seq ≠ seq then pure (.again (.walking recvs buf (nlh.drop next) (n - next) acc))
      else if hdr.nlmsg_type = NLMSG_DONE then pure (.done (.success acc))
      else if hdr.nlmsg_type = NLMSG_ERROR then do
        let error ← u32At nlh 16
        if error ≠ 0 then pure (.done (.failed (.netlink (-error.toInt32))))
        else pure (.done (.success acc))
      else pure (.again (.walking recvs buf (nlh.drop next) (n - next) (handler acc nlh)))

/-- The walk is at the end of the answer: `NLMSG_DONE`, or `NLMSG_ERROR` with error 0, to the request. -/
def Answered (seq : UInt32) : RecvAll α → Prop
  | .reading _ _ _ => False
  | .walking _ _ nlh n _ => ∃ hdr, nlmsgOkSigned nlh n = .ok (some hdr) ∧ u32At nlh 8 = .ok seq ∧
      (hdr.nlmsg_type = NLMSG_DONE ∨ hdr.nlmsg_type = NLMSG_ERROR ∧ u32At nlh 16 = .ok 0)

/-- Where the walk over a datagram comes to its end, the buffer starts with a part of a multipart answer. -/
def EndsMulti : RecvAll α → Prop
  | .reading _ _ _ => True
  | .walking _ buf nlh n _ => nlmsgOkSigned nlh n = .ok none →
      ∀ nlmsg_flags, u16At buf 6 = .ok nlmsg_flags → nlmsg_flags &&& NLM_F_MULTI ≠ 0

variable {seq : UInt32} {handler : α → List UInt8 → α}

/-- A walk that is at its end ends the call where the first message has no multipart flag. -/
theorem step_end {recvs : List Recv} {buf nlh : List UInt8} {n : ℤ} {acc : α}
    (h : nlmsgOkSigned nlh n = .ok none) {r : RecvOutcome α} :
    step seq handler (.walking recvs buf nlh n acc) = .ok (.done r) ↔
      ∃ nlmsg_flags, u16At buf 6 = .ok nlmsg_flags ∧ nlmsg_flags &&& NLM_F_MULTI = 0 ∧ .success acc = r := by
  have hstep : step seq handler (.walking recvs buf nlh n acc) = u16At buf 6 >>= fun nlmsg_flags =>
      if nlmsg_flags &&& NLM_F_MULTI ≠ 0 then .ok (.again (.reading recvs buf acc))
      else .ok (.done (.success acc)) := by
    rw [step, h]
    rfl
  rw [hstep, except_bind_ok]
  refine exists_congr fun nlmsg_flags => and_congr_right fun _ => ?_
  by_cases hmulti : nlmsg_flags &&& NLM_F_MULTI = 0
  · rw [if_neg (not_not.mpr hmulti), and_iff_right hmulti, Except.ok.injEq, Round.done.injEq]
  · rw [if_pos hmulti]
    simp [hmulti]

/-- A message ends the call where it is `NLMSG_DONE` or `NLMSG_ERROR` to the request. -/
theorem step_message {recvs : List Recv} {buf nlh : List UInt8} {n : ℤ} {acc : α} {hdr : NlMsgHdr}
    (h : nlmsgOkSigned nlh n = .ok (some hdr)) {r : RecvOutcome α} :
    step seq handler (.walking recvs buf nlh n acc) = .ok (.done r) ↔
      u32At nlh 8 = .ok seq ∧
        ((hdr.nlmsg_type = NLMSG_DONE ∧ .success acc = r) ∨
          hdr.nlmsg_type = NLMSG_ERROR ∧ ∃ error, u32At nlh 16 = .ok error ∧
            (if error ≠ 0 then .failed (.netlink (-error.toInt32)) else .success acc) = r) := by
  set next := (nlmsgAlign hdr.nlmsg_len).toNat with hnext
  have hstep : step seq handler (.walking recvs buf nlh n acc) = u32At nlh 8 >>= fun nlmsg_seq =>
      if nlmsg_seq ≠ seq then .ok (.again (.walking recvs buf (nlh.drop next) (n - next) acc))
      else if hdr.nlmsg_type = NLMSG_DONE then .ok (.done (.success acc))
      else if hdr.nlmsg_type = NLMSG_ERROR then u32At nlh 16 >>= fun error =>
        if error ≠ 0 then .ok (.done (.failed (.netlink (-error.toInt32))))
        else .ok (.done (.success acc))
      else .ok (.again (.walking recvs buf (nlh.drop next) (n - next) (handler acc nlh))) := by
    rw [step, h]
    rfl
  have hdone : NLMSG_DONE ≠ NLMSG_ERROR := by decide
  rw [hstep, except_bind_ok]
  constructor
  · rintro ⟨nlmsg_seq, hseq, hr⟩
    by_cases hother : nlmsg_seq ≠ seq
    · rw [if_pos hother] at hr
      cases hr
    obtain rfl := not_not.mp hother
    rw [if_neg hother] at hr
    refine ⟨hseq, ?_⟩
    by_cases htype : hdr.nlmsg_type = NLMSG_DONE
    · rw [if_pos htype] at hr
      exact .inl ⟨htype, Round.done.inj (Except.ok.inj hr)⟩
    rw [if_neg htype] at hr
    by_cases htype' : hdr.nlmsg_type = NLMSG_ERROR
    · rw [if_pos htype'] at hr
      obtain ⟨error, herror, hr⟩ := except_bind_ok.mp hr
      refine .inr ⟨htype', error, herror, ?_⟩
      split_ifs at hr ⊢
      · exact Round.done.inj (Except.ok.inj hr)
      · exact Round.done.inj (Except.ok.inj hr)
    · rw [if_neg htype'] at hr
      cases hr
  · rintro ⟨hseq, ⟨htype, rfl⟩ | ⟨htype, error, herror, rfl⟩⟩
    · exact ⟨seq, hseq, by rw [if_neg (not_not.mpr rfl), if_pos htype]⟩
    · refine ⟨seq, hseq, ?_⟩
      rw [if_neg (not_not.mpr rfl), if_neg (htype ▸ hdone.symm), if_pos htype, herror, ok_bind]
      split_ifs
      · rfl
      · rfl

/-- Success comes from the end of the answer or from the end of a datagram. -/
theorem step_success (w : RecvAll α) :
    (∃ acc, step seq handler w = .ok (.done (.success acc))) ↔ w.Answered seq ∨ ¬w.EndsMulti := by
  cases w with
  | reading recvs buf acc =>
    refine iff_of_false ?_ (by simp [Answered, EndsMulti])
    rintro ⟨acc', h⟩
    rcases recvs with _ | ⟨errno | bytes, recvs⟩
    · cases h
    · rw [step] at h
      split_ifs at h
      · cases h
      · cases h
    · cases h
  | walking recvs buf nlh n acc =>
    cases hok : nlmsgOkSigned nlh n with
    | error e =>
      have hstep : step seq handler (.walking recvs buf nlh n acc) = .error e := by
        rw [step, hok]
        rfl
      simp [Answered, EndsMulti, hok, hstep]
    | ok o =>
      cases o with
      | none =>
        simp only [step_end hok, Answered, EndsMulti, hok]
        simp
      | some hdr =>
        simp only [step_message hok]
        constructor
        · rintro ⟨acc', hseq, ⟨htype, -⟩ | ⟨htype, error, herror, hr⟩⟩
          · exact .inl ⟨hdr, hok, hseq, .inl htype⟩
          · by_cases hzero : error = 0
            · exact .inl ⟨hdr, hok, hseq, .inr ⟨htype, hzero ▸ herror⟩⟩
            · rw [if_pos hzero] at hr
              cases hr
        · rintro (⟨hdr', hok', hseq, hend⟩ | hmulti)
          · obtain rfl := Option.some.inj (Except.ok.inj (hok.symm.trans hok'))
            refine ⟨acc, hseq, hend.imp (fun htype => ⟨htype, rfl⟩) fun ⟨htype, herror⟩ => ?_⟩
            exact ⟨htype, 0, herror, if_neg (not_not.mpr rfl)⟩
          · refine absurd (fun hnone => ?_) hmulti
            rw [hok] at hnone
            cases hnone

theorem Answered.endsMulti {w : RecvAll α} (h : w.Answered seq) : w.EndsMulti := by
  cases w with
  | reading recvs buf acc => exact trivial
  | walking recvs buf nlh n acc =>
    obtain ⟨hdr, hok, -⟩ := h
    intro hnone
    rw [hok] at hnone
    cases hnone

/-- `recvAll` succeeds only at the end of the answer, exactly when no datagram without it ends the loop. -/
theorem success_only_iff (s : RecvAll α) :
    ((∃ acc, Returns (step seq handler) s (.success acc)) →
        ∃ w, Reaches (nextState (step seq handler)) s w ∧ w.Answered seq) ↔
      ∀ w, Reaches (nextState (step seq handler)) s w → w.EndsMulti := by
  have hend : ∀ w : RecvAll α, w.Answered seq → nextState (step seq handler) w = none := by
    intro w hw
    obtain ⟨acc, hdone⟩ := (step_success w).mpr (.inl hw)
    exact nextState_done hdone
  have honly := returns_only_iff (s := s) (R := fun r => ∃ acc, r = RecvOutcome.success acc) hend
  constructor
  · intro h w hw
    by_contra hmulti
    obtain ⟨acc, hdone⟩ := (step_success w).mpr (.inr hmulti)
    have hanswered := honly.mp (fun ⟨_, ⟨acc', rfl⟩, hr⟩ => h ⟨acc', hr⟩) w _ hw hdone ⟨acc, rfl⟩
    exact hmulti hanswered.endsMulti
  · rintro hall ⟨acc, hr⟩
    refine honly.mpr (fun w r hw hdone ⟨acc', heq⟩ => ?_) ⟨_, ⟨acc, rfl⟩, hr⟩
    exact ((step_success w).mp ⟨acc', heq ▸ hdone⟩).resolve_right (not_not.mpr (hall w hw))

end RecvAll

/-! ### `nl_transact` -/

inductive TransactError where
  | SendFailed
  | RecvFailed
  | system (errno : Int32)
  deriving DecidableEq, Repr

/-- The places in `nl_transact`. -/
inductive Transact where
  | sending
  | receiving
  | walking (nlh : List UInt8) (n : ℤ)
  deriving DecidableEq, Repr

namespace Transact

def bufSize : ℕ := 4096

/-- One round, with what `sendto` and `recv` come to. -/
def step (sent : Bool) (recv : Recv) : Transact → Access (Round Transact (Except TransactError Unit))
  | .sending => if sent then .ok (.again .receiving) else .ok (.done (.error .SendFailed))
  | .receiving =>
    match recv with
    | .failed _ => .ok (.done (.error .RecvFailed))
    | .datagram bytes =>
      let received := bytes.take bufSize
      .ok (.again (.walking (received ++ List.replicate (bufSize - received.length) 0) received.length))
  | .walking nlh n => do
    match ← nlmsgOk nlh n with
    | none => pure (.done (.ok ()))
    | some hdr => do
      if hdr.nlmsg_type = NLMSG_ERROR then do
        let error ← u32At nlh 16
        if error ≠ 0 then pure (.done (.error (.system (-error.toInt32)))) else pure (.done (.ok ()))
      else
        let next := (nlmsgAlign hdr.nlmsg_len).toNat
        pure (.again (.walking (nlh.drop next) (n - next)))

/-- The walk is at an `NLMSG_ERROR` with error 0. -/
def AtAck : Transact → Prop
  | .walking nlh n =>
    ∃ hdr, nlmsgOk nlh n = .ok (some hdr) ∧ hdr.nlmsg_type = NLMSG_ERROR ∧ u32At nlh 16 = .ok 0
  | .sending | .receiving => False

/-- The sequence number of the message at which the walk is. -/
def Seq (seq : UInt32) : Transact → Prop
  | .walking nlh _ => u32At nlh 8 = .ok seq
  | .sending | .receiving => False

/-- The walk has come to its end. -/
def AtEnd : Transact → Prop
  | .walking nlh n => nlmsgOk nlh n = .ok none
  | .sending | .receiving => False

variable {sent : Bool} {recv : Recv}

/-- Success comes from an acknowledgement, or from the end of the datagram. -/
theorem step_success (w : Transact) : step sent recv w = .ok (.done (.ok ())) ↔ w.AtAck ∨ w.AtEnd := by
  cases w with
  | sending =>
    refine iff_of_false (fun h => ?_) (by simp [AtAck, AtEnd])
    rw [step] at h
    split_ifs at h
    · cases h
    · cases h
  | receiving =>
    refine iff_of_false (fun h => ?_) (by simp [AtAck, AtEnd])
    cases recv with
    | failed errno => cases h
    | datagram bytes => cases h
  | walking nlh n =>
    cases hok : nlmsgOk nlh n with
    | error e =>
      have hstep : step sent recv (.walking nlh n) = .error e := by
        rw [step, hok]
        rfl
      simp [AtAck, AtEnd, hok, hstep]
    | ok o =>
      cases o with
      | none =>
        refine iff_of_true ?_ (.inr hok)
        rw [step, hok]
        rfl
      | some hdr =>
        have hstep : step sent recv (.walking nlh n) = if hdr.nlmsg_type = NLMSG_ERROR then
            u32At nlh 16 >>= fun error =>
              if error ≠ 0 then .ok (.done (.error (.system (-error.toInt32)))) else .ok (.done (.ok ()))
            else .ok (.again (.walking (nlh.drop (nlmsgAlign hdr.nlmsg_len).toNat)
              (n - (nlmsgAlign hdr.nlmsg_len).toNat))) := by
          rw [step, hok]
          rfl
        have hmore : ¬Transact.AtEnd (.walking nlh n) := by simp [AtEnd, hok]
        rw [hstep, or_iff_left hmore]
        constructor
        · intro h
          by_cases htype : hdr.nlmsg_type = NLMSG_ERROR
          · rw [if_pos htype] at h
            obtain ⟨error, herror, h⟩ := except_bind_ok.mp h
            by_cases hzero : error = 0
            · exact ⟨hdr, hok, htype, hzero ▸ herror⟩
            · rw [if_pos hzero] at h
              cases h
          · rw [if_neg htype] at h
            cases h
        · rintro ⟨hdr', hok', htype, herror⟩
          obtain rfl := Option.some.inj (Except.ok.inj (hok.symm.trans hok'))
          rw [if_pos htype, herror, ok_bind, if_neg (not_not.mpr rfl)]

/-- `nl_transact` succeeds only at the acknowledgement of its request, exactly when it comes neither to the
end of the datagram nor to the acknowledgement of another request. -/
theorem success_only_iff (seq : UInt32) (s : Transact) :
    (Returns (step sent recv) s (.ok ()) →
        ∃ w, Reaches (nextState (step sent recv)) s w ∧ w.AtAck ∧ w.Seq seq) ↔
      ∀ w, Reaches (nextState (step sent recv)) s w → ¬w.AtEnd ∧ (w.AtAck → w.Seq seq) := by
  have hend : ∀ w : Transact, w.AtAck ∧ w.Seq seq → nextState (step sent recv) w = none := fun w hw =>
    nextState_done ((step_success w).mpr (.inl hw.1))
  have honly := returns_only_iff (s := s) (R := fun r => r = Except.ok ()) hend
  have hdisjoint : ∀ w : Transact, w.AtAck → ¬w.AtEnd := by
    rintro (_ | _ | ⟨nlh, n⟩) hack hatEnd
    · exact hack
    · exact hack
    · obtain ⟨hdr, hok, -⟩ := hack
      exact absurd (hok.symm.trans hatEnd) (by simp)
  constructor
  · intro h w hw
    have hgood : w.AtAck ∨ w.AtEnd → w.AtAck ∧ w.Seq seq := fun hw' =>
      honly.mp (fun ⟨_, heq, hr⟩ => h (heq ▸ hr)) w _ hw ((step_success w).mpr hw') rfl
    exact ⟨fun hatEnd => hdisjoint w (hgood (.inr hatEnd)).1 hatEnd, fun hack => (hgood (.inl hack)).2⟩
  · intro hall hr
    refine honly.mpr (fun w r hw hdone heq => ?_) ⟨_, rfl, hr⟩
    obtain ⟨hmore, hseq⟩ := hall w hw
    have hack := ((step_success w).mp (heq ▸ hdone)).resolve_right hmore
    exact ⟨hack, hseq hack⟩

end Transact

/-- **Success only where the kernel said so**: for `recvAll`, exactly when no datagram that is read to its end
starts without the multipart flag, and for `nl_transact`, exactly when it finds an acknowledgement or an
error, and no acknowledgement of another request. -/
theorem success_answered_iff {α : Type} (seq : UInt32) (handler : α → List UInt8 → α) (recvs : List Recv)
    (acc : α) (sent : Bool) (recv : Recv) :
    (((∃ acc', Returns (RecvAll.step seq handler) (.start recvs acc) (.success acc')) →
        ∃ w, Reaches (nextState (RecvAll.step seq handler)) (.start recvs acc) w ∧ w.Answered seq) ↔
      ∀ w, Reaches (nextState (RecvAll.step seq handler)) (.start recvs acc) w → w.EndsMulti) ∧
    ((Returns (Transact.step sent recv) .sending (.ok ()) →
        ∃ w, Reaches (nextState (Transact.step sent recv)) .sending w ∧ w.AtAck ∧ w.Seq seq) ↔
      ∀ w, Reaches (nextState (Transact.step sent recv)) .sending w → ¬w.AtEnd ∧ (w.AtAck → w.Seq seq)) :=
  ⟨RecvAll.success_only_iff _, Transact.success_only_iff seq _⟩

/-- The acknowledgement of request 1. -/
def staleAck : List UInt8 :=
  [36, 0, 0, 0, 2, 0, 0, 0, 1, 0, 0, 0, 0, 0, 0, 0] ++ List.replicate 20 0

theorem nlmsgOk_staleAck (tail : List UInt8) :
    nlmsgOk (staleAck ++ tail) 36 = .ok (some ⟨36, NLMSG_ERROR, 0⟩) := rfl

/-- Behind the acknowledgement, of another request, the walk is at the end of the datagram. -/
theorem reaches_staleAck (buf : List UInt8) :
    Reaches (nextState (RecvAll.step 2 fun _ _ => ())) (.reading [.datagram staleAck] buf ())
      (.walking [] (staleAck ++ buf.drop 36) ((staleAck ++ buf.drop 36).drop 36) 0 ()) := by
  refine .there (nextState_eq_some.mpr rfl) (.there (nextState_eq_some.mpr ?_) .here)
  rfl

/-- Request 2 succeeds on the acknowledgement of request 1, in both. -/
theorem stale_ack_succeeds :
    (¬ ∀ (seq : UInt32) (recvs : List Recv),
      (∃ acc, Returns (RecvAll.step seq fun _ _ => ()) (.start recvs ()) (.success acc)) →
        ∃ w, Reaches (nextState (RecvAll.step seq fun _ _ => ())) (.start recvs ()) w ∧ w.Answered seq) ∧
    ¬ ∀ (seq : UInt32) (sent : Bool) (recv : Recv), Returns (Transact.step sent recv) .sending (.ok ()) →
        ∃ w, Reaches (nextState (Transact.step sent recv)) .sending w ∧ w.AtAck ∧ w.Seq seq := by
  constructor
  · intro h
    have hall := (RecvAll.success_only_iff _).mp (h 2 [.datagram staleAck])
    exact hall _ (reaches_staleAck _) rfl 0 rfl (by decide)
  · intro h
    have hall := (Transact.success_only_iff 2 _).mp (h 2 true (.datagram staleAck))
    have hwalk : Reaches (nextState (Transact.step true (.datagram staleAck))) .sending
        (.walking (staleAck ++ List.replicate (Transact.bufSize - 36) 0) 36) :=
      .there (nextState_eq_some.mpr rfl) (.there (nextState_eq_some.mpr rfl) .here)
    have hseq := (hall _ hwalk).2 ⟨_, nlmsgOk_staleAck _, rfl, rfl⟩
    exact absurd (Except.ok.inj hseq) (by decide : (1 : UInt32) ≠ 2)

end Rtsrv.Client
