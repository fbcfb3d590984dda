import Rtsrv.Wire.UdProto

/-!
# Rtsrv.Client.NbSocket — non-blocking socket helpers (`client/src/vrf_udp_client.cpp`)

The socket is a schedule: what each round of `poll` and the call behind it comes to.  A finite schedule
is the part of the world seen so far, so a loop that has used it up is still waiting.
-/

namespace Rtsrv.Client

open Lib UdProto

inductive NetError where
  | SocketCreateFailed
  | BindFailed
  | ListenFailed
  | ConnectFailed
  | AcceptFailed
  | SendFailed
  | RecvFailed
  | SetOptFailed
  | SetNonBlockFailed
  | ConnectionClosed
  | WouldBlock
  deriving DecidableEq, Repr

/-- A `std::error_code` of the `net` category or of the system category. -/
inductive IoError where
  | net (e : NetError)
  | system (errno : ℕ)
  deriving DecidableEq, Repr

/-- What became of a loop: still inside it, or left with a value or an error. -/
inductive Progress (α : Type) where
  | waiting
  | failed (e : IoError)
  | done (a : α)
  deriving DecidableEq, Repr

/-! ### Connecting -/

/-- `connect` and, behind EINPROGRESS, `poll` and `SO_ERROR`. -/
inductive ConnectStep where
  | connected
  | failed
  | inProgressNotReady
  | inProgressReady (soError : ℕ)
  deriving DecidableEq, Repr

def nbConnect : ConnectStep → Except IoError Unit
  | .connected => .ok ()
  | .failed => .error (.net .ConnectFailed)
  | .inProgressNotReady => .error (.net .ConnectFailed)
  | .inProgressReady soError => if soError ≠ 0 then .error (.system soError) else .ok ()

/-! ### Sending -/

/-- One round of `nb_send_all`; `sent n` is a send that takes up to `n` bytes. -/
inductive SendRound where
  | pollFailed (errno : ℕ)
  | pollTimeout
  | wouldBlock
  | sendFailed
  | sent (n : ℕ)
  deriving DecidableEq, Repr

/-- The outcome and the bytes handed to the socket. -/
def nbSendAll : List SendRound → Bytes → Progress Unit × Bytes
  | _, [] => (.done (), [])
  | [], _ :: _ => (.waiting, [])
  | .pollFailed errno :: _, _ :: _ => (.failed (.system errno), [])
  | .pollTimeout :: _, _ :: _ => (.failed (.net .SendFailed), [])
  | .wouldBlock :: rounds, b :: data => nbSendAll rounds (b :: data)
  | .sendFailed :: _, _ :: _ => (.failed (.net .SendFailed), [])
  | .sent n :: rounds, b :: data =>
    let r := nbSendAll rounds ((b :: data).drop n)
    (r.1, (b :: data).take n ++ r.2)

/-- What one call comes to for a sending loop: it goes round again, stops, or has handed bytes over. -/
inductive SendStep where
  | again
  | failed (e : IoError)
  | sent (n : ℕ)
  deriving DecidableEq, Repr

/-- `while total < data.size()`: the data from `total` on is offered until all of it is taken. -/
def sendLoop {ρ : Type} (step : ρ → SendStep) : List ρ → Bytes → Progress Unit × Bytes
  | _, [] => (.done (), [])
  | [], _ :: _ => (.waiting, [])
  | call :: calls, b :: data =>
    match step call with
    | .again => sendLoop step calls (b :: data)
    | .failed e => (.failed e, [])
    | .sent n =>
      let r := sendLoop step calls ((b :: data).drop n)
      (r.1, (b :: data).take n ++ r.2)

/-- What `nb_send_all` makes of a round: a full socket is asked again. -/
def SendRound.step : SendRound → SendStep
  | .pollFailed errno => .failed (.system errno)
  | .pollTimeout => .failed (.net .SendFailed)
  | .wouldBlock => .again
  | .sendFailed => .failed (.net .SendFailed)
  | .sent n => .sent n

/-- One call of `net::send_data`. -/
inductive SendData where
  | wouldBlock
  | sendFailed
  | sent (n : ℕ)
  deriving DecidableEq, Repr

/-- What `net::send_all` makes of a call: a full socket is an error. -/
def SendData.step : SendData → SendStep
  | .wouldBlock => .failed (.net .WouldBlock)
  | .sendFailed => .failed (.net .SendFailed)
  | .sent n => .sent n

/-- `net::send_all`: the outcome and the bytes handed to the socket. -/
def sendAll : List SendData → Bytes → Progress Unit × Bytes := sendLoop SendData.step

/-- The bytes handed over are a first part of the data, and all of it exactly when the loop is done. -/
theorem sendLoop_handed {ρ : Type} (step : ρ → SendStep) (calls : List ρ) : ∀ data : Bytes,
    (sendLoop step calls data).2 <+: data ∧
      ((sendLoop step calls data).1 = .done () ↔ (sendLoop step calls data).2 = data) := by
  induction calls with
  | nil =>
    intro data
    cases data with
    | nil => simp [sendLoop]
    | cons b data => simp [sendLoop]
  | cons call calls ih =>
    intro data
    cases data with
    | nil => simp [sendLoop]
    | cons b data =>
      unfold sendLoop
      cases step call with
      | again => exact ih (b :: data)
      | failed e => simp
      | sent n =>
        -- what the later calls hand over continues what this one took
        obtain ⟨hfront, hdone⟩ := ih ((b :: data).drop n)
        have hsplit : (b :: data).take n ++ (b :: data).drop n = b :: data := List.take_append_drop n _
        refine ⟨?_, hdone.trans ⟨fun h => ?_, fun h => ?_⟩⟩
        · have hjoin := (List.prefix_append_right_inj ((b :: data).take n)).mpr hfront
          rwa [hsplit] at hjoin
        · show (b :: data).take n ++ _ = b :: data
          rw [h, hsplit]
        · exact List.append_cancel_left (h.trans hsplit.symm)

theorem nbSendAll_eq (rounds : List SendRound) : ∀ data : Bytes,
    nbSendAll rounds data = sendLoop SendRound.step rounds data := by
  induction rounds with
  | nil => intro data; cases data <;> rfl
  | cons round rounds ih =>
    intro data
    cases data with
    | nil => cases round <;> rfl
    | cons b data => cases round <;> simp only [nbSendAll, sendLoop, SendRound.step, ih]

theorem nbSendAll_done (rounds : List SendRound) (data : Bytes)
    (h : (nbSendAll rounds data).1 = .done ()) : (nbSendAll rounds data).2 = data := by
  rw [nbSendAll_eq] at h ⊢
  exact (sendLoop_handed SendRound.step rounds data).2.mp h

/-- The schedule fails before it takes a byte. -/
def refusesFirst : List SendRound → Bool
  | [] => false
  | .wouldBlock :: rounds => refusesFirst rounds
  | .sent n :: rounds => n = 0 && refusesFirst rounds
  | _ :: _ => true

theorem nbSendAll_failed_nil {data : Bytes} (hdata : data ≠ []) (rounds : List SendRound) :
    ((∃ e, (nbSendAll rounds data).1 = .failed e) ∧ (nbSendAll rounds data).2 = []) ↔
      refusesFirst rounds = true := by
  obtain ⟨b, data, rfl⟩ := List.exists_cons_of_ne_nil hdata
  induction rounds with
  | nil => simp [nbSendAll, refusesFirst]
  | cons round rounds ih =>
    cases round with
    | pollFailed errno => simp [nbSendAll, refusesFirst]
    | pollTimeout => simp [nbSendAll, refusesFirst]
    | wouldBlock => rw [nbSendAll, refusesFirst, ih]
    | sendFailed => simp [nbSendAll, refusesFirst]
    | sent n =>
      cases n with
      | zero =>
        rw [nbSendAll, refusesFirst]
        simpa using ih
      | succ n => simp [nbSendAll, refusesFirst]

/-! ### Receiving -/

/-- One round of `nb_recv_frame`. -/
inductive RecvRound where
  | pollFailed (errno : ℕ)
  | pollTimeout
  | wouldBlock
  | recvFailed
  | closed
  | received (chunk : Bytes)
  deriving DecidableEq, Repr

def nbRecvFrame : List RecvRound → Bytes → Progress Bytes
  | [], _ => .waiting
  | .pollFailed errno :: _, _ => .failed (.system errno)
  | .pollTimeout :: _, _ => .failed (.net .RecvFailed)
  | .wouldBlock :: rounds, buf => nbRecvFrame rounds buf
  | .recvFailed :: _, _ => .failed (.net .RecvFailed)
  | .closed :: _, _ => .failed (.net .ConnectionClosed)
  | .received chunk :: rounds, buf =>
    match findFrame (buf ++ chunk) with
    | .ok (frm, _) => .done frm
    | .error _ => nbRecvFrame rounds (buf ++ chunk)

/-- The bytes a schedule brings, one chunk after the other. -/
def received : List RecvRound → Bytes
  | [] => []
  | .received chunk :: rounds => chunk ++ received rounds
  | _ :: rounds => received rounds

/-- A round without an error: bytes, or nothing yet. -/
def RecvRound.Delivers : RecvRound → Prop
  | .wouldBlock => True
  | .received _ => True
  | _ => False

/-- What a scan of the stream comes to for a receiver. -/
def scanned : Except (Fault ProtoError) (Bytes × ℕ) → Progress Bytes
  | .ok (frm, _) => .done frm
  | .error _ => .waiting

/-- The frame that is returned is the one in the whole stream, whatever comes behind it. -/
theorem nbRecvFrame_done {frm : Bytes} (rounds : List RecvRound) : ∀ {buf : Bytes},
    nbRecvFrame rounds buf = .done frm → ∃ stop, findFrame (buf ++ received rounds) = .ok (frm, stop) := by
  induction rounds with
  | nil => intro buf h; cases h
  | cons round rounds ih =>
    intro buf h
    cases round with
    | pollFailed errno => cases h
    | pollTimeout => cases h
    | wouldBlock => exact ih h
    | recvFailed => cases h
    | closed => cases h
    | received chunk =>
      rw [nbRecvFrame] at h
      rw [received, ← List.append_assoc]
      rcases hfind : findFrame (buf ++ chunk) with e | ⟨frm', stop⟩
      · rw [hfind] at h
        exact ih h
      · rw [hfind] at h
        obtain rfl := Progress.done.inj h
        exact ⟨stop, findFrame_append hfind _⟩

/-- Behind a buffer without a frame the outcome is that of one scan of the whole stream. -/
theorem nbRecvFrame_scanned (rounds : List RecvRound) : ∀ {buf : Bytes} {e : Fault ProtoError},
    (∀ r ∈ rounds, r.Delivers) → findFrame buf = .error e →
      nbRecvFrame rounds buf = scanned (findFrame (buf ++ received rounds)) := by
  induction rounds with
  | nil =>
    intro buf e _ hnone
    rw [received, List.append_nil, hnone]
    rfl
  | cons round rounds ih =>
    intro buf e hall hnone
    obtain ⟨hround, hrounds⟩ := List.forall_mem_cons.mp hall
    cases round with
    | pollFailed errno => cases hround
    | pollTimeout => cases hround
    | wouldBlock => exact ih hrounds hnone
    | recvFailed => cases hround
    | closed => cases hround
    | received chunk =>
      rw [nbRecvFrame, received, ← List.append_assoc]
      rcases hfind : findFrame (buf ++ chunk) with e' | ⟨frm, stop⟩
      · exact ih hrounds hfind
      · rw [findFrame_append hfind]
        rfl

/-- **The transport loops neither lose nor repeat bytes.**  What a sender has handed over is a first part
of its data, and the whole of it exactly when the sender reports success; what a receiver returns is the
frame a scan of the whole stream finds, however the stream was cut. -/
theorem transport_exact :
    (∀ rounds data, (nbSendAll rounds data).2 <+: data ∧
        ((nbSendAll rounds data).1 = .done () ↔ (nbSendAll rounds data).2 = data)) ∧
      (∀ calls data, (sendAll calls data).2 <+: data ∧
        ((sendAll calls data).1 = .done () ↔ (sendAll calls data).2 = data)) ∧
      (∀ rounds frm, nbRecvFrame rounds [] = .done frm →
        ∀ rest, ∃ stop, findFrame (received rounds ++ rest) = .ok (frm, stop)) ∧
      ∀ rounds, (∀ r ∈ rounds, RecvRound.Delivers r) →
        nbRecvFrame rounds [] = scanned (findFrame (received rounds)) := by
  refine ⟨fun rounds data => ?_, sendLoop_handed SendData.step, fun rounds frm h rest => ?_,
    fun rounds h => ?_⟩
  · rw [nbSendAll_eq]
    exact sendLoop_handed SendRound.step rounds data
  · obtain ⟨stop, hfind⟩ := nbRecvFrame_done rounds h
    exact ⟨stop, findFrame_append hfind rest⟩
  · exact nbRecvFrame_scanned rounds h rfl

end Rtsrv.Client
