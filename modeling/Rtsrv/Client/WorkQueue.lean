import Rtsrv.Lib.Run
import Rtsrv.Wire.RoutePayload

/-!
# Rtsrv.Client.WorkQueue — the queue and the worker of `VrfUdpClient` and `GrpcProc`

Callers push under the mutex and then notify; the worker waits, takes one request and processes it.
The two classes differ in the loop of `threadFunc`: `VrfUdpClient` tests the stop flag in the loop
condition (`loopTests`), `GrpcProc` has `while (true)`.  A step is one access to what the threads share,
so the test of the wait predicate, falling asleep and waking up are apart.
-/

namespace Rtsrv.Client

open Lib CmdProto

variable {ρ : Type}

/-- Where the worker is in `threadFunc`; from `waitTest` to `front` it has the mutex, asleep it has
not. -/
inductive Worker (ρ : Type) where
  | loopTest
  | acquire
  | waitTest
  | goingToSleep
  | asleep
  | front
  | processing (req : ρ)
  | exited
  deriving DecidableEq, Repr

/-- How far `stop` has come. -/
inductive Stopping where
  | idle
  | flagged
  | notified
  | joined
  deriving DecidableEq, Repr

/-- `notices` counts the `submit` calls that have pushed and not yet notified.  `submitted` and
`processed` record the requests in the order they were pushed and handed over. -/
structure WorkQueue (ρ : Type) where
  queue : List ρ
  stopRequested : Bool
  worker : Worker ρ
  stopping : Stopping
  notices : ℕ
  submitted : List ρ
  processed : List ρ
  deriving DecidableEq, Repr

inductive QueueAction (ρ : Type) where
  | push (req : ρ)
  | notifyOne
  | setStop
  | notifyAll
  | join
  | worker
  | spuriousWakeup
  deriving DecidableEq, Repr

/-- After `start`. -/
def WorkQueue.started : WorkQueue ρ := ⟨[], false, .loopTest, .idle, 0, [], []⟩

def Worker.holdsMutex : Worker ρ → Bool
  | .waitTest | .goingToSleep | .front => true
  | _ => false

/-- What a notification does to the worker. -/
def Worker.notify : Worker ρ → Worker ρ
  | .asleep => .acquire
  | w => w

/-- The request that the worker has taken and not yet finished. -/
def Worker.inHand : Worker ρ → List ρ
  | .processing req => [req]
  | _ => []

/-- One step of the worker. -/
def threadFunc (loopTests : Bool) (s : WorkQueue ρ) : Option (WorkQueue ρ) :=
  match s.worker with
  | .loopTest =>
    some { s with worker := if loopTests && s.stopRequested then .exited else .acquire }
  | .acquire => some { s with worker := .waitTest }
  | .waitTest =>
    some { s with worker := if !s.queue.isEmpty || s.stopRequested then .front else .goingToSleep }
  | .goingToSleep => some { s with worker := .asleep }
  | .asleep => none
  | .front =>
    match s.queue with
    | [] =>
      -- `front()` of an empty queue is undefined
      if s.stopRequested then some { s with worker := .exited } else none
    | req :: rest => some { s with queue := rest, worker := .processing req }
  | .processing req => some { s with worker := .loopTest, processed := s.processed ++ [req] }
  | .exited => none

def queueStep (loopTests : Bool) (s : WorkQueue ρ) : QueueAction ρ → Option (WorkQueue ρ)
  | .push req =>
    if s.worker.holdsMutex then none
    else some { s with
      queue := s.queue ++ [req]
      notices := s.notices + 1
      submitted := s.submitted ++ [req] }
  | .notifyOne =>
    if 0 < s.notices then some { s with notices := s.notices - 1, worker := s.worker.notify }
    else none
  | .setStop =>
    match s.stopping with
    | .idle => some { s with stopRequested := true, stopping := .flagged }
    | _ => none
  | .notifyAll =>
    match s.stopping with
    | .flagged => some { s with stopping := .notified, worker := s.worker.notify }
    | _ => none
  | .join =>
    match s.stopping, s.worker with
    | .notified, .exited => some { s with stopping := .joined }
    | _, _ => none
  | .worker => threadFunc loopTests s
  | .spuriousWakeup =>
    match s.worker with
    | .asleep => some { s with worker := .acquire }
    | _ => none

/-- `VrfUdpClient`: `while (!stopRequested_)`. -/
def vrfUdpStep : WorkQueue ρ → QueueAction ρ → Option (WorkQueue ρ) := queueStep true

/-- `GrpcProc`: `while (true)`. -/
def grpcProcStep : WorkQueue ρ → QueueAction ρ → Option (WorkQueue ρ) := queueStep false

/-! ### What a step does -/

@[simp] theorem inHand_notify (w : Worker ρ) : w.notify.inHand = w.inHand := by
  cases w <;> rfl

theorem notify_eq_exited {w : Worker ρ} : w.notify = .exited ↔ w = .exited := by
  cases w <;> simp [Worker.notify]

theorem notify_eq_front {w : Worker ρ} : w.notify = .front ↔ w = .front := by
  cases w <;> simp [Worker.notify]

variable {loopTests : Bool} {s s' : WorkQueue ρ}

/-- A step of the worker, case by case. -/
inductive ThreadStep (loopTests : Bool) (s : WorkQueue ρ) : WorkQueue ρ → Prop
  | leave (hw : s.worker = .loopTest) (htests : loopTests = true) (hstop : s.stopRequested = true) :
    ThreadStep loopTests s { s with worker := .exited }
  | enter (hw : s.worker = .loopTest) (hgo : ¬(loopTests = true ∧ s.stopRequested = true)) :
    ThreadStep loopTests s { s with worker := .acquire }
  | lock (hw : s.worker = .acquire) : ThreadStep loopTests s { s with worker := .waitTest }
  | proceed (hw : s.worker = .waitTest) (hpred : s.queue ≠ [] ∨ s.stopRequested = true) :
    ThreadStep loopTests s { s with worker := .front }
  | wait (hw : s.worker = .waitTest) (hempty : s.queue = []) (hrun : s.stopRequested = false) :
    ThreadStep loopTests s { s with worker := .goingToSleep }
  | release (hw : s.worker = .goingToSleep) : ThreadStep loopTests s { s with worker := .asleep }
  | finish (hw : s.worker = .front) (hempty : s.queue = []) (hstop : s.stopRequested = true) :
    ThreadStep loopTests s { s with worker := .exited }
  | take {req : ρ} {rest : List ρ} (hw : s.worker = .front) (hqueue : s.queue = req :: rest) :
    ThreadStep loopTests s { s with queue := rest, worker := .processing req }
  | done {req : ρ} (hw : s.worker = .processing req) :
    ThreadStep loopTests s { s with worker := .loopTest, processed := s.processed ++ [req] }

/-- There are no other steps. -/
theorem threadFunc_cases (h : threadFunc loopTests s = some s') : ThreadStep loopTests s s' := by
  unfold threadFunc at h
  cases hw : s.worker with
  | loopTest =>
    rw [hw] at h
    obtain rfl := Option.some.inj h
    split
    next hleave =>
      obtain ⟨htests, hstop⟩ := Bool.and_eq_true_iff.mp hleave
      exact .leave hw htests hstop
    next hgo => exact .enter hw fun hleave => hgo (Bool.and_eq_true_iff.mpr hleave)
  | acquire =>
    rw [hw] at h
    obtain rfl := Option.some.inj h
    exact .lock hw
  | waitTest =>
    rw [hw] at h
    obtain rfl := Option.some.inj h
    split
    next hpred => exact .proceed hw (by simpa using hpred)
    next hfail =>
      have hno : s.queue = [] ∧ s.stopRequested = false := by simpa using hfail
      exact .wait hw hno.1 hno.2
  | goingToSleep =>
    rw [hw] at h
    obtain rfl := Option.some.inj h
    exact .release hw
  | asleep | exited =>
    rw [hw] at h
    cases h
  | front =>
    rw [hw] at h
    dsimp only at h
    split at h
    next hempty =>
      split_ifs at h with hstop
      obtain rfl := Option.some.inj h
      exact .finish hw hempty hstop
    next req rest hqueue =>
      obtain rfl := Option.some.inj h
      exact .take hw hqueue
  | processing req =>
    rw [hw] at h
    obtain rfl := Option.some.inj h
    exact .done hw

/-- A step of the worker hands requests on in order and leaves the callers' part alone. -/
theorem threadFunc_frame (h : threadFunc loopTests s = some s') :
    s'.submitted = s.submitted ∧ s'.stopRequested = s.stopRequested ∧ s'.stopping = s.stopping ∧
      s'.processed ++ (s'.worker.inHand ++ s'.queue) = s.processed ++ (s.worker.inHand ++ s.queue) := by
  cases threadFunc_cases h with
  | leave hw | enter hw | lock hw | proceed hw | wait hw | release hw | finish hw =>
    refine ⟨rfl, rfl, rfl, ?_⟩
    rw [hw]
    rfl
  | take hw hqueue =>
    refine ⟨rfl, rfl, rfl, ?_⟩
    rw [hw, hqueue]
    rfl
  | @done req hw =>
    refine ⟨rfl, rfl, rfl, ?_⟩
    rw [hw]
    show (s.processed ++ [req]) ++ ([] ++ s.queue) = s.processed ++ ([req] ++ s.queue)
    simp

/-- The two ways out of the loop. -/
theorem threadFunc_exited (h : threadFunc loopTests s = some s') (hw : s'.worker = .exited) :
    s.stopRequested = true ∧ s' = { s with worker := .exited } ∧
      (s.worker = .loopTest ∧ loopTests = true ∨ s.worker = .front ∧ s.queue = []) := by
  cases threadFunc_cases h with
  | leave hloop htests hstop => exact ⟨hstop, rfl, .inl ⟨hloop, htests⟩⟩
  | finish hfront hempty hstop => exact ⟨hstop, rfl, .inr ⟨hfront, hempty⟩⟩
  | enter | lock | proceed | wait | release | take | done => cases hw

/-- The worker comes to `front` from the wait, whose predicate has just held. -/
theorem threadFunc_front (h : threadFunc loopTests s = some s') (hw : s'.worker = .front) :
    s'.queue ≠ [] ∨ s'.stopRequested = true := by
  cases threadFunc_cases h with
  | proceed _ hpred => exact hpred
  | leave | enter | lock | wait | release | finish | take | done => cases hw

/-- What the callers' steps do. -/
theorem queueStep_callers {a : QueueAction ρ} (h : queueStep loopTests s a = some s') :
    (∃ req, a = .push req ∧ s' = { s with
        queue := s.queue ++ [req], notices := s.notices + 1, submitted := s.submitted ++ [req] }) ∨
    (a = .setStop ∧ s.stopping = .idle ∧
      s' = { s with stopRequested := true, stopping := .flagged }) ∨
    (a = .join ∧ s.stopping = .notified ∧ s.worker = .exited ∧
      s' = { s with stopping := .joined }) ∨
    (∃ notices stopping, (a = .notifyOne ∧ stopping = s.stopping ∨
        a = .notifyAll ∧ s.stopping = .flagged ∧ stopping = .notified) ∧
      s' = { s with notices := notices, stopping := stopping, worker := s.worker.notify }) ∨
    (a = .spuriousWakeup ∧ s' = { s with worker := s.worker.notify }) ∨
    (a = .worker ∧ threadFunc loopTests s = some s') := by
  cases a with
  | push req =>
    left
    rw [queueStep] at h
    split at h
    · cases h
    · exact ⟨req, rfl, (Option.some.inj h).symm⟩
  | notifyOne =>
    right; right; right; left
    rw [queueStep] at h
    split at h
    · exact ⟨_, _, .inl ⟨rfl, rfl⟩, (Option.some.inj h).symm⟩
    · cases h
  | setStop =>
    right; left
    rw [queueStep] at h
    split at h
    next hidle => exact ⟨rfl, hidle, (Option.some.inj h).symm⟩
    next => cases h
  | notifyAll =>
    right; right; right; left
    rw [queueStep] at h
    split at h
    next hflag => exact ⟨_, _, .inr ⟨rfl, hflag, rfl⟩, (Option.some.inj h).symm⟩
    next => cases h
  | join =>
    right; right; left
    rw [queueStep] at h
    split at h
    next hnotified hexited => exact ⟨rfl, hnotified, hexited, (Option.some.inj h).symm⟩
    next => cases h
  | worker =>
    right; right; right; right; right
    exact ⟨rfl, h⟩
  | spuriousWakeup =>
    right; right; right; right; left
    rw [queueStep] at h
    split at h
    next hasleep =>
      refine ⟨rfl, ?_⟩
      rw [hasleep]
      exact (Option.some.inj h).symm
    next => cases h

/-! ### The invariant -/

/-- Requests are handed over in order, and the flag, `stop` and the worker agree. -/
structure WorkQueue.Sound (s : WorkQueue ρ) : Prop where
  fifo : s.submitted = s.processed ++ (s.worker.inHand ++ s.queue)
  flagged : s.stopRequested = true ↔ s.stopping ≠ .idle
  exited : s.worker = .exited → s.stopRequested = true
  joined : s.stopping = .joined → s.worker = .exited
  front : s.worker = .front → s.queue ≠ [] ∨ s.stopRequested = true

theorem sound_started : (WorkQueue.started : WorkQueue ρ).Sound := by
  refine ⟨rfl, ?_, ?_, ?_, ?_⟩ <;> simp [WorkQueue.started]

theorem sound_step {a : QueueAction ρ} (hs : s.Sound) (h : queueStep loopTests s a = some s') :
    s'.Sound := by
  rcases queueStep_callers h with ⟨req, -, rfl⟩ | ⟨-, -, rfl⟩ | ⟨-, hnotified, hexited, rfl⟩ |
    ⟨notices, stopping, hstopping, rfl⟩ | ⟨-, rfl⟩ | ⟨-, hthread⟩
  · refine ⟨?_, hs.flagged, hs.exited, hs.joined, fun _ => .inl (by simp)⟩
    show s.submitted ++ [req] = s.processed ++ (s.worker.inHand ++ (s.queue ++ [req]))
    rw [hs.fifo]
    simp only [List.append_assoc]
  · refine ⟨hs.fifo, ?_, fun _ => rfl, ?_, fun _ => .inr rfl⟩ <;> simp
  · refine ⟨hs.fifo, ?_, hs.exited, fun _ => hexited, hs.front⟩
    have hflag := hs.flagged
    simpa [hnotified] using hflag
  · refine ⟨by simpa using hs.fifo, ?_, fun he => hs.exited (notify_eq_exited.mp he), fun hj => ?_,
      fun hf => hs.front (notify_eq_front.mp hf)⟩
    · rcases hstopping with ⟨-, rfl⟩ | ⟨-, hflagged, rfl⟩
      · exact hs.flagged
      · have hflag := hs.flagged
        simpa [hflagged] using hflag
    · rcases hstopping with ⟨-, rfl⟩ | ⟨-, -, rfl⟩
      · exact notify_eq_exited.mpr (hs.joined hj)
      · cases hj
  · exact ⟨by simpa using hs.fifo, hs.flagged, fun he => hs.exited (notify_eq_exited.mp he),
      fun hj => notify_eq_exited.mpr (hs.joined hj), fun hf => hs.front (notify_eq_front.mp hf)⟩
  · obtain ⟨hsub, hflag, hstopping, hlog⟩ := threadFunc_frame hthread
    refine ⟨by rw [hsub, hlog, hs.fifo], by rw [hflag, hstopping, hs.flagged], fun he => ?_,
      fun hj => ?_, threadFunc_front hthread⟩
    · rw [hflag]
      exact (threadFunc_exited hthread he).1
    · -- a worker that has exited takes no step
      rw [hstopping] at hj
      rw [threadFunc, hs.joined hj] at hthread
      cases hthread

/-- The states that the queue can come to. -/
def Reached (loopTests : Bool) (s : WorkQueue ρ) : Prop :=
  ∃ acts, run (queueStep loopTests) .started acts = some s

theorem sound_of_reached (hs : Reached loopTests s) : s.Sound := by
  obtain ⟨acts, hrun⟩ := hs
  exact run_preserves (fun _ _ _ hi h => sound_step hi h) sound_started hrun

/-- A worker that is awake and has not exited has a next step: it never asks an empty queue for its
front. -/
theorem threadFunc_defined (hs : s.Sound) (hasleep : s.worker ≠ .asleep)
    (hexited : s.worker ≠ .exited) : ∃ s', threadFunc loopTests s = some s' := by
  obtain ⟨queue, stopRequested, worker, stopping, notices, submitted, processed⟩ := s
  cases worker with
  | asleep => exact absurd rfl hasleep
  | exited => exact absurd rfl hexited
  | front =>
    cases queue with
    | cons req rest => exact ⟨_, rfl⟩
    | nil =>
      obtain hne | hstop := hs.front rfl
      · exact absurd rfl hne
      · exact ⟨_, if_pos hstop⟩
  | loopTest | acquire | waitTest | goingToSleep | processing req => exact ⟨_, rfl⟩

/-! ### Requests that are still served after `stop` -/

/-- The worker takes a request, if there is one, before it comes to its loop condition again. -/
def Worker.willPop : Worker ρ → Bool
  | .acquire | .waitTest | .goingToSleep | .asleep | .front => true
  | .loopTest | .processing _ | .exited => false

theorem willPop_notify (w : Worker ρ) : w.notify.willPop = w.willPop := by
  cases w <;> rfl

/-- The requests that are processed before the worker comes to its loop condition again. -/
def WorkQueue.due (s : WorkQueue ρ) : List ρ :=
  s.processed ++ (s.worker.inHand ++ if s.worker.willPop then s.queue.take 1 else [])

/-- Once the flag is set, no step of the worker changes what is still processed. -/
theorem due_threadFunc (hstop : s.stopRequested = true) (h : threadFunc true s = some s') :
    s'.due = s.due := by
  unfold WorkQueue.due
  cases threadFunc_cases h with
  | wait _ _ hrun =>
    rw [hstop] at hrun
    cases hrun
  | enter _ hgo => exact absurd ⟨rfl, hstop⟩ hgo
  | leave hw | lock hw | proceed hw | release hw =>
    rw [hw]
    rfl
  | finish hw hempty | take hw hempty =>
    rw [hw, hempty]
    rfl
  | @done req hw =>
    rw [hw]
    show (s.processed ++ [req]) ++ ([] ++ []) = s.processed ++ ([req] ++ [])
    simp

/-- A push adds to what is still processed only where all of the queue is processed. -/
theorem due_push (hs : s.Sound) (req : ρ) {notices : ℕ} {submitted : List ρ}
    (h : s' = { s with queue := s.queue ++ [req], notices := notices, submitted := submitted }) :
    s'.due = s.due ∨ s.due = s.submitted ∧ s.due <+: s'.due := by
  subst h
  unfold WorkQueue.due
  by_cases hpop : s.worker.willPop
  · simp only [hpop, if_true]
    cases hqueue : s.queue with
    | nil =>
      right
      refine ⟨by simp [hs.fifo, hqueue], ?_⟩
      rw [List.prefix_append_right_inj, List.prefix_append_right_inj]
      exact List.nil_prefix
    | cons first rest =>
      left
      rfl
  · left
    simp only [hpop]
    rfl

/-- Whether the requests pushed before the flag was set are all due does not change any more. -/
structure Settled (before : List ρ) (served : Prop) (s : WorkQueue ρ) : Prop where
  sound : s.Sound
  stop : s.stopRequested = true
  pushed : before <+: s.submitted
  due : before <+: s.due ↔ served

theorem settled_step {before : List ρ} {served : Prop} {a : QueueAction ρ}
    (hs : Settled before served s) (h : vrfUdpStep s a = some s') : Settled before served s' := by
  have hsound := sound_step hs.sound h
  rcases queueStep_callers h with ⟨req, -, heq⟩ | ⟨-, hidle, -⟩ | ⟨-, -, -, rfl⟩ |
    ⟨notices, stopping, -, rfl⟩ | ⟨-, rfl⟩ | ⟨-, hthread⟩
  · have hpushed : before <+: s'.submitted := by
      rw [heq]
      exact hs.pushed.trans (List.prefix_append _ _)
    refine ⟨hsound, by rw [heq]; exact hs.stop, hpushed, ?_⟩
    rcases due_push hs.sound req heq with hdue | ⟨hall, hgrow⟩
    · rw [hdue]
      exact hs.due
    · have hserved : before <+: s.due := by
        rw [hall]
        exact hs.pushed
      exact ⟨fun _ => hs.due.mp hserved, fun _ => hserved.trans hgrow⟩
  · exact absurd hidle (hs.sound.flagged.mp hs.stop)
  · exact ⟨hsound, hs.stop, hs.pushed, hs.due⟩
  · refine ⟨hsound, hs.stop, hs.pushed, ?_⟩
    simpa [WorkQueue.due, willPop_notify] using hs.due
  · refine ⟨hsound, hs.stop, hs.pushed, ?_⟩
    simpa [WorkQueue.due, willPop_notify] using hs.due
  · obtain ⟨hsub, hflag, -, -⟩ := threadFunc_frame hthread
    refine ⟨hsound, by rw [hflag]; exact hs.stop, by rw [hsub]; exact hs.pushed, ?_⟩
    rw [due_threadFunc hs.stop hthread]
    exact hs.due

theorem settled_setStop (hs : s.Sound) (h : vrfUdpStep s .setStop = some s') :
    Settled s.submitted (s.queue = [] ∨ s.queue.length = 1 ∧ s.worker.willPop = true) s' := by
  have hsound := sound_step hs h
  rcases queueStep_callers h with ⟨_, heq, -⟩ | ⟨-, -, rfl⟩ | ⟨heq, -⟩ |
    ⟨_, _, ⟨heq, -⟩ | ⟨heq, -⟩, -⟩ | ⟨heq, -⟩ | ⟨heq, -⟩
  · cases heq
  · refine ⟨hsound, rfl, List.prefix_rfl, ?_⟩
    show s.submitted <+: s.due ↔ _
    rw [hs.fifo, WorkQueue.due, List.prefix_append_right_inj, List.prefix_append_right_inj]
    by_cases hpop : s.worker.willPop
    · rw [if_pos hpop]
      cases s.queue with
      | nil => simp
      | cons req rest => cases rest <;> simp [hpop]
    · rw [if_neg hpop]
      simp [hpop]
  all_goals cases heq

/-- **Shutdown of `VrfUdpClient`**: when `stop` returns, the requests pushed before it set the flag
have all been processed, each once and in order, exactly when the queue was empty at that moment, or
held one request and the worker had tested its loop condition for that one already. -/
theorem vrfUdp_stop_serves_iff (s s' t : WorkQueue ρ) (acts : List (QueueAction ρ))
    (hs : Reached true s) (hstop : vrfUdpStep s .setStop = some s')
    (hrun : run vrfUdpStep s' acts = some t) (hjoined : t.stopping = .joined) :
    (s.submitted <+: t.processed ∧ t.processed <+: t.submitted) ↔
      s.queue = [] ∨ s.queue.length = 1 ∧ s.worker.willPop = true := by
  have hsettled := run_preserves (fun _ _ _ hi h => settled_step hi h)
    (settled_setStop (sound_of_reached hs) hstop) hrun
  have hexited := hsettled.sound.joined hjoined
  have hdue : t.due = t.processed := by
    rw [WorkQueue.due, hexited]
    exact List.append_nil _
  have horder : t.processed <+: t.submitted := by
    rw [hsettled.sound.fifo]
    exact List.prefix_append _ _
  rw [← hdue, ← hsettled.due, hdue]
  exact and_iff_left horder

/-- One request is submitted and waits; `worker` is where the worker has come to. -/
def submittedOne (worker : Worker VrfsRouteRequest) : WorkQueue VrfsRouteRequest where
  queue := [oneVrf []]
  stopRequested := false
  worker := worker
  stopping := .idle
  notices := 0
  submitted := [oneVrf []]
  processed := []

/-- `stop` has returned. -/
def stoppedWith (queue processed : List VrfsRouteRequest) : WorkQueue VrfsRouteRequest where
  queue := queue
  stopRequested := true
  worker := .exited
  stopping := .joined
  notices := 0
  submitted := [oneVrf []]
  processed := processed

theorem reached_submittedOne_loopTest : Reached true (submittedOne .loopTest) :=
  ⟨[.push (oneVrf []), .notifyOne], rfl⟩

theorem reached_submittedOne_front : Reached true (submittedOne .front) :=
  ⟨[.push (oneVrf []), .notifyOne, .worker, .worker, .worker], rfl⟩

/-- The worker is about to take the request when the flag is set. -/
theorem vrfUdp_stop_serves_front :
    ∃ s', vrfUdpStep (submittedOne .front) .setStop = some s' ∧
      run vrfUdpStep s' [.worker, .notifyAll, .worker, .worker, .join] =
        some (stoppedWith [] [oneVrf []]) ∧
      ((submittedOne .front).submitted <+: (stoppedWith [] [oneVrf []]).processed ∧
        (stoppedWith [] [oneVrf []]).processed <+: (stoppedWith [] [oneVrf []]).submitted) :=
  ⟨_, rfl, rfl, (vrfUdp_stop_serves_iff (submittedOne .front) _ (stoppedWith [] [oneVrf []])
    [.worker, .notifyAll, .worker, .worker, .join] reached_submittedOne_front rfl rfl rfl).mpr
      (.inr ⟨rfl, rfl⟩)⟩

/-- A request is submitted and `stop` sets the flag before the worker first tests it. -/
theorem vrfUdp_stop_drops :
    ¬ ∀ (s s' t : WorkQueue VrfsRouteRequest) (acts : List (QueueAction VrfsRouteRequest)),
      Reached true s → s.notices = 0 → vrfUdpStep s .setStop = some s' →
        run vrfUdpStep s' acts = some t → t.stopping = .joined →
          s.submitted <+: t.processed ∧ t.processed <+: t.submitted := by
  intro hall
  have hserved := hall (submittedOne .loopTest) _ (stoppedWith [oneVrf []] [])
    [.worker, .notifyAll, .join] reached_submittedOne_loopTest rfl rfl rfl rfl
  exact absurd (List.prefix_nil.mp hserved.1) (List.cons_ne_nil _ _)

/-! ### The loop without a test -/

/-- Until `GrpcProc`'s worker has exited nothing is given up; then all that was pushed before is
processed. -/
structure Draining (before : List ρ) (s : WorkQueue ρ) : Prop where
  sound : s.Sound
  stop : s.stopRequested = true
  pushed : before <+: s.submitted
  drained : s.worker = .exited → before <+: s.processed

theorem draining_step {before : List ρ} {a : QueueAction ρ} (hs : Draining before s)
    (h : grpcProcStep s a = some s') : Draining before s' := by
  have hsound := sound_step hs.sound h
  rcases queueStep_callers h with ⟨req, -, rfl⟩ | ⟨-, hidle, -⟩ | ⟨-, -, -, rfl⟩ |
    ⟨notices, stopping, -, rfl⟩ | ⟨-, rfl⟩ | ⟨-, hthread⟩
  · exact ⟨hsound, hs.stop, hs.pushed.trans (List.prefix_append _ _), hs.drained⟩
  · exact absurd hidle (hs.sound.flagged.mp hs.stop)
  · exact ⟨hsound, hs.stop, hs.pushed, hs.drained⟩
  · exact ⟨hsound, hs.stop, hs.pushed, fun he => hs.drained (notify_eq_exited.mp he)⟩
  · exact ⟨hsound, hs.stop, hs.pushed, fun he => hs.drained (notify_eq_exited.mp he)⟩
  · obtain ⟨hsub, hflag, -, -⟩ := threadFunc_frame hthread
    refine ⟨hsound, by rw [hflag]; exact hs.stop, by rw [hsub]; exact hs.pushed, fun he => ?_⟩
    obtain ⟨-, rfl, ⟨-, hloop⟩ | ⟨hfront, hempty⟩⟩ := threadFunc_exited hthread he
    · cases hloop
    · -- the worker leaves with an empty queue, so all requests are processed
      have hall : s.submitted = s.processed := by
        rw [hs.sound.fifo, hfront, hempty]
        simp [Worker.inHand]
      show before <+: s.processed
      rw [← hall]
      exact hs.pushed

/-- **Shutdown of `GrpcProc`**: its loop does not test the flag, and what was pushed before the flag
was set is always processed when `stop` returns. -/
theorem grpcProc_stop_serves (s s' t : WorkQueue ρ) (acts : List (QueueAction ρ))
    (hs : Reached false s) (hstop : grpcProcStep s .setStop = some s')
    (hrun : run grpcProcStep s' acts = some t) (hjoined : t.stopping = .joined) :
    s.submitted <+: t.processed := by
  have hsound := sound_of_reached hs
  have hstart : Draining s.submitted s' := by
    rcases queueStep_callers hstop with ⟨_, heq, -⟩ | ⟨-, hidle, rfl⟩ | ⟨heq, -⟩ |
      ⟨_, _, ⟨heq, -⟩ | ⟨heq, -⟩, -⟩ | ⟨heq, -⟩ | ⟨heq, -⟩
    · cases heq
    · refine ⟨sound_step hsound hstop, rfl, List.prefix_rfl, fun he => ?_⟩
      exact absurd hidle (hsound.flagged.mp (hsound.exited he))
    all_goals cases heq
  have hdraining := run_preserves (fun _ _ _ hi h => draining_step hi h) hstart hrun
  exact hdraining.drained (hdraining.sound.joined hjoined)

end Rtsrv.Client
