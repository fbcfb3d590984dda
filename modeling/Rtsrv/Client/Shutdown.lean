import Rtsrv.Client.GrpcProc

/-!
# Rtsrv.Client.Shutdown — the notification of `stop` (`vrf_udp_client.cpp`, `grpc_proc.cpp`)

In both classes `stop` sets its flag and notifies without the mutex of the queue.  The worker tests its
wait predicate and falls asleep under that mutex, but in two steps: a notification between them wakes
nobody, and the worker then sleeps with nothing left to wake it.
-/

namespace Rtsrv.Client

open Lib CmdProto

variable {ρ : Type} {loopTests : Bool} {s s' : WorkQueue ρ}

/-- `stop` has set its flag and notified, the worker sleeps on an empty queue, and no `submit` has a
notification outstanding. -/
def WorkQueue.Stuck (s : WorkQueue ρ) : Prop :=
  s.stopping = .notified ∧ s.worker = .asleep ∧ s.queue = [] ∧ s.notices = 0

/-- The worker is not between its test of the wait predicate and its sleep when `stop` notifies. -/
def NotifiedAwake (s : WorkQueue ρ) (a : QueueAction ρ) : Prop :=
  a = .notifyAll → s.worker ≠ .goingToSleep

instance [DecidableEq ρ] (s : WorkQueue ρ) (a : QueueAction ρ) : Decidable (NotifiedAwake s a) :=
  inferInstanceAs (Decidable (_ → _))

/-! ### Steps of the worker around its sleep -/

/-- The worker falls asleep from `goingToSleep` only, and goes there only from a failed test. -/
theorem threadFunc_sleeps (h : threadFunc loopTests s = some s') :
    (s'.worker = .asleep → s.worker = .goingToSleep) ∧
      (s'.worker = .goingToSleep → s.queue = [] ∧ s.stopRequested = false ∧ s'.queue = []) := by
  cases threadFunc_cases h with
  | wait _ hempty hrun => exact ⟨nofun, fun _ => ⟨hempty, hrun, hempty⟩⟩
  | release hw => exact ⟨fun _ => hw, nofun⟩
  | leave | enter | lock | proceed | finish | take | done => exact ⟨nofun, nofun⟩

theorem notify_ne_asleep (w : Worker ρ) : w.notify ≠ .asleep := by
  cases w <;> simp [Worker.notify]

theorem notify_goingToSleep {w : Worker ρ} : w.notify = .goingToSleep ↔ w = .goingToSleep := by
  cases w <;> simp [Worker.notify]

theorem push_needs_mutex {req : ρ} (h : queueStep loopTests s (.push req) = some s') :
    s.worker.holdsMutex = false := by
  rw [queueStep] at h
  split at h
  · cases h
  next hfree => exact Bool.eq_false_iff.mpr hfree

/-! ### With the notification outside the window -/

/-- Once `stop` has notified, the worker neither sleeps nor is about to. -/
def WorkQueue.KeptAwake (s : WorkQueue ρ) : Prop :=
  s.stopping = .notified ∨ s.stopping = .joined →
    s.worker ≠ .asleep ∧ s.worker ≠ .goingToSleep

theorem keptAwake_step {a : QueueAction ρ} (hs : s.Sound ∧ s.KeptAwake) (hP : NotifiedAwake s a)
    (h : queueStep loopTests s a = some s') : s'.Sound ∧ s'.KeptAwake := by
  refine ⟨sound_step hs.1 h, ?_⟩
  rcases queueStep_callers h with ⟨req, -, rfl⟩ | ⟨-, -, rfl⟩ | ⟨-, hnotified, -, rfl⟩ |
    ⟨notices, stopping, hstopping, rfl⟩ | ⟨-, rfl⟩ | ⟨-, hthread⟩
  · exact hs.2
  · intro hst
    rcases hst with hst | hst <;> cases hst
  · intro _
    exact hs.2 (.inl hnotified)
  · intro hst
    refine ⟨notify_ne_asleep _, fun hw => ?_⟩
    rw [notify_goingToSleep] at hw
    rcases hstopping with ⟨-, rfl⟩ | ⟨rfl, -, -⟩
    · exact (hs.2 hst).2 hw
    · exact hP rfl hw
  · intro hst
    exact ⟨notify_ne_asleep _, fun hw => (hs.2 hst).2 (notify_goingToSleep.mp hw)⟩
  · intro hst
    obtain ⟨-, -, hstopping, -⟩ := threadFunc_frame hthread
    rw [hstopping] at hst
    obtain ⟨hsleep, htest⟩ := threadFunc_sleeps hthread
    have hstop : s.stopRequested = true := by
      rw [hs.1.flagged]
      rintro hidle
      rw [hidle] at hst
      rcases hst with hst | hst <;> cases hst
    refine ⟨fun hw => (hs.2 hst).2 (hsleep hw), fun hw => ?_⟩
    -- with the flag set the test of the predicate does not fail
    rw [(htest hw).2.1] at hstop
    cases hstop

/-! ### With the notification inside the window -/

/-- The worker keeps the mutex from its test to its sleep, so nothing is pushed in between. -/
def WorkQueue.SleepsEmpty (s : WorkQueue ρ) : Prop := s.worker = .goingToSleep → s.queue = []

theorem sleepsEmpty_step {a : QueueAction ρ} (hs : s.SleepsEmpty)
    (h : queueStep loopTests s a = some s') : s'.SleepsEmpty := by
  rcases queueStep_callers h with ⟨req, rfl, rfl⟩ | ⟨-, -, rfl⟩ | ⟨-, -, -, rfl⟩ |
    ⟨notices, stopping, -, rfl⟩ | ⟨-, rfl⟩ | ⟨-, hthread⟩
  · intro hw
    have hfree := push_needs_mutex h
    change s.worker = .goingToSleep at hw
    rw [hw] at hfree
    cases hfree
  · exact hs
  · exact hs
  · exact fun hw => hs (notify_goingToSleep.mp hw)
  · exact fun hw => hs (notify_goingToSleep.mp hw)
  · exact fun hw => ((threadFunc_sleeps hthread).2 hw).2.2

/-- The outstanding notifications come while the worker is awake, and wake nobody. -/
theorem run_notifyOnes (n : ℕ) (hw : s.worker = .goingToSleep) (hn : s.notices = n) :
    run (queueStep loopTests) s (List.replicate n .notifyOne) = some { s with notices := 0 } := by
  obtain ⟨queue, stopRequested, worker, stopping, notices, submitted, processed⟩ := s
  obtain rfl : worker = .goingToSleep := hw
  obtain rfl : notices = n := hn
  induction notices with
  | zero => rfl
  | succ n ih =>
    rw [List.replicate_succ]
    refine run_cons.mpr ⟨_, ?_, ih⟩
    rw [queueStep, if_pos (Nat.succ_pos n)]
    rfl

/-- From the window the worker can be put to sleep for good. -/
theorem stuck_of_goingToSleep (hempty : s.SleepsEmpty) (hw : s.worker = .goingToSleep)
    (h : queueStep loopTests s .notifyAll = some s') :
    ∃ acts t, run (queueStep loopTests) s' acts = some t ∧ t.Stuck := by
  have hs' : s' = { s with stopping := .notified } := by
    rw [queueStep] at h
    split at h
    · obtain rfl := Option.some.inj h
      rw [hw]
      rfl
    · cases h
  have hw' : s'.worker = .goingToSleep := by
    rw [hs']
    exact hw
  have hsleep : queueStep loopTests { s' with notices := 0 } .worker =
      some { s' with notices := 0, worker := .asleep } := by
    rw [queueStep, threadFunc, hw']
  refine ⟨List.replicate s'.notices .notifyOne ++ [.worker], _,
    run_append.mpr ⟨_, run_notifyOnes _ hw' rfl, run_cons.mpr ⟨_, hsleep, rfl⟩⟩, ?_⟩
  rw [hs']
  exact ⟨rfl, rfl, hempty hw, rfl⟩

/-- **Shutdown and the lost notification**, for either class: in a run in which `stop` never notifies
while the worker is between its test and its sleep, no state is stuck; and wherever `stop` does notify
there, the run can go on to a stuck state. -/
theorem stop_never_stuck (loopTests : Bool) (acts : List (QueueAction ρ)) (t : WorkQueue ρ)
    (hrun : run (queueStep loopTests) .started acts = some t) :
    (Along (queueStep loopTests) NotifiedAwake .started acts → ¬ t.Stuck) ∧
      (t.worker = .goingToSleep → ∀ t', queueStep loopTests t .notifyAll = some t' →
        ∃ more u, run (queueStep loopTests) t' more = some u ∧ u.Stuck) := by
  refine ⟨fun halong hstuck => ?_, fun hw t' h => ?_⟩
  · have hstart : (WorkQueue.started : WorkQueue ρ).KeptAwake := by
      rintro (hst | hst) <;> cases hst
    have hkept := (run_invariant (fun _ _ _ hi hP h => keptAwake_step hi hP h)
      ⟨sound_started, hstart⟩ halong hrun).2
    exact (hkept (.inl hstuck.1)).1 hstuck.2.1
  · have hempty : t.SleepsEmpty := by
      refine run_preserves (fun _ _ _ hi h => sleepsEmpty_step hi h) ?_ hrun
      intro hstart
      cases hstart
    exact stuck_of_goingToSleep hempty hw h

/-- The worker falls asleep, then `stop` is called. -/
def sleepThenStop : List (QueueAction GrpcRequest) :=
  [.worker, .worker, .worker, .worker, .setStop, .notifyAll, .worker, .worker, .worker, .join]

/-- The worker is asleep when `stop` notifies: it wakes up, leaves and is joined. -/
theorem stop_never_stuck_asleep :
    ∃ t, run grpcProcStep .started sleepThenStop = some t ∧ t.stopping = .joined ∧ ¬ t.Stuck :=
  ⟨_, rfl, rfl, (stop_never_stuck false sleepThenStop _ rfl).1 (by decide)⟩

/-- The worker has found the queue empty and not gone to sleep yet when `stop` sets its flag and
notifies, in the one class as in the other. -/
theorem stop_gets_stuck :
    (∃ t : WorkQueue VrfsRouteRequest, run vrfUdpStep .started
        [.worker, .worker, .worker, .setStop, .notifyAll, .worker] = some t ∧ t.Stuck) ∧
      ∃ t : WorkQueue GrpcRequest, run grpcProcStep .started
        [.worker, .worker, .worker, .setStop, .notifyAll, .worker] = some t ∧ t.Stuck :=
  ⟨⟨_, rfl, rfl, rfl, rfl, rfl⟩, ⟨_, rfl, rfl, rfl, rfl, rfl⟩⟩

end Rtsrv.Client
