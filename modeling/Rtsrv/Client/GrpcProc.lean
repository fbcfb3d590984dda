import Mathlib.Data.List.Perm.Basic
import Rtsrv.Client.WorkQueue
import Rtsrv.Lib.Keyed
import Rtsrv.Server.RouteManager

/-!
# Rtsrv.Client.GrpcProc — requests and responses of `GrpcProc` (`client/src/grpc_proc.cpp`)

`submit` draws an identifier from an atomic counter and pushes under one mutex; the worker takes a
request, runs its RPC without any mutex and stores the response under another; callers fetch responses
by identifier.  `grpcProc_accounts` says that in every interleaving each pushed identifier is in exactly
one place, and that a response belongs to the request it is handed out for.
-/

namespace Rtsrv.Client

open Lib
open Server (AddressFamily RouteProtocol)

/-! ### Payloads -/

inductive RequestPayload where
  | EchoParams (message : String)
  | HeartbeatParams (sequence : UInt64)
  | AddRouteParams (destination gateway interfaceName : String) (metric : UInt32)
      (family : AddressFamily) (protocol : RouteProtocol)
  | RemoveRouteParams (id : String)
  | GetRouteParams (id : String)
  | ListRoutesParams (activeOnly : Bool)
  | SetLoopbackParams (address : String)
  | GetLoopbackParams
  | GetLoopbacksParams (loopback : String)
  | RequestLoopbackParams
  | GetAllRoutesParams
  deriving DecidableEq, Repr

/-- The messages of the schema that a response carries; their classes are generated. -/
inductive Proto where
  | EchoResponse
  | HeartbeatResponse
  | Route
  | GetLoopbacksResponse
  | GetAllRoutesResponse
  deriving DecidableEq, Repr

variable {μ : Proto → Type}

inductive ResponsePayload (μ : Proto → Type) where
  | EchoResult (result : Except String (μ .EchoResponse))
  | HeartbeatResult (result : Except String (μ .HeartbeatResponse))
  | AddRouteResult (result : Except String (μ .Route))
  | RemoveRouteResult (result : Except String Unit)
  | GetRouteResult (result : Except String (μ .Route))
  | ListRoutesResult (result : Except String (List (μ .Route)))
  | SetLoopbackResult (result : Except String String)
  | GetLoopbackResult (result : Except String String)
  | GetLoopbacksResult (result : Except String (μ .GetLoopbacksResponse))
  | RequestLoopbackResult (result : Except String String)
  | GetAllRoutesResult (result : Except String (μ .GetAllRoutesResponse))

/-- The answers of the server at the moment of a call. -/
structure RouteClient (μ : Proto → Type) where
  echo : String → Except String (μ .EchoResponse)
  heartbeat : UInt64 → Except String (μ .HeartbeatResponse)
  addRoute : String → String → String → UInt32 → AddressFamily → RouteProtocol →
    Except String (μ .Route)
  removeRoute : String → Except String Unit
  getRoute : String → Except String (μ .Route)
  listRoutes : Bool → Except String (List (μ .Route))
  setLoopback : String → Except String String
  getLoopback : Except String String
  getLoopbacks : String → Except String (μ .GetLoopbacksResponse)
  requestLoopback : Except String String
  getAllRoutes : Except String (μ .GetAllRoutesResponse)

structure GrpcRequest where
  id : UInt64
  payload : RequestPayload
  deriving DecidableEq, Repr

structure GrpcResponse (μ : Proto → Type) where
  id : UInt64
  payload : ResponsePayload μ
  completedAt : ℤ

def dispatch (client_ : RouteClient μ) (req : GrpcRequest) : ResponsePayload μ :=
  match req.payload with
  | .EchoParams message => .EchoResult (client_.echo message)
  | .HeartbeatParams sequence => .HeartbeatResult (client_.heartbeat sequence)
  | .RemoveRouteParams id => .RemoveRouteResult (client_.removeRoute id)
  | .ListRoutesParams activeOnly => .ListRoutesResult (client_.listRoutes activeOnly)
  | .GetLoopbacksParams loopback => .GetLoopbacksResult (client_.getLoopbacks loopback)
  | .AddRouteParams destination gateway interfaceName metric family protocol =>
    .AddRouteResult (client_.addRoute destination gateway interfaceName metric family protocol)
  | .GetRouteParams id => .GetRouteResult (client_.getRoute id)
  | .SetLoopbackParams address => .SetLoopbackResult (client_.setLoopback address)
  | .GetLoopbackParams => .GetLoopbackResult client_.getLoopback
  | .RequestLoopbackParams => .RequestLoopbackResult client_.requestLoopback
  | .GetAllRoutesParams => .GetAllRoutesResult client_.getAllRoutes

/-- `index()` of the request variant. -/
def RequestPayload.index : RequestPayload → ℕ
  | .EchoParams _ => 0
  | .HeartbeatParams _ => 1
  | .AddRouteParams .. => 2
  | .RemoveRouteParams _ => 3
  | .GetRouteParams _ => 4
  | .ListRoutesParams _ => 5
  | .SetLoopbackParams _ => 6
  | .GetLoopbackParams => 7
  | .GetLoopbacksParams _ => 8
  | .RequestLoopbackParams => 9
  | .GetAllRoutesParams => 10

/-- `index()` of the response variant. -/
def ResponsePayload.index : ResponsePayload μ → ℕ
  | .EchoResult _ => 0
  | .HeartbeatResult _ => 1
  | .AddRouteResult _ => 2
  | .RemoveRouteResult _ => 3
  | .GetRouteResult _ => 4
  | .ListRoutesResult _ => 5
  | .SetLoopbackResult _ => 6
  | .GetLoopbackResult _ => 7
  | .GetLoopbacksResult _ => 8
  | .RequestLoopbackResult _ => 9
  | .GetAllRoutesResult _ => 10

/-- The active alternative of the response is that of the request. -/
theorem dispatch_index (client_ : RouteClient μ) (req : GrpcRequest) :
    (dispatch client_ req).index = req.payload.index := by
  unfold dispatch
  split <;> simp [ResponsePayload.index, RequestPayload.index, *]

/-! ### Steps -/

/-- `drawn` are the `submit` calls that have an identifier and have not pushed yet; `result` is what
`dispatch` returned and the worker has not stored.  The last five fields record what happened: the number
of identifiers drawn, the calls of `dispatch`, the responses handed out with the identifier asked for,
and what had been pushed when the worker last looked at the queue. -/
structure GrpcProc (μ : Proto → Type) where
  nextId : UInt64
  drawn : List GrpcRequest
  requests : WorkQueue GrpcRequest
  result : Option (ResponsePayload μ)
  responses : Keyed (GrpcResponse.id (μ := μ))
  draws : ℕ
  dispatched : List (GrpcRequest × ResponsePayload μ)
  collected : List (UInt64 × GrpcResponse μ)
  lastTest : List GrpcRequest

inductive GrpcAction (μ : Proto → Type) where
  | draw (payload : RequestPayload)
  | push (i : ℕ)
  | notifyOne
  | setStop
  | notifyAll
  | join
  | spuriousWakeup
  | worker
  | dispatch (client_ : RouteClient μ)
  | store (completedAt : ℤ)
  | collect (id : UInt64)

def GrpcProc.started : GrpcProc μ := ⟨1, [], .started, none, .empty, 0, [], [], []⟩

/-- The worker looks whether the queue is empty. -/
def Worker.testsQueue {ρ : Type} : Worker ρ → Bool
  | .waitTest | .front => true
  | _ => false

/-- The critical section of `tryGetResponse`, and of `waitForResponse` once its predicate holds or its
time is up. -/
def takeResponse (responses : Keyed (GrpcResponse.id (μ := μ))) (id : UInt64) :
    Option (GrpcResponse μ) × Keyed (GrpcResponse.id (μ := μ)) :=
  match responses.find id with
  | none => (none, responses)
  | some resp => (some resp, responses.erase id)

def GrpcProc.onRequests (s : GrpcProc μ) (a : QueueAction GrpcRequest) : Option (GrpcProc μ) :=
  (grpcProcStep s.requests a).map fun requests => { s with requests := requests }

def grpcStep (s : GrpcProc μ) : GrpcAction μ → Option (GrpcProc μ)
  | .draw payload =>
    some { s with
      nextId := s.nextId + 1
      drawn := s.drawn ++ [⟨s.nextId, payload⟩]
      draws := s.draws + 1 }
  | .push i =>
    match s.drawn[i]? with
    | none => none
    | some req => { s with drawn := s.drawn.eraseIdx i }.onRequests (.push req)
  | .notifyOne => s.onRequests .notifyOne
  | .setStop => s.onRequests .setStop
  | .notifyAll => s.onRequests .notifyAll
  | .join => s.onRequests .join
  | .spuriousWakeup => s.onRequests .spuriousWakeup
  | .worker =>
    match s.requests.worker with
    | .processing _ => none
    | w =>
      { s with lastTest := if w.testsQueue then s.requests.submitted else s.lastTest }.onRequests
        .worker
  | .dispatch client_ =>
    match s.requests.worker, s.result with
    | .processing req, none =>
      some { s with
        result := some (Client.dispatch client_ req)
        dispatched := s.dispatched ++ [(req, Client.dispatch client_ req)] }
    | _, _ => none
  | .store completedAt =>
    match s.requests.worker, s.result with
    | .processing req, some payload =>
      { s with
        result := none
        responses := s.responses.emplace ⟨req.id, payload, completedAt⟩ }.onRequests .worker
    | _, _ => none
  | .collect id =>
    let (resp, responses) := takeResponse s.responses id
    some { s with
      responses := responses
      collected := s.collected ++ resp.toList.map (id, ·) }

/-! ### What a step does to the queue -/

section Requests

variable {q q' : WorkQueue GrpcRequest}

/-- A call that is not a push leaves the log and the request in hand alone. -/
theorem grpcProcStep_caller {a : QueueAction GrpcRequest} (h : grpcProcStep q a = some q')
    (hpush : ∀ req, a ≠ .push req) (hworker : a ≠ .worker) :
    q'.submitted = q.submitted ∧ q'.processed = q.processed ∧
      (q'.worker = q.worker ∨ q'.worker = q.worker.notify) := by
  rcases queueStep_callers h with ⟨req, rfl, -⟩ | ⟨-, -, rfl⟩ | ⟨-, -, -, rfl⟩ |
    ⟨_, _, -, rfl⟩ | ⟨-, rfl⟩ | ⟨rfl, -⟩
  · exact absurd rfl (hpush req)
  · exact ⟨rfl, rfl, .inl rfl⟩
  · exact ⟨rfl, rfl, .inl rfl⟩
  · exact ⟨rfl, rfl, .inr rfl⟩
  · exact ⟨rfl, rfl, .inr rfl⟩
  · exact absurd rfl hworker

theorem grpcProcStep_push {req : GrpcRequest} (h : grpcProcStep q (.push req) = some q') :
    q'.submitted = q.submitted ++ [req] ∧ q'.processed = q.processed ∧ q'.worker = q.worker := by
  rcases queueStep_callers h with ⟨_, heq, rfl⟩ | ⟨heq, -⟩ | ⟨heq, -⟩ |
    ⟨_, _, ⟨heq, -⟩ | ⟨heq, -⟩, -⟩ | ⟨heq, -⟩ | ⟨heq, -⟩
  · obtain rfl := QueueAction.push.inj heq
    exact ⟨rfl, rfl, rfl⟩
  all_goals cases heq

theorem notify_processing {w : Worker GrpcRequest} {req : GrpcRequest} (h : w = .processing req) :
    w.notify = .processing req := by
  rw [h]
  rfl

/-- A worker without a request in hand adds nothing to what is processed. -/
theorem threadFunc_processed (h : threadFunc false q = some q')
    (hw : ∀ req, q.worker ≠ .processing req) : q'.processed = q.processed := by
  cases threadFunc_cases h with
  | done hprocessing => exact absurd hprocessing (hw _)
  | leave | enter | lock | proceed | wait | release | finish | take => rfl

/-- The worker leaves only after it has found the queue empty. -/
theorem threadFunc_leaves (hq : q.Sound) (h : threadFunc false q = some q')
    (hw : q'.worker = .exited) : q.worker.testsQueue = true ∧ q.submitted = q'.processed := by
  obtain ⟨-, rfl, ⟨-, hloop⟩ | ⟨hfront, hempty⟩⟩ := threadFunc_exited h hw
  · cases hloop
  · refine ⟨by rw [hfront]; rfl, ?_⟩
    rw [hq.fifo, hfront, hempty]
    simp [Worker.inHand]

end Requests

/-! ### The invariant -/

/-- The identifier of the `k`-th draw. -/
def ticket (k : ℕ) : UInt64 := UInt64.ofNat (k + 1)

theorem ticket_inj {j k : ℕ} (hj : j < 2 ^ 64) (hk : k < 2 ^ 64) (h : ticket j = ticket k) :
    j = k := by
  have hmod := congrArg UInt64.toNat h
  simp only [ticket, UInt64.toNat_ofNat'] at hmod
  omega

theorem ticket_succ (k : ℕ) : ticket k + 1 = ticket (k + 1) := by
  rw [← UInt64.toNat_inj, UInt64.toNat_add]
  simp only [ticket, UInt64.toNat_ofNat', UInt64.reduceToNat]
  omega

/-- What is known of every state, as long as the counter has not wrapped around.  Since the queue is
first in, first out, it is enough to account for the requests whose response has been stored. -/
structure GrpcProc.Accounted (s : GrpcProc μ) : Prop where
  sound : s.requests.Sound
  next : s.nextId = ticket s.draws
  tickets : ∀ req ∈ s.drawn ++ s.requests.submitted, ∃ k < s.draws, req.id = ticket k
  distinct : ((s.drawn ++ s.requests.submitted).map GrpcRequest.id).Nodup
  settled : (s.requests.processed.map GrpcRequest.id).Perm
    (s.responses.rows.map GrpcResponse.id ++ s.collected.map Prod.fst)
  order : s.dispatched.map Prod.fst =
    s.requests.processed ++ if s.result.isSome then s.requests.worker.inHand else []
  hand : ∀ payload, s.result = some payload →
    ∃ req, s.requests.worker = .processing req ∧ (req, payload) ∈ s.dispatched
  answers : ∀ p ∈ s.dispatched, ∃ client_ : RouteClient μ, p.2 = dispatch client_ p.1
  stored : ∀ resp ∈ s.responses.rows, ∃ req, (req, resp.payload) ∈ s.dispatched ∧ req.id = resp.id
  handed : ∀ p ∈ s.collected, p.2.id = p.1 ∧
    ∃ req, (req, p.2.payload) ∈ s.dispatched ∧ req.id = p.1
  drained : s.requests.worker = .exited → s.lastTest <+: s.requests.processed

theorem accounted_started : (GrpcProc.started : GrpcProc μ).Accounted where
  sound := sound_started
  next := rfl
  tickets := by simp [GrpcProc.started, WorkQueue.started]
  distinct := List.nodup_nil
  settled := List.Perm.nil
  order := rfl
  hand := fun _ h => by cases h
  answers := fun _ h => by cases h
  stored := fun _ h => by cases h
  handed := fun _ h => by cases h
  drained := fun h => by cases h

variable {s s' : GrpcProc μ}

/-- A step of the queue that stores nothing and keeps the request in hand. -/
theorem accounted_requests {drawn lastTest : List GrpcRequest} {q : WorkQueue GrpcRequest}
    (hs : s.Accounted) (hsound : q.Sound)
    (hissued : (drawn ++ q.submitted).Perm (s.drawn ++ s.requests.submitted))
    (hprocessed : q.processed = s.requests.processed)
    (hhand : ∀ req, s.requests.worker = .processing req → q.worker = .processing req)
    (hdrained : q.worker = .exited → lastTest <+: q.processed) :
    { s with drawn := drawn, requests := q, lastTest := lastTest : GrpcProc μ }.Accounted where
  sound := hsound
  next := hs.next
  tickets := fun req hreq => hs.tickets req (hissued.mem_iff.mp hreq)
  distinct := (hissued.map _).nodup_iff.mpr hs.distinct
  settled := by
    show (q.processed.map _).Perm _
    rw [hprocessed]
    exact hs.settled
  order := by
    show s.dispatched.map Prod.fst = q.processed ++ if s.result.isSome then q.worker.inHand else []
    rw [hs.order, hprocessed]
    rcases hres : s.result with _ | payload
    · rfl
    · obtain ⟨req, hw, -⟩ := hs.hand payload hres
      rw [hw, hhand req hw]
  hand := fun payload hres => by
    obtain ⟨req, hw, hmem⟩ := hs.hand payload hres
    exact ⟨req, hhand req hw, hmem⟩
  answers := hs.answers
  stored := hs.stored
  handed := hs.handed
  drained := hdrained

theorem onRequests_some {a : QueueAction GrpcRequest} (h : s.onRequests a = some s') :
    ∃ q, grpcProcStep s.requests a = some q ∧ s' = { s with requests := q } := by
  rw [GrpcProc.onRequests, Option.map_eq_some_iff] at h
  obtain ⟨q, hq, rfl⟩ := h
  exact ⟨q, hq, rfl⟩

theorem accounted_draw (hs : s.Accounted) (hdraws : s.draws + 1 < 2 ^ 64)
    (payload : RequestPayload) :
    { s with
      nextId := s.nextId + 1
      drawn := s.drawn ++ [⟨s.nextId, payload⟩]
      draws := s.draws + 1 : GrpcProc μ }.Accounted where
  sound := hs.sound
  next := by
    show s.nextId + 1 = ticket (s.draws + 1)
    rw [hs.next, ticket_succ]
  tickets := by
    intro req hreq
    simp only [List.append_assoc, List.mem_append, List.mem_singleton] at hreq
    have hold := hs.tickets req
    rw [List.mem_append] at hold
    rcases hreq with h | rfl | h
    · obtain ⟨k, hk, hid⟩ := hold (.inl h)
      exact ⟨k, Nat.lt_succ_of_lt hk, hid⟩
    · exact ⟨s.draws, Nat.lt_succ_self _, hs.next⟩
    · obtain ⟨k, hk, hid⟩ := hold (.inr h)
      exact ⟨k, Nat.lt_succ_of_lt hk, hid⟩
  distinct := by
    have hfresh : s.nextId ∉ (s.drawn ++ s.requests.submitted).map GrpcRequest.id := by
      intro hmem
      obtain ⟨req, hreq, hid⟩ := List.mem_map.mp hmem
      obtain ⟨k, hk, htk⟩ := hs.tickets req hreq
      have hsame : k = s.draws :=
        ticket_inj (by omega) (by omega) (htk.symm.trans (hid.trans hs.next))
      omega
    have hperm : (s.drawn ++ [(⟨s.nextId, payload⟩ : GrpcRequest)] ++ s.requests.submitted).Perm
        ((⟨s.nextId, payload⟩ : GrpcRequest) :: (s.drawn ++ s.requests.submitted)) := by
      rw [List.append_assoc]
      exact List.perm_middle
    exact (hperm.map _).nodup_iff.mpr (List.nodup_cons.mpr ⟨hfresh, hs.distinct⟩)
  settled := hs.settled
  order := hs.order
  hand := hs.hand
  answers := hs.answers
  stored := hs.stored
  handed := hs.handed
  drained := hs.drained

theorem accounted_push {i : ℕ} (hs : s.Accounted) (h : grpcStep s (.push i) = some s') :
    s'.Accounted := by
  rw [grpcStep] at h
  rcases hi : s.drawn[i]? with _ | req
  · rw [hi] at h
    cases h
  · rw [hi] at h
    obtain ⟨q, hq, rfl⟩ := onRequests_some h
    obtain ⟨hsub, hproc, hw⟩ := grpcProcStep_push hq
    obtain ⟨hlt, rfl⟩ := List.getElem?_eq_some_iff.mp hi
    refine accounted_requests (s := s) hs (sound_step hs.sound hq) ?_ hproc (fun req hr => hw.trans hr) ?_
    · rw [hsub, ← List.append_assoc]
      refine (List.perm_append_comm.trans ?_)
      rw [← List.append_assoc, List.singleton_append]
      exact (List.getElem_cons_eraseIdx_perm hlt).append_right _
    · intro he
      rw [hproc]
      exact hs.drained (hw.symm.trans he)

theorem accounted_caller {a : QueueAction GrpcRequest} (hs : s.Accounted)
    (hpush : ∀ req, a ≠ .push req) (hworker : a ≠ .worker) (h : s.onRequests a = some s') :
    s'.Accounted := by
  obtain ⟨q, hq, rfl⟩ := onRequests_some h
  obtain ⟨hsub, hproc, hw⟩ := grpcProcStep_caller hq hpush hworker
  refine accounted_requests (s := s) hs (sound_step hs.sound hq) ?_ hproc (fun req hr => ?_) (fun he => ?_)
  · rw [hsub]
  · rcases hw with hw | hw
    · exact hw.trans hr
    · rw [hw]
      exact notify_processing hr
  · rw [hproc]
    rcases hw with hw | hw
    · exact hs.drained (hw.symm.trans he)
    · exact hs.drained (notify_eq_exited.mp (hw.symm.trans he))

/-- A step of the worker outside of `dispatch` and of storing. -/
theorem accounted_worker (hs : s.Accounted) (h : grpcStep s .worker = some s') : s'.Accounted := by
  have hw : ∀ req, s.requests.worker ≠ .processing req := by
    intro req hr
    rw [grpcStep, hr] at h
    cases h
  have hon : { s with
      lastTest := if s.requests.worker.testsQueue then s.requests.submitted else s.lastTest :
        GrpcProc μ }.onRequests .worker = some s' := by
    rw [grpcStep] at h
    split at h
    next hr => exact absurd hr (hw _)
    next => exact h
  obtain ⟨q, hq, rfl⟩ := onRequests_some hon
  have hsub := (threadFunc_frame hq).1
  have hproc := threadFunc_processed hq hw
  refine accounted_requests (s := s) hs (sound_step hs.sound hq) ?_ hproc (fun req hr => ?_) (fun he => ?_)
  · rw [hsub]
  · exact absurd hr (hw req)
  · obtain ⟨htest, hall⟩ := threadFunc_leaves hs.sound hq he
    have hlast : (if s.requests.worker.testsQueue then s.requests.submitted else s.lastTest) =
        q.processed := (if_pos htest).trans hall
    exact ⟨[], (List.append_nil _).trans hlast⟩

theorem accounted_dispatch {client_ : RouteClient μ} (hs : s.Accounted)
    (h : grpcStep s (.dispatch client_) = some s') : s'.Accounted := by
  rw [grpcStep] at h
  split at h
  next req hw hres =>
    obtain rfl := Option.some.inj h
    have horder := hs.order
    rw [hres, Option.isSome_none, if_neg Bool.false_ne_true, List.append_nil] at horder
    have hmono : ∀ p ∈ s.dispatched, p ∈ s.dispatched ++ [(req, dispatch client_ req)] :=
      fun p hp => List.mem_append_left _ hp
    refine ⟨hs.sound, hs.next, hs.tickets, hs.distinct, hs.settled, ?_, ?_, ?_, ?_, ?_, hs.drained⟩
    · show (s.dispatched ++ [(req, dispatch client_ req)]).map Prod.fst =
        s.requests.processed ++ s.requests.worker.inHand
      rw [List.map_append, horder, hw]
      rfl
    · intro payload hpayload
      obtain rfl := Option.some.inj hpayload
      exact ⟨req, hw, List.mem_append_right _ (List.mem_singleton.mpr rfl)⟩
    · intro p hp
      rcases List.mem_append.mp hp with hp | hp
      · exact hs.answers p hp
      · rw [List.mem_singleton.mp hp]
        exact ⟨client_, rfl⟩
    · intro resp hresp
      obtain ⟨r, hr, hid⟩ := hs.stored resp hresp
      exact ⟨r, hmono _ hr, hid⟩
    · intro p hp
      obtain ⟨hkey, r, hr, hid⟩ := hs.handed p hp
      exact ⟨hkey, r, hmono _ hr, hid⟩
  next => cases h

theorem accounted_store {completedAt : ℤ} (hs : s.Accounted)
    (h : grpcStep s (.store completedAt) = some s') : s'.Accounted := by
  rw [grpcStep] at h
  split at h
  next req payload hw hres =>
    obtain ⟨q, hq, rfl⟩ := onRequests_some h
    have hsound := sound_step hs.sound hq
    have hq' : q = { s.requests with
        worker := .loopTest, processed := s.requests.processed ++ [req] } := by
      change threadFunc false s.requests = some q at hq
      rw [threadFunc, hw] at hq
      exact (Option.some.inj hq).symm
    obtain ⟨r, hr, hmem⟩ := hs.hand payload hres
    obtain rfl : r = req := Worker.processing.inj (hr.symm.trans hw)
    have hfifo := hs.sound.fifo
    rw [hw, Worker.inHand] at hfifo
    -- the identifier in hand is not among those of the requests that are settled
    have hfresh : r.id ∉ s.responses.rows.map GrpcResponse.id := by
      intro hin
      have hdistinct := hs.distinct
      rw [List.map_append, List.nodup_append', hfifo, List.map_append, List.nodup_append'] at hdistinct
      have hproc : r.id ∈ s.requests.processed.map GrpcRequest.id :=
        hs.settled.mem_iff.mpr (List.mem_append_left _ hin)
      exact hdistinct.2.1.2.2 hproc (by simp)
    have hrows := Keyed.emplace_fresh (v := (⟨r.id, payload, completedAt⟩ : GrpcResponse μ)) hfresh
    subst hq'
    refine ⟨hsound, hs.next, hs.tickets, hs.distinct, ?_, ?_, ?_, hs.answers, ?_, hs.handed, ?_⟩
    · show ((s.requests.processed ++ [r]).map GrpcRequest.id).Perm _
      rw [hrows, List.map_append, List.map_append, List.append_assoc]
      refine (List.perm_append_comm.trans ?_)
      refine (hs.settled.cons r.id).trans ?_
      exact List.perm_middle.symm
    · show s.dispatched.map Prod.fst = s.requests.processed ++ [r] ++ []
      rw [List.append_nil, hs.order, hres, hw]
      rfl
    · intro p hp
      cases hp
    · intro resp hresp
      rw [hrows] at hresp
      rcases List.mem_append.mp hresp with hresp | hresp
      · exact hs.stored resp hresp
      · rw [List.mem_singleton.mp hresp]
        exact ⟨r, hmem, rfl⟩
    · intro he
      cases he
  next => cases h

theorem accounted_collect {id : UInt64} (hs : s.Accounted)
    (h : grpcStep s (.collect id) = some s') : s'.Accounted := by
  rw [grpcStep, takeResponse] at h
  rcases hfind : s.responses.find id with _ | resp
  · rw [hfind] at h
    obtain rfl := Option.some.inj h
    simpa using hs
  · rw [hfind] at h
    obtain rfl := Option.some.inj h
    obtain ⟨hresp, hid⟩ := Keyed.find_eq_some.mp hfind
    refine ⟨hs.sound, hs.next, hs.tickets, hs.distinct, ?_, hs.order, hs.hand, hs.answers, ?_, ?_,
      hs.drained⟩
    · refine hs.settled.trans ?_
      show List.Perm _ ((s.responses.erase id).rows.map GrpcResponse.id ++
        (s.collected ++ [(id, resp)]).map Prod.fst)
      rw [List.map_append, ← List.append_assoc]
      have hperm := (Keyed.perm_erase hfind).map GrpcResponse.id
      rw [List.map_cons, hid] at hperm
      exact (hperm.append_right _).trans (List.perm_append_singleton id _).symm
    · intro r hr
      exact hs.stored r (Keyed.mem_erase.mp hr).1
    · intro p hp
      rcases List.mem_append.mp hp with hp | hp
      · exact hs.handed p hp
      · obtain rfl : p = (id, resp) := List.mem_singleton.mp hp
        obtain ⟨req, hreq, hreqid⟩ := hs.stored resp hresp
        exact ⟨hid, req, hreq, hreqid.trans hid⟩

theorem draws_onRequests {a : QueueAction GrpcRequest} (h : s.onRequests a = some s') :
    s.draws = s'.draws := by
  obtain ⟨q, -, rfl⟩ := onRequests_some h
  rfl

/-- Only drawing counts up. -/
theorem draws_step {a : GrpcAction μ} (h : grpcStep s a = some s') :
    s'.draws = s.draws + 1 ∨ s'.draws = s.draws := by
  cases a with
  | draw payload =>
    obtain rfl := Option.some.inj h
    exact .inl rfl
  | push i =>
    rw [grpcStep] at h
    split at h
    · cases h
    · exact .inr (draws_onRequests h).symm
  | notifyOne | setStop | notifyAll | join | spuriousWakeup =>
    exact .inr (draws_onRequests h).symm
  | worker =>
    rw [grpcStep] at h
    split at h
    · cases h
    · exact .inr (draws_onRequests h).symm
  | dispatch client_ =>
    rw [grpcStep] at h
    split at h
    · obtain rfl := Option.some.inj h
      exact .inr rfl
    · cases h
  | store completedAt =>
    rw [grpcStep] at h
    split at h
    · exact .inr (draws_onRequests h).symm
    · cases h
  | collect id =>
    obtain rfl := Option.some.inj h
    exact .inr rfl

theorem accounted_step {a : GrpcAction μ} (hs : s.Accounted) (hdraws : s'.draws < 2 ^ 64)
    (h : grpcStep s a = some s') : s'.Accounted := by
  cases a with
  | draw payload =>
    obtain rfl := Option.some.inj h
    exact accounted_draw hs hdraws payload
  | push i => exact accounted_push hs h
  | notifyOne | setStop | notifyAll | join | spuriousWakeup =>
    exact accounted_caller hs (fun _ he => by cases he) (fun he => by cases he) h
  | worker => exact accounted_worker hs h
  | dispatch client_ => exact accounted_dispatch hs h
  | store completedAt => exact accounted_store hs h
  | collect id => exact accounted_collect hs h

theorem accounted_run {acts : List (GrpcAction μ)} (hrun : run grpcStep .started acts = some s)
    (hdraws : s.draws < 2 ^ 64) : s.Accounted := by
  have hstep : ∀ (s : GrpcProc μ) a s', (s.draws < 2 ^ 64 → s.Accounted) →
      grpcStep s a = some s' → s'.draws < 2 ^ 64 → s'.Accounted := by
    intro s a s' ih h hdraws
    have hle : s.draws ≤ s'.draws := by
      rcases draws_step h with hcount | hcount <;> omega
    exact accounted_step (ih (by omega)) hdraws h
  exact run_preserves hstep (fun _ => accounted_started) hrun hdraws

/-! ### Nothing lost, duplicated or mixed up -/

/-- Where a pushed identifier can be. -/
def GrpcProc.places (s : GrpcProc μ) : List UInt64 :=
  s.requests.queue.map GrpcRequest.id ++ s.requests.worker.inHand.map GrpcRequest.id ++
    s.responses.rows.map GrpcResponse.id ++ s.collected.map Prod.fst

theorem places_perm (hs : s.Accounted) :
    s.places.Perm (s.requests.submitted.map GrpcRequest.id) := by
  rw [hs.sound.fifo, List.map_append, List.map_append, GrpcProc.places, List.append_assoc]
  refine (List.perm_append_comm.append hs.settled.symm).trans ?_
  exact List.perm_append_comm

/-- **`GrpcProc` loses, duplicates and mixes up nothing.**  In every state that fewer than `2 ^ 64`
submissions lead to: the identifiers pushed are distinct, and they are those queued, being dispatched,
stored or collected, each in one place; requests are dispatched in the order of their pushes; a response
handed out is what `dispatch` returned for the one request pushed under the identifier asked for; and a
worker that has exited has dispatched all that had been pushed when it last looked at the queue. -/
theorem grpcProc_accounts (s : GrpcProc μ) (acts : List (GrpcAction μ))
    (hrun : run grpcStep .started acts = some s) (hdraws : s.draws < 2 ^ 64) :
    (s.requests.submitted.map GrpcRequest.id).Nodup ∧
      s.places.Perm (s.requests.submitted.map GrpcRequest.id) ∧
      s.dispatched.map Prod.fst <+: s.requests.submitted ∧
      (∀ id resp, (id, resp) ∈ s.collected → resp.id = id ∧
        ∃ req ∈ s.requests.submitted, req.id = id ∧
          (∀ other ∈ s.requests.submitted, other.id = id → other = req) ∧
          (req, resp.payload) ∈ s.dispatched ∧
          ∃ client_ : RouteClient μ, resp.payload = dispatch client_ req) ∧
      (s.requests.worker = .exited →
        ∀ req ∈ s.lastTest, req ∈ s.dispatched.map Prod.fst) := by
  have hs := accounted_run hrun hdraws
  have hnodup : (s.requests.submitted.map GrpcRequest.id).Nodup := by
    have h := hs.distinct
    rw [List.map_append, List.nodup_append'] at h
    exact h.2.1
  have horder : s.dispatched.map Prod.fst <+: s.requests.submitted := by
    rw [hs.order, hs.sound.fifo, List.prefix_append_right_inj]
    split
    · exact List.prefix_append _ _
    · exact List.nil_prefix
  refine ⟨hnodup, places_perm hs, horder, fun id resp hmem => ?_, fun he req hreq => ?_⟩
  · obtain ⟨hid, req, hdisp, hreqid⟩ := hs.handed (id, resp) hmem
    have hsub : req ∈ s.requests.submitted :=
      horder.subset (List.mem_map.mpr ⟨_, hdisp, rfl⟩)
    refine ⟨hid, req, hsub, hreqid, fun other hother hoid => ?_, hdisp, hs.answers _ hdisp⟩
    exact List.inj_on_of_nodup_map hnodup hother hsub (hoid.trans hreqid.symm)
  · rw [hs.order]
    exact List.mem_append_left _ ((hs.drained he).subset hreq)

/-- A server that answers every call, with messages that carry nothing. -/
def silentClient : RouteClient (fun _ => Unit) where
  echo := fun _ => .ok ()
  heartbeat := fun _ => .ok ()
  addRoute := fun _ _ _ _ _ _ => .ok ()
  removeRoute := fun _ => .ok ()
  getRoute := fun _ => .ok ()
  listRoutes := fun _ => .ok []
  setLoopback := fun _ => .ok ""
  getLoopback := .ok ""
  getLoopbacks := fun _ => .ok ()
  requestLoopback := .ok ""
  getAllRoutes := .ok ()

/-- One echo from `submit` to `tryGetResponse`, with a second call still to push. -/
def echoRun : List (GrpcAction fun _ => Unit) :=
  [.draw (.EchoParams "hello"), .draw .GetLoopbackParams, .push 0, .notifyOne, .worker, .worker,
    .worker, .worker, .dispatch silentClient, .collect 1, .store 0, .collect 1]

theorem grpcProc_accounts_echo :
    ∃ s, run grpcStep .started echoRun = some s ∧ s.collected.map Prod.fst = [1] ∧
      s.places.Perm (s.requests.submitted.map GrpcRequest.id) :=
  ⟨_, rfl, rfl, (grpcProc_accounts _ echoRun rfl (by decide)).2.1⟩

end Rtsrv.Client
