import Rtsrv.Client.RouteKernel
import Rtsrv.Client.VrfReply
import Rtsrv.Client.VrfTable
import Rtsrv.Client.WorkQueue

/-!
# Rtsrv.Client.VrfSession — from the source of truth to the routes of the kernel (`main.cpp`)

The `run` command takes what the server has for the switch, submits one request for all of its nni
interfaces, and one more on every nexthop event.  A worker sends the requests, and whatever arrives of them
is decoded and installed by the other side at its own pace.  Over any order of these steps the kernel gets
no route but those of the switch's own node, and once the first request is handled it has all of them.
-/

namespace Rtsrv.Client

open Lib UdProto RouteProto CmdProto Server Config Config.Srmd Netlink

/-! ### What arrives -/

/-- The request in the bytes of one connection, by the decoders of the libraries. -/
def carriedRequest (bytes : Bytes) : Option VrfsRouteRequest := do
  let pkt ← (decodePacket bytes).toOption
  let msg ← (decodeMessage pkt.data).toOption
  let ed ← (decodeExchange msg.payload).toOption
  match ← (decodeCommands ed.commands).toOption with
  | [cmd] => if cmd.cmd_id = .ROUTE_ADD then (decodeVrfsRouteRequest cmd.raw_payload).toOption else none
  | _ => none

theorem toOption_eq_some {ε α : Type} {x : Except ε α} {a : α} : x.toOption = some a ↔ x = .ok a := by
  cases x with
  | error e => exact iff_of_false (fun h => by cases h) fun h => by cases h
  | ok b => simp [Except.toOption]

theorem carriedRequest_iff {bytes : Bytes} {req : VrfsRouteRequest} :
    carriedRequest bytes = some req ↔ Delivers bytes req := by
  simp only [carriedRequest, Option.bind_eq_bind, Option.bind_eq_some_iff, toOption_eq_some]
  constructor
  · rintro ⟨pkt, hpkt, msg, hmsg, ed, hed, cmds, hcmds, h⟩
    split at h
    next cmd =>
      split_ifs at h with hid
      exact ⟨pkt, msg, ed, cmd, hpkt, hmsg, hed, hcmds, hid, toOption_eq_some.mp h⟩
    next => cases h
  · rintro ⟨pkt, msg, ed, cmd, hpkt, hmsg, hed, hcmds, hid, hreq⟩
    exact ⟨pkt, hpkt, msg, hmsg, ed, hed, [cmd], hcmds, (if_pos hid).trans (toOption_eq_some.mpr hreq)⟩

/-- A first part of a frame that can be decoded is the whole frame. -/
theorem whole_of_decoded {bytes raw : Bytes} {pkt : Packet} (hpkt : decodePacket bytes = .ok pkt)
    (h : bytes <+: frame raw) : bytes = frame raw := by
  obtain ⟨inner, rfl, -, -⟩ := decodePacket_ok.mp hpkt
  have hinner : inner ++ [FRAME_DELIM] <+: stuff raw ++ [FRAME_DELIM] := (List.cons_prefix_cons.mp h).2
  rcases List.prefix_concat_iff.mp hinner with heq | hpart
  · rw [heq, frame]
  · -- a delimiter inside would be a stuffed byte
    exact absurd (hpart.subset (List.mem_append_right inner (List.mem_singleton_self _)))
      (delim_notMem_stuff raw)

/-- What an exchange hands over is a first part of the request's frame. -/
theorem processRequest_sent {req : VrfsRouteRequest} {msg_id : UInt16} {frm : Bytes}
    (h : requestFrame msg_id req = .ok frm) (env : Env) : (processRequest msg_id req env).2 <+: frm := by
  rw [processRequest, h]
  show (exchangeFrame frm env).2 <+: _
  have hhanded := (sendLoop_handed SendRound.step env.send frm).1
  rw [← nbSendAll_eq] at hhanded
  unfold exchangeFrame
  split_ifs
  · exact List.nil_prefix
  · exact List.nil_prefix
  · cases nbConnect env.connect with
    | error e => exact List.nil_prefix
    | ok u =>
      rcases hsend : nbSendAll env.send frm with ⟨progress, sent⟩
      rw [hsend] at hhanded
      cases progress with
      | waiting => exact hhanded
      | failed e => exact hhanded
      | done u => cases nbRecvFrame env.recv [] <;> exact hhanded

theorem Delivers.unique {bytes : Bytes} {req req' : VrfsRouteRequest} (h : Delivers bytes req)
    (h' : Delivers bytes req') : req = req' :=
  Option.some.inj ((carriedRequest_iff.mpr h).symm.trans (carriedRequest_iff.mpr h'))

/-- The empty command that is sent for a refused request carries none. -/
theorem not_delivers_emptyRouteAdd (msg_id : UInt16) (req : VrfsRouteRequest) :
    ¬ Delivers (commandFrame msg_id [0x01, 0x00, 0x00]) req := by
  rintro ⟨pkt, msg, ed, cmd, hpkt, hmsg, hed, hcmds, -, hreq⟩
  obtain ⟨hpkt', hmsg'⟩ := decode_commandFrame msg_id [0x01, 0x00, 0x00]
  obtain rfl := Except.ok.inj (hpkt'.symm.trans hpkt)
  obtain rfl := Except.ok.inj (hmsg'.symm.trans hmsg)
  have hblock : decodeExchange (exchangeBlock [0x01, 0x00, 0x00]) = .ok ⟨3, [0x01, 0x00, 0x00]⟩ :=
    decodeExchange_ok.mpr ⟨by decide, rfl, rfl⟩
  obtain rfl := Except.ok.inj (hblock.symm.trans hed)
  have hempty : decodeCommands [0x01, 0x00, 0x00] = .ok [emptyRouteAdd] := rfl
  obtain rfl := List.singleton_inj.mp (Except.ok.inj (hempty.symm.trans hcmds))
  cases hreq

/-- Of the bytes that one exchange hands over, a request arrives only whole and as it was submitted. -/
theorem delivers_sent {req req' : VrfsRouteRequest} {msg_id : UInt16} {env : Env}
    (h : Delivers (processRequest msg_id req env).2 req') : req' = req := by
  obtain ⟨pkt, hpkt⟩ : ∃ pkt, decodePacket (processRequest msg_id req env).2 = .ok pkt := by
    obtain ⟨pkt, -, -, -, hpkt, -⟩ := h
    exact ⟨pkt, hpkt⟩
  cases henc : encodeVrfsRouteRequest req with
  | error e =>
    rw [whole_of_decoded hpkt (processRequest_sent (requestFrame_of_refused henc msg_id) env)] at h
    exact absurd h (not_delivers_emptyRouteAdd msg_id req')
  | ok payload =>
    obtain ⟨hvalid, -⟩ := (encodeVrfsRouteRequest_writes req payload).mp henc
    rw [whole_of_decoded hpkt (processRequest_sent (requestFrame_of_valid hvalid msg_id) env)] at h
    exact h.unique (delivers_of_size hvalid msg_id (size_of_delivers h))

/-! ### The session -/

/-- What `ud_server`, whose main program is not in the repository, does with the bytes of a connection: it
hands a request that the decoders find to `handle_vrfs_route_request`, and drops anything else. -/
structure UdServer (K : RouteKernel) (if_nametoindex : CString → Option UInt32)
    (server : Bytes → K.State → K.State) : Prop where
  installs : ∀ {bytes : Bytes} {req : VrfsRouteRequest}, Delivers bytes req → ∀ kernel,
    server bytes kernel = (handleVrfsRouteRequestBy (K.addRoute if_nametoindex) kernel req).2
  ignores : ∀ {bytes : Bytes}, (∀ req, ¬ Delivers bytes req) → ∀ kernel, server bytes kernel = kernel

/-- `handedOver` says that the worker has sent the request in its hand.  `inFlight` has the bytes of the
connections that `ud_server` has not read, and `others` the routes that were not put into the kernel by it. -/
structure Session (K : RouteKernel) where
  vrfClient : WorkQueue VrfsRouteRequest
  handedOver : Bool
  s_msg_id : UInt16
  inFlight : List Bytes
  kernel : K.State
  others : List KernelEntry

/-- The handler is armed, and the thread of `VrfUdpClient` has started. -/
def Session.started {K : RouteKernel} (kernel : K.State) : Session K :=
  ⟨.started, false, 1, [], kernel, (K.routes kernel).rows⟩

/-- `submitRun` is step 6 of the `run` command, with the nexthops that it knows of; `transmit` is the
exchange of the request in the worker's hand, and `client` any other step of the queue.  `serve` is
`ud_server` reading a connection, `lose` a connection that breaks before; `foreign` is whatever other programs
and the kernel itself do to the routes. -/
inductive SessionAction (K : RouteKernel) where
  | submitRun (nexthops : List NexthopEntry)
  | nexthopEvent (nh : NetlinkNexthop)
  | client (a : QueueAction VrfsRouteRequest)
  | transmit (env : Env)
  | serve (i : ℕ)
  | lose (i : ℕ)
  | foreign (kernel : K.State)

variable {K : RouteKernel}

/-- The action is not another program's. -/
def SessionAction.Own : SessionAction K → Prop
  | .foreign _ => False
  | _ => True

/-- `VrfUdpClient::submit`, for a request that has entries; a builder that throws ends the program. -/
def Session.submit (s : Session K) : Except StoError (List VrfsRequest) → Option (Session K)
  | .error _ => none
  | .ok [] => some s
  | .ok (vr :: vrs) =>
    (vrfUdpStep s.vrfClient (.push ⟨vr :: vrs⟩)).map fun client => { s with vrfClient := client }

/-- A step of the queue other than `push`; the worker is done with a request after the exchange. -/
def Session.client (s : Session K) (a : QueueAction VrfsRouteRequest) : Option (Session K) :=
  match a, s.vrfClient.worker with
  | .push _, _ => none
  | .worker, .processing _ =>
    if s.handedOver then
      (vrfUdpStep s.vrfClient .worker).map fun client => { s with vrfClient := client, handedOver := false }
    else none
  | a, _ => (vrfUdpStep s.vrfClient a).map fun client => { s with vrfClient := client }

/-- `processRequest`. -/
def Session.transmit (s : Session K) (env : Env) : Option (Session K) :=
  match s.vrfClient.worker with
  | .processing req =>
    if s.handedOver then none
    else some { s with
      handedOver := true
      s_msg_id := s.s_msg_id + 1
      inFlight := s.inFlight ++ [(processRequest s.s_msg_id req env).2] }
  | _ => none

def sessionStep (server : Bytes → K.State → K.State) (arResult : GetAllRoutesResponse) (s : Session K) :
    SessionAction K → Option (Session K)
  | .submitRun nexthops => s.submit (runRequests nexthops arResult)
  | .nexthopEvent nh => s.submit (sendVrfRouteForNexthop nh (.load arResult))
  | .client a => s.client a
  | .transmit env => s.transmit env
  | .serve i => s.inFlight[i]?.map fun bytes =>
    { s with inFlight := s.inFlight.eraseIdx i, kernel := server bytes s.kernel }
  | .lose i => s.inFlight[i]?.map fun _ => { s with inFlight := s.inFlight.eraseIdx i }
  | .foreign kernel => some { s with
      kernel := kernel
      others := (K.routes kernel).rows.filter (· ∉ (K.routes s.kernel).rows) ++ s.others }

/-! ### What a step does -/

theorem submit_cases {s s' : Session K} {built : Except StoError (List VrfsRequest)}
    (h : s.submit built = some s') : ∃ reqs, built = .ok reqs ∧ (s' = s ∨
      ∃ client, vrfUdpStep s.vrfClient (.push ⟨reqs⟩) = some client ∧ s' = { s with vrfClient := client }) := by
  cases built with
  | error e => cases h
  | ok reqs =>
    refine ⟨reqs, rfl, ?_⟩
    cases reqs with
    | nil => exact .inl (Option.some.inj h).symm
    | cons vr vrs =>
      obtain ⟨client, hpush, rfl⟩ := Option.map_eq_some_iff.mp h
      exact .inr ⟨client, hpush, rfl⟩

theorem client_cases {s s' : Session K} {a : QueueAction VrfsRouteRequest} (h : s.client a = some s') :
    (∀ req, a ≠ .push req) ∧ ∃ client handedOver, vrfUdpStep s.vrfClient a = some client ∧
      s' = { s with vrfClient := client, handedOver := handedOver } := by
  unfold Session.client at h
  split at h
  next => cases h
  next =>
    split_ifs at h
    obtain ⟨client, hstep, rfl⟩ := Option.map_eq_some_iff.mp h
    refine ⟨fun req hpush => ?_, client, false, hstep, rfl⟩
    cases hpush
  next a w hpush hworker =>
    obtain ⟨client, hstep, rfl⟩ := Option.map_eq_some_iff.mp h
    exact ⟨hpush, client, s.handedOver, hstep, rfl⟩

theorem transmit_cases {s s' : Session K} {env : Env} (h : s.transmit env = some s') :
    ∃ req, s.vrfClient.worker = .processing req ∧
      s' = { s with
        handedOver := true
        s_msg_id := s.s_msg_id + 1
        inFlight := s.inFlight ++ [(processRequest s.s_msg_id req env).2] } := by
  unfold Session.transmit at h
  split at h
  next req hworker =>
    split_ifs at h
    exact ⟨req, hworker, (Option.some.inj h).symm⟩
  next => cases h

/-! ### What the source of truth asks for -/

/-- The characters of a name before its terminating zero. -/
def cName (name : String) : CString := (chars name).takeWhile (· ≠ 0)

/-- The row that a prefix of an nni interface of the node is to have, if the kernel knows the interface. -/
def SotRoute (if_nametoindex : CString → Option UInt32) (node : SotNode SotVrf) (nexthop : String)
    (e : KernelEntry) : Prop :=
  ∃ vrf ∈ node.vrfs, ∃ iface ∈ vrf.ipv4.interfaces, iface.type = "nni" ∧ iface.nexthop = nexthop ∧
    ∃ addr oif, inetPton (cStr nexthop.toList) = some addr ∧
      outputInterface if_nametoindex (cName iface.name) = .ok oif ∧
      ∃ pfx ∈ iface.prefixes, ∃ p, prefixOf pfx.prefix_.toList = some p ∧
        e = { table := RouteTable.Main, dst := p.addr, prefix_len := p.mask_len, metric := 0,
              gateway := some addr, oif := oif, protocol := RouteProtocol.Static,
              scope := RouteScope.Universe, type := RouteType.Unicast }

/-- The route of the kernel is one that a prefix of an nni interface of the node is to have. -/
def NodeRoute (if_nametoindex : CString → Option UInt32) (node : SotNode SotVrf) (e : KernelEntry) : Prop :=
  ∃ nexthop asked, SotRoute if_nametoindex node nexthop asked ∧ e.Realizes asked

/-- Each prefix text of the node is an address, a slash and a number up to 32, and the names of its
interfaces fit their fields with the terminating zero. -/
def CleanNode (node : SotNode SotVrf) : Prop :=
  ∀ vrf ∈ node.vrfs, ∀ iface ∈ vrf.ipv4.interfaces, (chars iface.name).length < IFACE_NAME_SIZE ∧
    ∀ pfx ∈ iface.prefixes, prefixOf pfx.prefix_.toList ≠ none

instance (node : SotNode SotVrf) : Decidable (CleanNode node) :=
  inferInstanceAs (Decidable (∀ _ ∈ _, _))

/-- The entry is built from one of the routes. -/
def BuiltFrom (routes : List VrfRoute) (vr : VrfsRequest) : Prop :=
  ∃ route ∈ routes, ∃ nexthop_id,
    plainEntry (fixedArray IFACE_NAME_SIZE route.interface_name) nexthop_id route = some vr

/-- The routes of the node, as the server answers. -/
def nodeRoutes (node : SotNode SotVrf) : List VrfRoute :=
  node.vrfs.flatMap fun vrf => vrf.ipv4.interfaces.map (Service.pbRoute vrf)

theorem mem_nodeRoutes {node : SotNode SotVrf} {route : VrfRoute} : route ∈ nodeRoutes node ↔
    ∃ vrf ∈ node.vrfs, ∃ iface ∈ vrf.ipv4.interfaces, route = Service.pbRoute vrf iface := by
  unfold nodeRoutes
  simp only [List.mem_flatMap, List.mem_map, eq_comm]

theorem ifName_fixedArray {name : String} (h : (chars name).length < IFACE_NAME_SIZE) :
    (fixedArray IFACE_NAME_SIZE name).items.takeWhile (· ≠ 0) = cName name := by
  have hpad : List.replicate (IFACE_NAME_SIZE - (chars name).length) (0 : UInt8) =
      0 :: List.replicate (IFACE_NAME_SIZE - (chars name).length - 1) 0 := by
    rw [← List.replicate_succ]
    congr 1
    omega
  show ((chars name).take _ ++ List.replicate (_ - ((chars name).take _).length) 0).takeWhile _ = _
  rw [List.take_of_length_le (Nat.le_of_lt h), hpad, cName, List.takeWhile_append]
  split_ifs with hall
  · rw [List.takeWhile_cons_of_neg (by simp), List.append_nil]
    exact (List.takeWhile_prefix _).eq_of_length hall |>.symm
  · rfl

section Built

variable {if_nametoindex : CString → Option UInt32} {node : SotNode SotVrf} (hclean : CleanNode node)

include hclean

/-- The rows of an entry that is built from the node's routes are the node's. -/
theorem sotRoute_of_row {vr : VrfsRequest} (hvr : BuiltFrom (nodeRoutes node) vr)
    {oif : Option UInt32} (hoif : outputInterface if_nametoindex (ifName vr) = .ok oif) {p : PrefixIpv4}
    (hp : p ∈ vr.prefixes) : ∃ nexthop, SotRoute if_nametoindex node nexthop (prefixEntry vr oif p) := by
  obtain ⟨route, hroute, id, hplain⟩ := hvr
  obtain ⟨vrf, hvrf, iface, hiface, rfl⟩ := mem_nodeRoutes.mp hroute
  unfold plainEntry at hplain
  split_ifs at hplain with htype
  obtain ⟨addr, haddr, rfl⟩ := Option.map_eq_some_iff.mp hplain
  obtain ⟨pfx, hpfx, hof⟩ := List.mem_filterMap.mp hp
  obtain ⟨sot, hsot, rfl⟩ := List.mem_map.mp hpfx
  have hname : outputInterface if_nametoindex (cName iface.name) = .ok oif := by
    rw [← hoif]
    exact congrArg _ (ifName_fixedArray (hclean vrf hvrf iface hiface).1).symm
  exact ⟨iface.nexthop, vrf, hvrf, iface, hiface, htype, rfl, addr, oif, haddr, hname, sot, hsot, p, hof, rfl⟩

/-- The node's rows with a nexthop are asked for by the entries of the routes with the nexthop. -/
theorem call_asked {nexthop : String} {asked : KernelEntry} (he : SotRoute if_nametoindex node nexthop asked)
    (ids : VrfRoute → UInt32) {reqs : List VrfsRequest}
    (hreqs : ∀ route ∈ nodeRoutes node, route.nexthop = nexthop → ∀ vr,
      plainEntry (fixedArray IFACE_NAME_SIZE route.interface_name) (ids route) route = some vr → vr ∈ reqs) :
    ∃ c ∈ vrfCalls ⟨reqs⟩, ∃ oif, outputInterface if_nametoindex (ifName c.1) = .ok oif ∧
      asked = prefixEntry c.1 oif c.2 := by
  obtain ⟨vrf, hvrf, iface, hiface, htype, rfl, addr, oif, haddr, hoif, sot, hsot, p, hof, rfl⟩ := he
  have hroute : Service.pbRoute vrf iface ∈ nodeRoutes node :=
    mem_nodeRoutes.mpr ⟨vrf, hvrf, iface, hiface, rfl⟩
  have hplain : plainEntry (fixedArray IFACE_NAME_SIZE iface.name) (ids (Service.pbRoute vrf iface))
      (Service.pbRoute vrf iface) = some (entryFor (Service.pbRoute vrf iface) addr
        (fixedArray IFACE_NAME_SIZE iface.name) (ids (Service.pbRoute vrf iface))
        ((Service.pbRoute vrf iface).prefixes.filterMap fun pfx => prefixOf pfx.prefix_.toList)) := by
    rw [plainEntry, if_pos (by exact htype)]
    show (inetPton (cStr iface.nexthop.toList)).map _ = _
    rw [haddr]
    rfl
  have hp : p ∈ (Service.pbRoute vrf iface).prefixes.filterMap fun pfx => prefixOf pfx.prefix_.toList :=
    List.mem_filterMap.mpr ⟨_, List.mem_map_of_mem hsot, hof⟩
  refine ⟨_, List.mem_flatMap.mpr ⟨_, hreqs _ hroute rfl _ hplain, List.mem_map_of_mem hp⟩, oif, ?_, rfl⟩
  rw [← hoif]
  exact congrArg _ (ifName_fixedArray (hclean vrf hvrf iface hiface).1)

end Built

/-! ### The invariant -/

/-- Every request is built from the node's routes, whatever is in flight carries none but such, and the kernel
has the routes of other programs and of the node. -/
structure Session.Sound (if_nametoindex : CString → Option UInt32) (node : SotNode SotVrf) (s : Session K) :
    Prop where
  queue : s.vrfClient.Sound
  submitted : ∀ req ∈ s.vrfClient.submitted, ∀ vr ∈ req.vrfs_requests, BuiltFrom (nodeRoutes node) vr
  inFlight : ∀ bytes ∈ s.inFlight, ∀ req, Delivers bytes req →
    ∀ vr ∈ req.vrfs_requests, BuiltFrom (nodeRoutes node) vr
  rows : ∀ e ∈ (K.routes s.kernel).rows, e ∈ s.others ∨ NodeRoute if_nametoindex node e

theorem Session.started_sound (if_nametoindex : CString → Option UInt32) (node : SotNode SotVrf)
    (kernel : K.State) : (Session.started kernel).Sound if_nametoindex node :=
  ⟨sound_started, fun _ h => absurd h List.not_mem_nil, fun _ h => absurd h List.not_mem_nil,
    fun _ he => .inl he⟩

/-- A step of the queue other than `push` submits nothing. -/
theorem submitted_unchanged {q q' : WorkQueue VrfsRouteRequest} {a : QueueAction VrfsRouteRequest}
    (hpush : ∀ req, a ≠ .push req) (h : vrfUdpStep q a = some q') : q'.submitted = q.submitted := by
  rcases queueStep_callers h with ⟨req, heq, -⟩ | ⟨-, -, rfl⟩ | ⟨-, -, -, rfl⟩ | ⟨_, _, -, rfl⟩ |
    ⟨-, rfl⟩ | ⟨-, hthread⟩
  · exact absurd heq (hpush req)
  · rfl
  · rfl
  · rfl
  · rfl
  · exact (threadFunc_frame hthread).1

theorem submitted_push {q q' : WorkQueue VrfsRouteRequest} {req : VrfsRouteRequest}
    (h : vrfUdpStep q (.push req) = some q') : q'.submitted = q.submitted ++ [req] := by
  rcases queueStep_callers h with ⟨req', heq, rfl⟩ | ⟨heq, -⟩ | ⟨heq, -⟩ | ⟨_, _, ⟨heq, -⟩ | ⟨heq, -⟩, -⟩ |
    ⟨heq, -⟩ | ⟨heq, -⟩
  · obtain rfl := QueueAction.push.inj heq
    rfl
  all_goals cases heq

section Steps

variable {if_nametoindex : CString → Option UInt32} {node : SotNode SotVrf}
  {server : Bytes → K.State → K.State} {arResult : GetAllRoutesResponse} {s s' : Session K}

theorem Session.Sound.submit (hs : s.Sound if_nametoindex node)
    {built : Except StoError (List VrfsRequest)}
    (hbuilt : ∀ reqs, built = .ok reqs → ∀ vr ∈ reqs, BuiltFrom (nodeRoutes node) vr)
    (h : s.submit built = some s') : s'.Sound if_nametoindex node := by
  obtain ⟨reqs, hreqs, rfl | ⟨client, hpush, rfl⟩⟩ := submit_cases h
  · exact hs
  · refine ⟨sound_step hs.queue hpush, ?_, hs.inFlight, hs.rows⟩
    intro req hreq
    rw [submitted_push hpush, List.mem_append, List.mem_singleton] at hreq
    rcases hreq with hreq | rfl
    · exact hs.submitted req hreq
    · exact hbuilt reqs hreqs

theorem Session.Sound.client (hs : s.Sound if_nametoindex node) {a : QueueAction VrfsRouteRequest}
    (h : s.client a = some s') : s'.Sound if_nametoindex node := by
  obtain ⟨hpush, client, handedOver, hstep, rfl⟩ := client_cases h
  refine ⟨sound_step hs.queue hstep, ?_, hs.inFlight, hs.rows⟩
  rw [submitted_unchanged hpush hstep]
  exact hs.submitted

theorem Session.Sound.transmit (hs : s.Sound if_nametoindex node) {env : Env}
    (h : s.transmit env = some s') : s'.Sound if_nametoindex node := by
  obtain ⟨req, hworker, rfl⟩ := transmit_cases h
  refine ⟨hs.queue, hs.submitted, ?_, hs.rows⟩
  intro bytes hbytes req' hdel
  rcases List.mem_append.mp hbytes with hbytes | hbytes
  · exact hs.inFlight bytes hbytes req' hdel
  · obtain rfl := List.mem_singleton.mp hbytes
    obtain rfl := delivers_sent hdel
    -- the request in the worker's hand was submitted
    refine hs.submitted req' ?_
    rw [hs.queue.fifo, hworker]
    simp [Worker.inHand]

/-- What `ud_server` makes of bytes in flight. -/
theorem Session.Sound.served (hs : s.Sound if_nametoindex node) (hserver : UdServer K if_nametoindex server)
    {bytes : Bytes} (hbytes : bytes ∈ s.inFlight) :
    server bytes s.kernel = s.kernel ∨ ∃ req, Delivers bytes req ∧
      (∀ vr ∈ req.vrfs_requests, BuiltFrom (nodeRoutes node) vr) ∧
        server bytes s.kernel = (handleVrfsRouteRequestBy (K.addRoute if_nametoindex) s.kernel req).2 := by
  by_cases hdel : ∃ req, Delivers bytes req
  · obtain ⟨req, hdel⟩ := hdel
    exact .inr ⟨req, hdel, hs.inFlight bytes hbytes req hdel, hserver.installs hdel s.kernel⟩
  · exact .inl (hserver.ignores (fun req h => hdel ⟨req, h⟩) s.kernel)

theorem mem_of_eraseIdx {bytes : Bytes} {i : ℕ} (h : bytes ∈ s.inFlight.eraseIdx i) : bytes ∈ s.inFlight :=
  (List.eraseIdx_sublist s.inFlight i).subset h

theorem Session.Sound.step (hK : K.Documented) (hclean : CleanNode node)
    (hserver : UdServer K if_nametoindex server) (hroutes : arResult.routes = nodeRoutes node)
    (hwell : WellFormed arResult) (hs : s.Sound if_nametoindex node) {a : SessionAction K}
    (h : sessionStep server arResult s a = some s') : s'.Sound if_nametoindex node := by
  cases a with
  | submitRun nexthops =>
    refine hs.submit (fun reqs hreqs vr hvr => ?_) h
    rw [runRequests_wellFormed hwell] at hreqs
    obtain rfl := Except.ok.inj hreqs
    obtain ⟨route, hroute, hplain⟩ := List.mem_filterMap.mp hvr
    exact ⟨route, hroutes ▸ hroute, _, hplain⟩
  | nexthopEvent nh =>
    refine hs.submit (fun reqs hreqs vr hvr => ?_) h
    rw [sendVrfRouteForNexthop_wellFormed hwell] at hreqs
    obtain rfl := Except.ok.inj hreqs
    obtain ⟨route, hroute, hplain⟩ := List.mem_filterMap.mp hvr
    exact ⟨route, hroutes ▸ (List.mem_filter.mp hroute).1, _, hplain⟩
  | client a => exact hs.client h
  | transmit env => exact hs.transmit h
  | serve i =>
    obtain ⟨bytes, hbytes, rfl⟩ := Option.map_eq_some_iff.mp h
    refine ⟨hs.queue, hs.submitted, fun b hb => hs.inFlight b (mem_of_eraseIdx hb), fun e he => ?_⟩
    rcases hs.served hserver (List.mem_of_getElem? hbytes) with hsame | ⟨req, -, hbuilt, hinstall⟩
    · exact hs.rows e (hsame ▸ he)
    · rcases handle_rows hK (hinstall ▸ he) with hold | ⟨c, hc, oif, hoif, hrow⟩
      · exact hs.rows e hold
      · obtain ⟨hvr, hp⟩ := mem_vrfCalls.mp hc
        obtain ⟨nexthop, hasked⟩ := sotRoute_of_row hclean (hbuilt c.1 hvr) hoif hp
        exact .inr ⟨nexthop, _, hasked, hrow⟩
  | lose i =>
    obtain ⟨bytes, hbytes, rfl⟩ := Option.map_eq_some_iff.mp h
    exact ⟨hs.queue, hs.submitted, fun b hb => hs.inFlight b (mem_of_eraseIdx hb), hs.rows⟩
  | foreign kernel =>
    obtain rfl := Option.some.inj h
    refine ⟨hs.queue, hs.submitted, hs.inFlight, fun e he => ?_⟩
    by_cases hold : e ∈ (K.routes s.kernel).rows
    · exact (hs.rows e hold).imp_left (List.mem_append_right _)
    · exact .inl (List.mem_append_left _ (List.mem_filter.mpr ⟨he, decide_eq_true hold⟩))

/-! ### All routes of the node -/

/-- Every route of the node has its key taken. -/
def EveryKey (if_nametoindex : CString → Option UInt32) (node : SotNode SotVrf) (kernel : Kernel) : Prop :=
  ∀ nexthop asked, SotRoute if_nametoindex node nexthop asked → asked.key ∈ kernel.keys

/-- The key of a route of the node is taken, by another program's route or by one of the node's. -/
def Session.Has (if_nametoindex : CString → Option UInt32) (node : SotNode SotVrf) (s : Session K)
    (asked : KernelEntry) : Prop :=
  ∃ e ∈ (K.routes s.kernel).rows, e.key = asked.key ∧ (e ∈ s.others ∨ NodeRoute if_nametoindex node e)

theorem Session.Sound.has (hs : s.Sound if_nametoindex node) {asked : KernelEntry}
    (h : asked.key ∈ (K.routes s.kernel).keys) : s.Has if_nametoindex node asked := by
  obtain ⟨e, he, hkey⟩ := h
  exact ⟨e, he, hkey, hs.rows e he⟩

/-- Where all keys of the node are taken, bytes in flight change nothing. -/
theorem served_complete (hK : K.Documented) (hclean : CleanNode node)
    (hserver : UdServer K if_nametoindex server) (hs : s.Sound if_nametoindex node)
    (hevery : EveryKey if_nametoindex node (K.routes s.kernel)) {bytes : Bytes} (hbytes : bytes ∈ s.inFlight) :
    (K.routes s.kernel).Same (K.routes (server bytes s.kernel)) := by
  rcases hs.served hserver hbytes with hsame | ⟨req, -, hbuilt, hinstall⟩
  · rw [hsame]
    exact fun _ => Iff.rfl
  · rw [hinstall]
    refine handle_same hK fun c hc oif hoif => ?_
    obtain ⟨hvr, hp⟩ := mem_vrfCalls.mp hc
    obtain ⟨nexthop, hasked⟩ := sotRoute_of_row hclean (hbuilt c.1 hvr) hoif hp
    exact hevery nexthop _ hasked

/-- Of the session's own steps only `ud_server` reaches the kernel. -/
theorem own_step_kernel {a : SessionAction K} (ha : a.Own) (h : sessionStep server arResult s a = some s') :
    s'.kernel = s.kernel ∨ ∃ bytes ∈ s.inFlight, s'.kernel = server bytes s.kernel := by
  cases a with
  | submitRun nexthops =>
    obtain ⟨reqs, -, rfl | ⟨client, -, rfl⟩⟩ := submit_cases h
    · exact .inl rfl
    · exact .inl rfl
  | nexthopEvent nh =>
    obtain ⟨reqs, -, rfl | ⟨client, -, rfl⟩⟩ := submit_cases h
    · exact .inl rfl
    · exact .inl rfl
  | client a =>
    obtain ⟨-, client, handedOver, -, rfl⟩ := client_cases h
    exact .inl rfl
  | transmit env =>
    obtain ⟨req, -, rfl⟩ := transmit_cases h
    exact .inl rfl
  | serve i =>
    obtain ⟨bytes, hbytes, rfl⟩ := Option.map_eq_some_iff.mp h
    exact .inr ⟨bytes, List.mem_of_getElem? hbytes, rfl⟩
  | lose i =>
    obtain ⟨bytes, -, rfl⟩ := Option.map_eq_some_iff.mp h
    exact .inl rfl
  | foreign kernel => exact ha.elim

theorem run_complete (hK : K.Documented) (hclean : CleanNode node) (hserver : UdServer K if_nametoindex server)
    (hroutes : arResult.routes = nodeRoutes node) (hwell : WellFormed arResult)
    (hs : s.Sound if_nametoindex node) (hevery : EveryKey if_nametoindex node (K.routes s.kernel))
    {acts : List (SessionAction K)} (hown : ∀ a ∈ acts, a.Own)
    (hrun : run (sessionStep server arResult) s acts = some s') :
    (K.routes s.kernel).Same (K.routes s'.kernel) := by
  have hstep : ∀ t a t', (t.Sound if_nametoindex node ∧ (K.routes s.kernel).Same (K.routes t.kernel)) →
      a.Own → sessionStep server arResult t a = some t' →
        t'.Sound if_nametoindex node ∧ (K.routes s.kernel).Same (K.routes t'.kernel) := by
    rintro t a t' ⟨hsound, hsame⟩ ha h
    refine ⟨hsound.step hK hclean hserver hroutes hwell h, ?_⟩
    rcases own_step_kernel ha h with hkernel | ⟨bytes, hbytes, hserved⟩
    · rw [hkernel]
      exact hsame
    · rw [hserved]
      refine hsame.trans (served_complete hK hclean hserver hsound (fun nexthop asked hasked => ?_) hbytes)
      rw [hsame.keys]
      exact hevery nexthop asked hasked
  exact (run_invariant hstep ⟨hs, fun _ => Iff.rfl⟩ (along_of_mem (fun a ha _ => hown a ha) s) hrun).2

/-- A request of the node's entries that fits its frame can be encoded. -/
theorem valid_of_size {reqs : List VrfsRequest} (hbuilt : ∀ vr ∈ reqs, BuiltFrom (nodeRoutes node) vr)
    (hsize : payloadSize ⟨reqs⟩ ≤ maxPayload) : VrfsRouteRequest.Valid ⟨reqs⟩ := by
  intro vr hvr
  refine ⟨?_, fun p hp => ?_⟩
  · obtain ⟨before, after, hsplit⟩ := List.append_of_mem hvr
    rw [payloadSize, hsplit, List.map_append, List.sum_append, List.map_cons, List.sum_cons] at hsize
    have hmax : maxPayload = 65526 := rfl
    have hwire : PREFIX_IPV4_WIRE_SIZE = 5 := rfl
    rw [hmax, hwire] at hsize
    omega
  · obtain ⟨route, -, id, hplain⟩ := hbuilt vr hvr
    unfold plainEntry at hplain
    split_ifs at hplain
    obtain ⟨addr, -, rfl⟩ := Option.map_eq_some_iff.mp hplain
    obtain ⟨pfx, -, hof⟩ := List.mem_filterMap.mp hp
    obtain ⟨ds, -, -, -, hle⟩ := prefixOf_eq_some.mp hof
    exact hle

/-- The keys that the frame of a request which fits leaves taken. -/
theorem key_served (hK : K.Documented)
    (haccepts : K.Accepts fun asked => ∃ nexthop, SotRoute if_nametoindex node nexthop asked)
    (hserver : UdServer K if_nametoindex server) {reqs : List VrfsRequest}
    (hbuilt : ∀ vr ∈ reqs, BuiltFrom (nodeRoutes node) vr) {msg_id : UInt16} {frm : Bytes}
    (hfrm : requestFrame msg_id ⟨reqs⟩ = .ok frm) (hsize : payloadSize ⟨reqs⟩ ≤ maxPayload)
    {nexthop : String} {asked : KernelEntry} (hasked : SotRoute if_nametoindex node nexthop asked)
    (hcall : ∃ c ∈ vrfCalls ⟨reqs⟩, ∃ oif, outputInterface if_nametoindex (ifName c.1) = .ok oif ∧
      asked = prefixEntry c.1 oif c.2) (kernel : K.State) :
    asked.key ∈ (K.routes (server frm kernel)).keys := by
  obtain ⟨c, hc, oif, hoif, rfl⟩ := hcall
  have hvalid := valid_of_size hbuilt hsize
  rw [requestFrame_of_valid hvalid] at hfrm
  obtain rfl := Except.ok.inj hfrm
  rw [hserver.installs (delivers_of_size hvalid msg_id hsize)]
  exact handle_taken hK haccepts hc hoif ⟨nexthop, hasked⟩ kernel

/-- After the request for a nexthop the keys of the routes over it are taken. -/
theorem nexthop_served (hK : K.Documented)
    (haccepts : K.Accepts fun asked => ∃ nexthop, SotRoute if_nametoindex node nexthop asked)
    (hclean : CleanNode node) (hserver : UdServer K if_nametoindex server)
    (hroutes : arResult.routes = nodeRoutes node) (hwell : WellFormed arResult) {nh : NetlinkNexthop}
    {reqs : List VrfsRequest} (hreqs : sendVrfRouteForNexthop nh (.load arResult) = .ok reqs)
    {msg_id : UInt16} {frm : Bytes} (hfrm : requestFrame msg_id ⟨reqs⟩ = .ok frm)
    (hsize : payloadSize ⟨reqs⟩ ≤ maxPayload) (kernel : K.State) {asked : KernelEntry}
    (hasked : SotRoute if_nametoindex node nh.gateway asked) :
    asked.key ∈ (K.routes (server frm kernel)).keys := by
  rw [sendVrfRouteForNexthop_wellFormed hwell, hroutes] at hreqs
  obtain rfl := Except.ok.inj hreqs
  refine key_served hK haccepts hserver (fun vr hvr => ?_) hfrm hsize hasked
    (call_asked hclean hasked (fun _ => nh.id) fun route hroute hnexthop vr hvr => ?_) kernel
  · obtain ⟨route, hroute, hplain⟩ := List.mem_filterMap.mp hvr
    exact ⟨route, (List.mem_filter.mp hroute).1, _, hplain⟩
  · exact List.mem_filterMap.mpr ⟨route, List.mem_filter.mpr ⟨hroute, decide_eq_true hnexthop⟩, hvr⟩

/-- After the request of the `run` command all keys of the node are. -/
theorem run_served (hK : K.Documented)
    (haccepts : K.Accepts fun asked => ∃ nexthop, SotRoute if_nametoindex node nexthop asked)
    (hclean : CleanNode node) (hserver : UdServer K if_nametoindex server)
    (hroutes : arResult.routes = nodeRoutes node) (hwell : WellFormed arResult)
    {nexthops : List NexthopEntry} {reqs : List VrfsRequest}
    (hreqs : runRequests nexthops arResult = .ok reqs) {msg_id : UInt16} {frm : Bytes}
    (hfrm : requestFrame msg_id ⟨reqs⟩ = .ok frm) (hsize : payloadSize ⟨reqs⟩ ≤ maxPayload)
    (kernel : K.State) : EveryKey if_nametoindex node (K.routes (server frm kernel)) := by
  rw [runRequests_wellFormed hwell, hroutes] at hreqs
  obtain rfl := Except.ok.inj hreqs
  intro nexthop asked hasked
  refine key_served hK haccepts hserver (fun vr hvr => ?_) hfrm hsize hasked
    (call_asked hclean hasked (fun route => nexthopId nexthops route.nexthop) fun route hroute _ vr hvr => ?_)
    kernel
  · obtain ⟨route, hroute, hplain⟩ := List.mem_filterMap.mp hvr
    exact ⟨route, hroute, _, hplain⟩
  · exact List.mem_filterMap.mpr ⟨route, hroute, hvr⟩

end Steps

theorem wellFormed_of_clean {node : SotNode SotVrf} (hclean : CleanNode node)
    {arResult : GetAllRoutesResponse} (hroutes : arResult.routes = nodeRoutes node) : WellFormed arResult := by
  intro route hroute pfx hpfx
  obtain ⟨vrf, hvrf, iface, hiface, rfl⟩ := mem_nodeRoutes.mp (hroutes ▸ hroute)
  obtain ⟨sot, hsot, rfl⟩ := List.mem_map.mp hpfx
  exact (hclean vrf hvrf iface hiface).2 sot hsot

/-- The switch 10.0.0.7 has the prefix 10.9.0.0/16 over the nexthop 192.168.1.1. -/
def nniDocument : Document :=
  ⟨.object [("nodes_by_loopback", .object [("10.0.0.7", .object [("hostname", .string "leaf"),
    ("loopbacks", .object []), ("vrfs", .object [("red", .object [("ipv4", .object [
      ("interfaces", .object [("eth0", .object [("type", .string "nni"),
        ("local_address", .string "192.168.1.2/30"), ("nexthop", .string "192.168.1.1"),
        ("weight", .int64 1), ("prefixes", .array [.object [("prefix", .string "10.9.0.0/16"),
          ("weight", .int64 1)]])])])])])])])])], by decide⟩

/-- The node in it. -/
def nniNode : SotNode SotVrf where
  management_ip := "10.0.0.7"
  hostname := "leaf"
  loopbacks := ⟨"", ""⟩
  vrfs := [{
    name := "red"
    ipv4 := ⟨[{
      name := "eth0"
      type := "nni"
      local_address := "192.168.1.2/30"
      nexthop := "192.168.1.1"
      weight := 1
      description := ""
      prefixes := [⟨"10.9.0.0/16", 1, "", ""⟩] }]⟩
    ipv6 := ⟨[]⟩ }]

theorem nniDocument_loads : loadSotConfig (oneFile nniDocument) "sot.json" = .ok ⟨[nniNode]⟩ := rfl

/-- The decoders of the libraries and the handler, one after the other. -/
def installingServer (K : RouteKernel) (if_nametoindex : CString → Option UInt32) (bytes : Bytes)
    (kernel : K.State) : K.State :=
  match carriedRequest bytes with
  | some req => (handleVrfsRouteRequestBy (K.addRoute if_nametoindex) kernel req).2
  | none => kernel

theorem installingServer_udServer (K : RouteKernel) (if_nametoindex : CString → Option UInt32) :
    UdServer K if_nametoindex (installingServer K if_nametoindex) where
  installs := by
    intro bytes req hdel kernel
    rw [installingServer, carriedRequest_iff.mpr hdel]
  ignores := by
    intro bytes hnone kernel
    cases hreq : carriedRequest bytes with
    | some req => exact absurd (carriedRequest_iff.mp hreq) (hnone req)
    | none => rw [installingServer, hreq]

/-- The connection takes the whole frame, and no reply comes. -/
def wholeEnv (frm : Bytes) : Env := ⟨true, true, .connected, [.sent frm.length], []⟩

theorem processRequest_whole {msg_id : UInt16} {req : VrfsRouteRequest} {frm : Bytes}
    (h : requestFrame msg_id req = .ok frm) : (processRequest msg_id req (wholeEnv frm)).2 = frm := by
  have hdone := nbSendAll_whole frm
  have hsent := nbSendAll_done _ frm hdone
  rcases hsend : nbSendAll [.sent frm.length] frm with ⟨progress, sent⟩
  rw [hsend] at hdone hsent
  obtain rfl : progress = .done () := hdone
  rw [processRequest, h]
  simp only [exchangeFrame, wholeEnv, nbConnect, hsend]
  exact hsent

/-- The entry of its interface. -/
def nniRequest : VrfsRequest where
  vrfs_name := fixedArray VRFS_NAME_SIZE "red"
  iface_name := fixedArray IFACE_NAME_SIZE "eth0"
  nexthop_addr_ipv4 := ipv4 192 168 1 1
  nexthop_id_ipv4 := 0
  prefixes := [⟨ipv4 10 9 0 0, 16⟩]

theorem nniRequest_valid : VrfsRouteRequest.Valid ⟨[nniRequest]⟩ := by
  intro vr hvr
  obtain rfl := List.mem_singleton.mp hvr
  refine ⟨by decide, fun p hp => ?_⟩
  obtain rfl := List.mem_singleton.mp hp
  exact UInt8.le_iff_toNat_le.mpr (by decide)

/-- What the server answers the switch. -/
def nniAnswer : GetAllRoutesResponse := (Service.getAllRoutes ⟨[nniNode]⟩ "ipv4:10.0.0.7:5000").2

/-- The `run` command submits, and the worker takes the request and sends it. -/
def nniActs (frm : Bytes) : List (SessionAction mapKernel) :=
  [.submitRun [], .client .notifyOne, .client .worker, .client .worker, .client .worker, .client .worker,
    .transmit (wholeEnv frm)]

end Rtsrv.Client
