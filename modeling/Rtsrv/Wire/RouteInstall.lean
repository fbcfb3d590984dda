import Rtsrv.Lib.Keyed
import Rtsrv.Wire.RoutePayload

/-!
# Rtsrv.Wire.RouteInstall — installing the prefixes of VRFs (`cmd_proto.cpp`, `netlink.cpp`)

`handle_vrfs_route_request` threads the kernel's routes through all entries of a request, and
`netlink::add_route` adds exclusively.  Every VRF goes to the main table, so an entry is answered by
what stands before it: the answer is characterised by the keys that are taken when its turn comes.  The
client sends the same request again on every nexthop event, and then meets its own routes.
-/

namespace Rtsrv.Netlink

open Lib CmdProto

/-! ### The kernel's routes -/

/-- Table, destination, prefix length and metric. -/
abbrev RouteKey := UInt32 × Ipv4Addr × UInt8 × UInt32

/-- A route of the kernel. -/
structure KernelEntry where
  table : UInt32
  dst : Ipv4Addr
  prefix_len : UInt8
  metric : UInt32
  gateway : Option Ipv4Addr
  oif : Option UInt32
  protocol : UInt8
  scope : UInt8
  type : UInt8
  deriving DecidableEq, Repr

def KernelEntry.key (e : KernelEntry) : RouteKey := (e.table, e.dst, e.prefix_len, e.metric)

abbrev Kernel := Keyed KernelEntry.key

inductive RouteError where
  | InterfaceNotFound
  | EEXIST
  deriving DecidableEq, Repr

def NLM_F_ACK : UInt16 := 0x004
def NLM_F_REPLACE : UInt16 := 0x100
def NLM_F_EXCL : UInt16 := 0x200
def NLM_F_CREATE : UInt16 := 0x400

/-- An `RTM_NEWROUTE` request: its flags, the `rtmsg` body and the attributes. -/
structure NewRoute where
  nlmsg_flags : UInt16
  rtm_dst_len : UInt8
  rtm_table : UInt8
  rtm_protocol : UInt8
  rtm_scope : UInt8
  rtm_type : UInt8
  dst : Ipv4Addr
  gateway : Option Ipv4Addr
  oif : Option UInt32
  priority : Option UInt32
  table : Option UInt32
  deriving DecidableEq, Repr

/-- The route that a request asks for; `RTA_TABLE` goes before `rtm_table`. -/
def NewRoute.entry (msg : NewRoute) : KernelEntry where
  table := msg.table.getD msg.rtm_table.toUInt32
  dst := msg.dst
  prefix_len := msg.rtm_dst_len
  metric := msg.priority.getD 0
  gateway := msg.gateway
  oif := msg.oif
  protocol := msg.rtm_protocol
  scope := msg.rtm_scope
  type := msg.rtm_type

/-- What the kernel does with a request: an exclusive add fails where the key has a route. -/
def nlTransact (kernel : Kernel) (msg : NewRoute) : Except RouteError Kernel :=
  if msg.nlmsg_flags &&& NLM_F_EXCL ≠ 0 ∧ kernel.find msg.entry.key ≠ none then .error .EEXIST
  else .ok (kernel.put msg.entry)

/-! ### `netlink::add_route` -/

/-- A name up to its terminating zero. -/
abbrev CString := List UInt8

def RouteTable.Main : UInt32 := 254
def RouteProtocol.Static : UInt8 := 4
def RouteScope.Universe : UInt8 := 0
def RouteType.Unicast : UInt8 := 1

/-- `netlink::RouteAddParams`. -/
structure RouteAddParams where
  dst : Ipv4Addr
  prefix_len : UInt8
  gateway : Ipv4Addr
  has_gateway : Bool
  if_name : CString
  metric : UInt32
  table : UInt32
  protocol : UInt8
  scope : UInt8
  type : UInt8
  deriving DecidableEq, Repr

variable (if_nametoindex : CString → Option UInt32)

def nameToIndex (name : CString) : Except RouteError UInt32 :=
  if name = [] then .ok 0
  else
    match if_nametoindex name with
    | none => .error .InterfaceNotFound
    | some idx => .ok idx

/-- `RTA_OIF`, which is left out without a name. -/
def outputInterface (if_name : CString) : Except RouteError (Option UInt32) :=
  if if_name = [] then .ok none else some <$> nameToIndex if_nametoindex if_name

def sendRouteNew (kernel : Kernel) (params : RouteAddParams) (extra_flags : UInt16) :
    Except RouteError Kernel := do
  let oif ← outputInterface if_nametoindex params.if_name
  nlTransact kernel
    { nlmsg_flags := NLM_F_ACK ||| extra_flags
      rtm_dst_len := params.prefix_len
      rtm_table := if params.table ≤ 255 then params.table.toUInt8 else 0
      rtm_protocol := params.protocol
      rtm_scope := params.scope
      rtm_type := params.type
      dst := params.dst
      gateway := if params.has_gateway then some params.gateway else none
      oif := oif
      priority := if params.metric = 0 then none else some params.metric
      table := if params.table ≤ 255 then none else some params.table }

def addRoute (kernel : Kernel) (params : RouteAddParams) : Except RouteError Kernel :=
  sendRouteNew if_nametoindex kernel params (NLM_F_CREATE ||| NLM_F_EXCL)

/-! ### `handle_vrfs_route_request` -/

def ifName (vr : VrfsRequest) : CString := vr.iface_name.items.takeWhile (· ≠ 0)

/-- The parameters for one prefix of an entry. -/
def routeParams (vr : VrfsRequest) (pfx : PrefixIpv4) : RouteAddParams where
  dst := pfx.addr
  prefix_len := pfx.mask_len
  gateway := vr.nexthop_addr_ipv4
  has_gateway := true
  if_name := ifName vr
  metric := 0
  table := RouteTable.Main
  protocol := RouteProtocol.Static
  scope := RouteScope.Universe
  type := RouteType.Unicast

/-- One round of the inner loop: a prefix that fails does not stop it. -/
def installPrefix (vr : VrfsRequest) (s : Bool × Kernel) (pfx : PrefixIpv4) : Bool × Kernel :=
  match addRoute if_nametoindex s.2 (routeParams vr pfx) with
  | .ok kernel => (s.1, kernel)
  | .error _ => (false, s.2)

/-- One round of the outer loop. -/
def installVrf (s : VrfsRouteResponse × Kernel) (vr : VrfsRequest) : VrfsRouteResponse × Kernel :=
  let (vrf_ok, kernel) := vr.prefixes.foldl (installPrefix if_nametoindex vr) (true, s.2)
  ({ status_code := if vrf_ok then s.1.status_code else 0x01
     answers := s.1.answers ++ [{ vrfs_name := vr.vrfs_name, prefix_status := vrf_ok }] }, kernel)

def handleVrfsRouteRequest (kernel : Kernel) (req : VrfsRouteRequest) : VrfsRouteResponse × Kernel :=
  req.vrfs_requests.foldl (installVrf if_nametoindex) ({ status_code := 0x00, answers := [] }, kernel)

/-! ### What one entry adds -/

/-- The key under which a prefix of any VRF is added. -/
def mainKey (pfx : PrefixIpv4) : RouteKey := (RouteTable.Main, pfx.addr, pfx.mask_len, 0)

theorem mainKey_injective : Function.Injective mainKey := by
  intro p q h
  rcases p with ⟨addr, mask_len⟩
  rcases q with ⟨addr', mask_len'⟩
  simpa [mainKey] using h

/-- The entry names no interface or one that exists. -/
def Resolves (vr : VrfsRequest) : Prop := ifName vr = [] ∨ if_nametoindex (ifName vr) ≠ none

instance (vr : VrfsRequest) : Decidable (Resolves if_nametoindex vr) :=
  inferInstanceAs (Decidable (_ ∨ _))

/-- The prefix of an entry can be added: its interface is there and its key is not taken. -/
def Addable (kernel : Kernel) (vr : VrfsRequest) (pfx : PrefixIpv4) : Prop :=
  Resolves if_nametoindex vr ∧ mainKey pfx ∉ kernel.keys

/-- The answer that an entry gets when its turn comes. -/
def answerAt (kernel : Kernel) (vr : VrfsRequest) : VrfsAnswer :=
  ⟨vr.vrfs_name, (vr.prefixes.foldl (installPrefix if_nametoindex vr) (true, kernel)).1⟩

/-- An entry is installed whole: its interface is there, and its prefixes are different and not in the
main table. -/
def Installs (taken : Set RouteKey) (vr : VrfsRequest) : Prop :=
  (vr.prefixes ≠ [] → Resolves if_nametoindex vr) ∧ Fresh taken (vr.prefixes.map mainKey)

/-- The keys that some entries add. -/
def added (vrs : List VrfsRequest) : Set RouteKey :=
  {k | ∃ u ∈ vrs, Resolves if_nametoindex u ∧ k ∈ u.prefixes.map mainKey}

variable {if_nametoindex}

theorem outputInterface_resolves (if_nametoindex : CString → Option UInt32) (vr : VrfsRequest) :
    (Resolves if_nametoindex vr ∧ ∃ oif, outputInterface if_nametoindex (ifName vr) = .ok oif) ∨
    ¬ Resolves if_nametoindex vr ∧
      outputInterface if_nametoindex (ifName vr) = .error .InterfaceNotFound := by
  unfold outputInterface nameToIndex Resolves
  by_cases hname : ifName vr = []
  · exact .inl ⟨.inl hname, none, if_pos hname⟩
  · rw [if_neg hname, if_neg hname]
    rcases hidx : if_nametoindex (ifName vr) with _ | idx
    · exact .inr ⟨by simp [hname], rfl⟩
    · exact .inl ⟨by simp, some idx, rfl⟩

/-- `add_route` on a prefix of an entry. -/
theorem addRoute_prefix (kernel : Kernel) (vr : VrfsRequest) (pfx : PrefixIpv4) :
    (¬ Addable if_nametoindex kernel vr pfx ∧
      ∃ err, addRoute if_nametoindex kernel (routeParams vr pfx) = .error err) ∨
    Addable if_nametoindex kernel vr pfx ∧ ∃ e : KernelEntry, e.key = mainKey pfx ∧
      addRoute if_nametoindex kernel (routeParams vr pfx) = .ok (kernel.put e) := by
  have hexcl : (NLM_F_ACK ||| (NLM_F_CREATE ||| NLM_F_EXCL)) &&& NLM_F_EXCL ≠ 0 := by decide
  have hname : (routeParams vr pfx).if_name = ifName vr := rfl
  unfold addRoute sendRouteNew
  rcases outputInterface_resolves if_nametoindex vr with ⟨hres, oif, hoif⟩ | ⟨hno, hoif⟩
  · rw [hname, hoif, ok_bind]
    by_cases htaken : mainKey pfx ∈ kernel.keys
    · have hfind := Keyed.find_ne_none.mpr htaken
      exact .inl ⟨fun hadd => hadd.2 htaken, .EEXIST, if_pos ⟨hexcl, hfind⟩⟩
    · have hfind : ¬ kernel.find (mainKey pfx) ≠ none := fun h => htaken (Keyed.find_ne_none.mp h)
      exact .inr ⟨⟨hres, htaken⟩, _, rfl, if_neg fun h => hfind h.2⟩
  · rw [hname, hoif]
    exact .inl ⟨fun hadd => hno hadd.1, .InterfaceNotFound, rfl⟩

theorem installPrefix_ok (vr : VrfsRequest) (s : Bool × Kernel) (pfx : PrefixIpv4) :
    (installPrefix if_nametoindex vr s pfx).1 = true ↔
      s.1 = true ∧ Addable if_nametoindex s.2 vr pfx := by
  unfold installPrefix
  rcases addRoute_prefix s.2 vr pfx with ⟨hno, err, hadd⟩ | ⟨hyes, e, -, hadd⟩
  · rw [hadd]
    simp [hno]
  · rw [hadd]
    simp [hyes]

theorem mem_keys_installPrefix (vr : VrfsRequest) (s : Bool × Kernel) (pfx : PrefixIpv4) (k : RouteKey) :
    k ∈ (installPrefix if_nametoindex vr s pfx).2.keys ↔
      k ∈ s.2.keys ∨ Resolves if_nametoindex vr ∧ k = mainKey pfx := by
  unfold installPrefix
  rcases addRoute_prefix s.2 vr pfx with ⟨hno, err, hadd⟩ | ⟨hyes, e, hkey, hadd⟩
  · rw [hadd]
    refine (or_iff_left_of_imp ?_).symm
    rintro ⟨hres, rfl⟩
    by_contra hfree
    exact hno ⟨hres, hfree⟩
  · rw [hadd, Keyed.keys_put, hkey, Set.mem_insert_iff, or_comm]
    simp [hyes.1]

/-- The inner loop succeeds when the prefixes can be added one after the other. -/
theorem foldl_installPrefix_ok (vr : VrfsRequest) :
    ∀ (prefixes : List PrefixIpv4) (s : Bool × Kernel),
      (prefixes.foldl (installPrefix if_nametoindex vr) s).1 = true ↔
        s.1 = true ∧ (prefixes ≠ [] → Resolves if_nametoindex vr) ∧
          Fresh s.2.keys (prefixes.map mainKey)
  | [], s => by simp [Fresh]
  | pfx :: prefixes, s => by
    rw [List.foldl_cons, foldl_installPrefix_ok vr prefixes, installPrefix_ok, List.map_cons, fresh_cons]
    have hkeys : Resolves if_nametoindex vr →
        (installPrefix if_nametoindex vr s pfx).2.keys = insert (mainKey pfx) s.2.keys := by
      intro hres
      ext k
      rw [mem_keys_installPrefix, Set.mem_insert_iff, or_comm]
      simp [hres]
    unfold Addable
    refine ⟨fun ⟨⟨hs, hres, hfree⟩, _, hfresh⟩ => ?_, fun ⟨hs, hres, hfree, hfresh⟩ => ?_⟩
    · rw [hkeys hres] at hfresh
      exact ⟨hs, fun _ => hres, hfree, hfresh⟩
    · have hres := hres (List.cons_ne_nil _ _)
      rw [hkeys hres]
      exact ⟨⟨hs, hres, hfree⟩, fun _ => hres, hfresh⟩

theorem mem_keys_foldl_installPrefix (vr : VrfsRequest) (k : RouteKey) :
    ∀ (prefixes : List PrefixIpv4) (s : Bool × Kernel),
      k ∈ (prefixes.foldl (installPrefix if_nametoindex vr) s).2.keys ↔
        k ∈ s.2.keys ∨ Resolves if_nametoindex vr ∧ k ∈ prefixes.map mainKey
  | [], s => by simp
  | pfx :: prefixes, s => by
    rw [List.foldl_cons, mem_keys_foldl_installPrefix vr k prefixes, mem_keys_installPrefix,
      List.map_cons, List.mem_cons, and_or_left, or_assoc]

/-! ### What a request answers -/

theorem keys_installVrf (s : VrfsRouteResponse × Kernel) (vr : VrfsRequest) :
    (installVrf if_nametoindex s vr).2.keys = s.2.keys ∪ added if_nametoindex [vr] := by
  ext k
  refine (mem_keys_foldl_installPrefix vr k vr.prefixes (true, s.2)).trans (or_congr_right ?_)
  show _ ↔ ∃ u ∈ [vr], _
  simp

theorem answers_installVrf (s : VrfsRouteResponse × Kernel) (vr : VrfsRequest) :
    (installVrf if_nametoindex s vr).1.answers = s.1.answers ++ [answerAt if_nametoindex s.2 vr] := rfl

variable (if_nametoindex)

theorem keys_foldl_installVrf :
    ∀ (vrs : List VrfsRequest) (s : VrfsRouteResponse × Kernel),
      (vrs.foldl (installVrf if_nametoindex) s).2.keys = s.2.keys ∪ added if_nametoindex vrs
  | [], s => by
    ext k
    simp [added]
  | vr :: vrs, s => by
    rw [List.foldl_cons, keys_foldl_installVrf vrs, keys_installVrf, Set.union_assoc]
    congr 1
    ext k
    simp [added]

/-- One answer for each entry, in the order of the request. -/
theorem answers_foldl_installVrf :
    ∀ (vrs : List VrfsRequest) (s : VrfsRouteResponse × Kernel),
      ∃ answers : List VrfsAnswer,
        (vrs.foldl (installVrf if_nametoindex) s).1.answers = s.1.answers ++ answers ∧
          answers.map VrfsAnswer.vrfs_name = vrs.map VrfsRequest.vrfs_name
  | [], s => ⟨[], (List.append_nil _).symm, rfl⟩
  | vr :: vrs, s => by
    obtain ⟨answers, hanswers, hnames⟩ := answers_foldl_installVrf vrs (installVrf if_nametoindex s vr)
    refine ⟨answerAt if_nametoindex s.2 vr :: answers, ?_, ?_⟩
    · rw [List.foldl_cons, hanswers, answers_installVrf, List.append_assoc, List.singleton_append]
    · rw [List.map_cons, List.map_cons, hnames]
      rfl

theorem answerAt_status (kernel : Kernel) (vr : VrfsRequest) :
    (answerAt if_nametoindex kernel vr).prefix_status = true ↔
      Installs if_nametoindex kernel.keys vr :=
  (foldl_installPrefix_ok vr vr.prefixes (true, kernel)).trans (and_iff_right rfl)

/-- The answer for a VRF. -/
def answerFor (resp : VrfsRouteResponse) (vrfs_name : VrfsName) : Option VrfsAnswer :=
  resp.answers.find? fun a => a.vrfs_name = vrfs_name

/-- The entry of a VRF is answered by the keys that are taken when its turn comes. -/
theorem answerFor_entry (kernel : Kernel) {before : List VrfsRequest} {vr : VrfsRequest}
    (hfirst : vr.vrfs_name ∉ before.map VrfsRequest.vrfs_name) (after : List VrfsRequest) :
    ∃ kernel' : Kernel, kernel'.keys = kernel.keys ∪ added if_nametoindex before ∧
      answerFor (handleVrfsRouteRequest if_nametoindex kernel ⟨before ++ vr :: after⟩).1 vr.vrfs_name =
        some (answerAt if_nametoindex kernel' vr) := by
  obtain ⟨s, hs⟩ : ∃ s, before.foldl (installVrf if_nametoindex)
      ({ status_code := 0x00, answers := [] }, kernel) = s := ⟨_, rfl⟩
  obtain ⟨earlier, hearlier, hnames⟩ := answers_foldl_installVrf if_nametoindex before
    ({ status_code := 0x00, answers := [] }, kernel)
  obtain ⟨later, hlater, -⟩ := answers_foldl_installVrf if_nametoindex after
    (installVrf if_nametoindex s vr)
  have hkeys := keys_foldl_installVrf if_nametoindex before
    ({ status_code := 0x00, answers := [] }, kernel)
  rw [hs] at hearlier hkeys
  refine ⟨s.2, hkeys, ?_⟩
  have hanswers : (handleVrfsRouteRequest if_nametoindex kernel ⟨before ++ vr :: after⟩).1.answers =
      earlier ++ answerAt if_nametoindex s.2 vr :: later := by
    rw [handleVrfsRouteRequest, List.foldl_append, hs, List.foldl_cons, hlater, answers_installVrf,
      hearlier, List.nil_append, List.append_assoc, List.singleton_append]
  have hno : ∀ a ∈ earlier, ¬ decide (a.vrfs_name = vr.vrfs_name) = true := by
    intro a ha heq
    refine hfirst ?_
    rw [← hnames, ← of_decide_eq_true heq]
    exact List.mem_map_of_mem ha
  rw [answerFor, hanswers, List.find?_append, List.find?_eq_none.mpr hno, Option.none_or]
  exact List.find?_cons_of_pos (decide_eq_true rfl)

/-! ### The status code and the routes that were there -/

/-- The response with one more answer. -/
def answered (resp : VrfsRouteResponse) (ans : VrfsAnswer) : VrfsRouteResponse where
  status_code := if ans.prefix_status then resp.status_code else 0x01
  answers := resp.answers ++ [ans]

/-- The status code is zero while every answer is a success. -/
def StatusOfAnswers (resp : VrfsRouteResponse) : Prop :=
  resp.status_code = 0 ↔ ∀ a ∈ resp.answers, a.prefix_status = true

theorem StatusOfAnswers.answered {resp : VrfsRouteResponse} (h : StatusOfAnswers resp) (ans : VrfsAnswer) :
    StatusOfAnswers (answered resp ans) := by
  unfold StatusOfAnswers at h
  show (if ans.prefix_status then resp.status_code else 0x01) = 0 ↔ ∀ a ∈ resp.answers ++ [ans], _
  rw [List.forall_mem_append, List.forall_mem_singleton, ← h]
  by_cases hok : ans.prefix_status = true
  · rw [if_pos hok, and_iff_left hok]
  · rw [if_neg hok]
    exact iff_of_false (by decide) fun h => hok h.2

/-- No answer yet. -/
theorem statusOfAnswers_nil : StatusOfAnswers { status_code := 0x00, answers := [] } :=
  iff_of_true rfl fun _ ha => absurd ha List.not_mem_nil

theorem status_foldl_installVrf : ∀ (vrs : List VrfsRequest) (s : VrfsRouteResponse × Kernel),
    StatusOfAnswers s.1 → StatusOfAnswers (vrs.foldl (installVrf if_nametoindex) s).1
  | [], _, hs => hs
  | vr :: vrs, s, hs => status_foldl_installVrf vrs (installVrf if_nametoindex s vr)
      (hs.answered (answerAt if_nametoindex s.2 vr))

/-- The status code is zero exactly when every VRF is answered with success. -/
theorem status_code_iff (kernel : Kernel) (req : VrfsRouteRequest) :
    (handleVrfsRouteRequest if_nametoindex kernel req).1.status_code = 0 ↔
      ∀ a ∈ (handleVrfsRouteRequest if_nametoindex kernel req).1.answers, a.prefix_status = true :=
  status_foldl_installVrf if_nametoindex req.vrfs_requests ({ status_code := 0x00, answers := [] }, kernel)
    statusOfAnswers_nil

theorem installPrefix_keeps (vr : VrfsRequest) (s : Bool × Kernel) (pfx : PrefixIpv4)
    {e : KernelEntry} (he : e ∈ s.2.rows) :
    e ∈ (installPrefix if_nametoindex vr s pfx).2.rows := by
  unfold installPrefix
  rcases addRoute_prefix s.2 vr pfx with ⟨-, err, hadd⟩ | ⟨hyes, e', hkey, hadd⟩
  · rw [hadd]
    exact he
  · rw [hadd]
    refine Keyed.mem_put.mpr (.inr ⟨he, fun heq => hyes.2 ?_⟩)
    exact ⟨e, he, heq.trans hkey⟩

/-- No request replaces or removes a route of the kernel. -/
theorem routes_kept (kernel : Kernel) (req : VrfsRouteRequest) {e : KernelEntry}
    (he : e ∈ kernel.rows) : e ∈ (handleVrfsRouteRequest if_nametoindex kernel req).2.rows := by
  have hfrontes : ∀ (vr : VrfsRequest) (prefixes : List PrefixIpv4) (s : Bool × Kernel), e ∈ s.2.rows →
      e ∈ (prefixes.foldl (installPrefix if_nametoindex vr) s).2.rows := by
    intro vr prefixes
    induction prefixes with
    | nil => exact fun _ hs => hs
    | cons pfx prefixes ih =>
      intro s hs
      exact ih _ (installPrefix_keeps if_nametoindex vr s pfx hs)
  have hvrfs : ∀ (vrs : List VrfsRequest) (s : VrfsRouteResponse × Kernel), e ∈ s.2.rows →
      e ∈ (vrs.foldl (installVrf if_nametoindex) s).2.rows := by
    intro vrs
    induction vrs with
    | nil => exact fun _ hs => hs
    | cons vr vrs ih =>
      intro s hs
      exact ih _ (hfrontes vr vr.prefixes (true, s.2) hs)
  exact hvrfs req.vrfs_requests _ he

/-! ### Two requests with the same entry -/

/-- What stands before a VRF in a request. -/
def earlier (req : VrfsRouteRequest) (vrfs_name : VrfsName) : List VrfsRequest :=
  req.vrfs_requests.takeWhile fun u => decide (u.vrfs_name ≠ vrfs_name)

/-- An entry before the one of `vr` adds one of its prefixes. -/
def Overlapped (req : VrfsRouteRequest) (vr : VrfsRequest) : Prop :=
  ∃ u ∈ earlier req vr.vrfs_name, Resolves if_nametoindex u ∧ ∃ pfx ∈ vr.prefixes, pfx ∈ u.prefixes

instance (req : VrfsRouteRequest) (vr : VrfsRequest) : Decidable (Overlapped if_nametoindex req vr) :=
  inferInstanceAs (Decidable (∃ _ ∈ _, _))

/-- No VRF is in the request twice. -/
def DistinctVrfs (req : VrfsRouteRequest) : Prop :=
  (req.vrfs_requests.map VrfsRequest.vrfs_name).Nodup

instance (req : VrfsRouteRequest) : Decidable (DistinctVrfs req) :=
  inferInstanceAs (Decidable (List.Nodup _))

theorem split_at_entry {req : VrfsRouteRequest} {vr : VrfsRequest} (hnames : DistinctVrfs req)
    (hvr : vr ∈ req.vrfs_requests) :
    vr.vrfs_name ∉ (earlier req vr.vrfs_name).map VrfsRequest.vrfs_name ∧
      ∃ after, req.vrfs_requests = earlier req vr.vrfs_name ++ vr :: after := by
  obtain ⟨before, after, hsplit⟩ := List.append_of_mem hvr
  unfold DistinctVrfs at hnames
  rw [hsplit, List.map_append, List.map_cons] at hnames
  have hfirst : vr.vrfs_name ∉ before.map VrfsRequest.vrfs_name := fun hmem =>
    (List.nodup_append.mp hnames).2.2 _ hmem _ List.mem_cons_self rfl
  have hearlier : earlier req vr.vrfs_name = before := by
    have hpos : ∀ u ∈ before, decide (u.vrfs_name ≠ vr.vrfs_name) = true := fun u hu =>
      decide_eq_true fun heq => hfirst (heq ▸ List.mem_map_of_mem hu)
    rw [earlier, hsplit, List.takeWhile_append_of_pos hpos,
      List.takeWhile_cons_of_neg (by simp), List.append_nil]
  rw [hearlier]
  exact ⟨hfirst, after, hsplit⟩

/-- Beside the keys of some entries, `vr` is installed when none of them has one of its prefixes. -/
theorem installs_beside (taken : Set RouteKey) (vrs : List VrfsRequest) (vr : VrfsRequest) :
    Installs if_nametoindex (taken ∪ added if_nametoindex vrs) vr ↔
      Installs if_nametoindex taken vr ∧
        ¬ ∃ u ∈ vrs, Resolves if_nametoindex u ∧ ∃ pfx ∈ vr.prefixes, pfx ∈ u.prefixes := by
  unfold Installs
  rw [fresh_union, and_assoc]
  refine and_congr_right fun _ => and_congr_right fun _ => ?_
  rw [List.forall_mem_map]
  refine ⟨fun h ⟨u, hu, hres, pfx, hpfx, hmem⟩ => ?_, fun h pfx hpfx ⟨u, hu, hres, hmem⟩ => ?_⟩
  · exact h pfx hpfx ⟨u, hu, hres, List.mem_map_of_mem hmem⟩
  · exact h ⟨u, hu, hres, pfx, hpfx, (List.mem_map_of_injective mainKey_injective).mp hmem⟩

/-- The entry of a VRF is answered with its own merits and with what stands before it. -/
theorem answerFor_vrf (kernel : Kernel) {req : VrfsRouteRequest} {vr : VrfsRequest}
    (hnames : DistinctVrfs req) (hvr : vr ∈ req.vrfs_requests) :
    ∃ status : Bool, answerFor (handleVrfsRouteRequest if_nametoindex kernel req).1 vr.vrfs_name =
        some ⟨vr.vrfs_name, status⟩ ∧
      (status = true ↔
        Installs if_nametoindex kernel.keys vr ∧ ¬ Overlapped if_nametoindex req vr) := by
  obtain ⟨hfirst, after, hsplit⟩ := split_at_entry hnames hvr
  obtain ⟨kernel', hkeys, hanswer⟩ := answerFor_entry if_nametoindex kernel hfirst after
  have hreq : req = ⟨earlier req vr.vrfs_name ++ vr :: after⟩ := by
    rcases req with ⟨entries⟩
    exact congrArg VrfsRouteRequest.mk hsplit
  refine ⟨(answerAt if_nametoindex kernel' vr).prefix_status, ?_, ?_⟩
  · rw [← hreq] at hanswer
    exact hanswer
  · rw [answerAt_status, hkeys, installs_beside]
    exact Iff.rfl

/-- An entry with one prefix, of the VRF whose name is filled with `name`, over the interface that the
kernel chooses. -/
def vrfEntry (name : UInt8) (pfx : PrefixIpv4) : VrfsRequest where
  vrfs_name := .replicate _ name
  iface_name := .replicate _ 0
  nexthop_addr_ipv4 := ipv4 10 0 0 1
  nexthop_id_ipv4 := 1
  prefixes := [pfx]

/-- **VRFs are answered apart from each other, but for what the main table shares.**  Two requests with
the same entry for a VRF answer it alike exactly when the entry cannot be installed on its own, or the
entries before it add one of its prefixes in both requests or in neither. -/
theorem vrf_isolation_iff (kernel : Kernel) {req req' : VrfsRouteRequest} {vr : VrfsRequest}
    (hnames : DistinctVrfs req) (hnames' : DistinctVrfs req') (hvr : vr ∈ req.vrfs_requests)
    (hvr' : vr ∈ req'.vrfs_requests) :
    ∃ answer answer' : VrfsAnswer,
      answerFor (handleVrfsRouteRequest if_nametoindex kernel req).1 vr.vrfs_name = some answer ∧
      answerFor (handleVrfsRouteRequest if_nametoindex kernel req').1 vr.vrfs_name = some answer' ∧
      (answer = answer' ↔ (Installs if_nametoindex kernel.keys vr →
        (Overlapped if_nametoindex req vr ↔ Overlapped if_nametoindex req' vr))) := by
  obtain ⟨status, hanswer, hstatus⟩ := answerFor_vrf if_nametoindex kernel hnames hvr
  obtain ⟨status', hanswer', hstatus'⟩ := answerFor_vrf if_nametoindex kernel hnames' hvr'
  refine ⟨_, _, hanswer, hanswer', ?_⟩
  have heq : (⟨vr.vrfs_name, status⟩ : VrfsAnswer) = ⟨vr.vrfs_name, status'⟩ ↔
      (status = true ↔ status' = true) := by
    rw [VrfsAnswer.mk.injEq, and_iff_right rfl, Bool.eq_iff_iff]
  rw [heq, hstatus, hstatus', and_congr_right_iff, not_iff_not]

theorem vrf_isolation_disjoint :
    ∃ answer answer' : VrfsAnswer,
      answerFor (handleVrfsRouteRequest (fun _ => none) .empty
        ⟨[vrfEntry 2 ⟨ipv4 10 2 0 0, 16⟩]⟩).1 (.replicate _ 2) = some answer ∧
      answerFor (handleVrfsRouteRequest (fun _ => none) .empty
        ⟨[vrfEntry 1 ⟨ipv4 10 1 0 0, 16⟩, vrfEntry 2 ⟨ipv4 10 2 0 0, 16⟩]⟩).1 (.replicate _ 2) =
          some answer' ∧ answer = answer' := by
  have halone : DistinctVrfs ⟨[vrfEntry 2 ⟨ipv4 10 2 0 0, 16⟩]⟩ := by decide
  have hsecond : DistinctVrfs
      ⟨[vrfEntry 1 ⟨ipv4 10 1 0 0, 16⟩, vrfEntry 2 ⟨ipv4 10 2 0 0, 16⟩]⟩ := by decide
  obtain ⟨answer, answer', hanswer, hanswer', heq⟩ := vrf_isolation_iff (fun _ => none) .empty halone
    hsecond List.mem_cons_self (List.mem_cons_of_mem _ List.mem_cons_self)
  exact ⟨answer, answer', hanswer, hanswer', heq.mpr fun _ => by decide⟩

/-- The same prefix in another VRF in front of it makes the entry fail. -/
theorem vrf_isolation_overlap :
    DistinctVrfs ⟨[vrfEntry 2 ⟨ipv4 10 1 0 0, 16⟩]⟩ ∧
    DistinctVrfs ⟨[vrfEntry 1 ⟨ipv4 10 1 0 0, 16⟩, vrfEntry 2 ⟨ipv4 10 1 0 0, 16⟩]⟩ ∧
    answerFor (handleVrfsRouteRequest (fun _ => none) .empty
      ⟨[vrfEntry 2 ⟨ipv4 10 1 0 0, 16⟩]⟩).1 (.replicate _ 2) = some ⟨.replicate _ 2, true⟩ ∧
    answerFor (handleVrfsRouteRequest (fun _ => none) .empty
      ⟨[vrfEntry 1 ⟨ipv4 10 1 0 0, 16⟩, vrfEntry 2 ⟨ipv4 10 1 0 0, 16⟩]⟩).1 (.replicate _ 2) =
        some ⟨.replicate _ 2, false⟩ := by
  decide

/-! ### The same request again -/

/-- Where no prefix of the entry can be added, the inner loop changes nothing and ends with `false`. -/
theorem foldl_installPrefix_refused (vr : VrfsRequest) (kernel : Kernel) :
    ∀ (prefixes : List PrefixIpv4) (ok : Bool),
      (∀ pfx ∈ prefixes, ¬ Addable if_nametoindex kernel vr pfx) →
        prefixes.foldl (installPrefix if_nametoindex vr) (ok, kernel) =
          (ok && decide (prefixes = []), kernel)
  | [], ok, _ => by simp
  | pfx :: prefixes, ok, h => by
    obtain ⟨hpfx, hrest⟩ := List.forall_mem_cons.mp h
    have hround : installPrefix if_nametoindex vr (ok, kernel) pfx = (false, kernel) := by
      rcases addRoute_prefix kernel vr pfx with ⟨-, err, hadd⟩ | ⟨hyes, -⟩
      · rw [installPrefix, hadd]
      · exact absurd hyes hpfx
    rw [List.foldl_cons, hround, foldl_installPrefix_refused vr kernel prefixes false hrest]
    simp

/-- The answers where nothing can be added: success for the entries without prefixes. -/
def refusals (vrs : List VrfsRequest) : List VrfsAnswer :=
  vrs.map fun vr => ⟨vr.vrfs_name, decide (vr.prefixes = [])⟩

theorem foldl_installVrf_refused (kernel : Kernel) :
    ∀ (vrs : List VrfsRequest) (resp : VrfsRouteResponse),
      (∀ vr ∈ vrs, ∀ pfx ∈ vr.prefixes, ¬ Addable if_nametoindex kernel vr pfx) →
        (vrs.foldl (installVrf if_nametoindex) (resp, kernel)).2 = kernel ∧
          (vrs.foldl (installVrf if_nametoindex) (resp, kernel)).1.answers =
            resp.answers ++ refusals vrs
  | [], resp, _ => ⟨rfl, (List.append_nil _).symm⟩
  | vr :: vrs, resp, h => by
    obtain ⟨hvr, hrest⟩ := List.forall_mem_cons.mp h
    have hround : installVrf if_nametoindex (resp, kernel) vr =
        ({ status_code := if decide (vr.prefixes = []) then resp.status_code else 0x01
           answers := resp.answers ++ [⟨vr.vrfs_name, decide (vr.prefixes = [])⟩] }, kernel) := by
      rw [installVrf, foldl_installPrefix_refused if_nametoindex vr kernel vr.prefixes true hvr]
      rfl
    rw [List.foldl_cons, hround]
    obtain ⟨hkernel, hanswers⟩ := foldl_installVrf_refused kernel vrs _ hrest
    refine ⟨hkernel, ?_⟩
    rw [hanswers, List.append_assoc]
    rfl

/-- After a request none of its prefixes can be added: its key is taken or its interface is missing. -/
theorem not_addable_after (kernel : Kernel) (req : VrfsRouteRequest) {vr : VrfsRequest}
    (hvr : vr ∈ req.vrfs_requests) {pfx : PrefixIpv4} (hpfx : pfx ∈ vr.prefixes) :
    ¬ Addable if_nametoindex (handleVrfsRouteRequest if_nametoindex kernel req).2 vr pfx := by
  rintro ⟨hres, hfree⟩
  refine hfree ?_
  rw [handleVrfsRouteRequest, keys_foldl_installVrf]
  exact .inr ⟨vr, hvr, hres, List.mem_map_of_mem hpfx⟩

/-- Handling a request again leaves the routes alone and answers success only without prefixes. -/
theorem handle_again (kernel : Kernel) (req : VrfsRouteRequest) :
    let kernel' := (handleVrfsRouteRequest if_nametoindex kernel req).2
    (handleVrfsRouteRequest if_nametoindex kernel' req).2 = kernel' ∧
      (handleVrfsRouteRequest if_nametoindex kernel' req).1.answers = refusals req.vrfs_requests :=
  foldl_installVrf_refused if_nametoindex _ req.vrfs_requests _
    fun _ hvr _ hpfx => not_addable_after if_nametoindex kernel req hvr hpfx

/-- **Handling a request again succeeds exactly when it carries no prefix**, be it installed the first
time or not.  The routes stay as they were either way: `add_route` meets the routes of the first time and
reports each as a failure. -/
theorem reinstall_iff (kernel : Kernel) (req : VrfsRouteRequest) :
    let kernel' := (handleVrfsRouteRequest if_nametoindex kernel req).2
    let again := handleVrfsRouteRequest if_nametoindex kernel' req
    (again.1.status_code = 0 ∧ (∀ a ∈ again.1.answers, a.prefix_status = true) ∧
        again.2 = kernel') ↔
      ∀ vr ∈ req.vrfs_requests, vr.prefixes = [] := by
  intro kernel' again
  obtain ⟨hkernel, hanswers⟩ := handle_again if_nametoindex kernel req
  have hstatus : (∀ a ∈ again.1.answers, a.prefix_status = true) ↔
      ∀ vr ∈ req.vrfs_requests, vr.prefixes = [] := by
    rw [hanswers, refusals, List.forall_mem_map]
    simp only [decide_eq_true_eq]
  rw [status_code_iff, and_iff_left hkernel, and_self, hstatus]

/-- One prefix into an empty kernel: installed the first time, reported as failed the second time. -/
theorem reinstall_one_prefix :
    let req : VrfsRouteRequest := ⟨[vrfEntry 1 ⟨ipv4 10 1 0 0, 16⟩]⟩
    let first := handleVrfsRouteRequest (fun _ => none) .empty req
    let again := handleVrfsRouteRequest (fun _ => none) first.2 req
    first.1.status_code = 0 ∧ again.1 = ⟨1, [⟨.replicate _ 1, false⟩]⟩ := by
  decide

end Rtsrv.Netlink
