import Mathlib.Data.List.MinMax
import Rtsrv.Client.NetlinkRoutes
import Rtsrv.Client.NlReplies
import Rtsrv.Wire.VrfAnswers

/-!
# Rtsrv.Client.RouteKernel — the kernel behind the route requests (`netlink.cpp`)

What becomes of a request is up to the kernel, which is not in the repository, and is a parameter here.  What is
assumed of it is what rtnetlink documents, for IPv4 routes without a type of service of which there is at most one
for each table, prefix and metric.  The map that takes every request is one such kernel.
-/

namespace Rtsrv.Netlink

open Lib CmdProto
open Client (TransactError)

def EEXIST : Int32 := 17
def ESRCH : Int32 := 3

def RouteScope.Nowhere : UInt8 := 255

/-! ### Requests -/

/-- Table, destination and prefix length. -/
abbrev RoutePrefix := UInt32 × Ipv4Addr × UInt8

def KernelEntry.routePrefix (e : KernelEntry) : RoutePrefix := (e.table, e.dst, e.prefix_len)

/-- The kernel prefers the routes of a prefix by their metrics. -/
def KernelEntry.rank (e : KernelEntry) : ℕ := e.metric.toNat

/-- The route is as it was asked for.  Where no interface was named the kernel finds one, and the gateway 0.0.0.0
may count as none. -/
structure KernelEntry.Realizes (e asked : KernelEntry) : Prop where
  key : e.key = asked.key
  gateway : e.gateway = asked.gateway ∨ asked.gateway = some anyAddr ∧ e.gateway = none
  oif : asked.oif ≠ none → e.oif = asked.oif
  protocol : e.protocol = asked.protocol
  scope : e.scope = asked.scope
  type : e.type = asked.type

/-- An `RTM_DELROUTE` request: the `rtmsg` body and the attributes. -/
structure DelRoute where
  nlmsg_flags : UInt16
  rtm_dst_len : UInt8
  rtm_table : UInt8
  rtm_scope : UInt8
  dst : Ipv4Addr
  gateway : Option Ipv4Addr
  oif : Option UInt32
  table : Option UInt32
  deriving DecidableEq, Repr

def DelRoute.routePrefix (msg : DelRoute) : RoutePrefix :=
  (msg.table.getD msg.rtm_table.toUInt32, msg.dst, msg.rtm_dst_len)

/-- The route meets what the request says of it; `RT_SCOPE_NOWHERE` stands for any scope. -/
def DelRoute.matches (msg : DelRoute) (e : KernelEntry) : Bool :=
  decide (msg.rtm_scope = RouteScope.Nowhere ∨ e.scope = msg.rtm_scope) &&
    (decide (msg.gateway = none ∨ e.gateway = msg.gateway) && decide (msg.oif = none ∨ e.oif = msg.oif))

/-! ### Kernels -/

/-- A kernel behind a socket that is open: the routes that it has in its states, and what `nl_transact` returns
for a request with the state behind it. -/
structure RouteKernel where
  State : Type
  routes : State → Kernel
  rtmNewroute : NewRoute → State → Except TransactError Unit × State
  rtmDelroute : DelRoute → State → Except TransactError Unit × State

variable {K : RouteKernel}

/-- A route that the request asks for is there now, under a key that was free. -/
def RouteKernel.Added (K : RouteKernel) (msg : NewRoute) (s s' : K.State) : Prop :=
  ∃ e : KernelEntry, e.Realizes msg.entry ∧ (K.routes s).Gains (K.routes s') e

/-- Of the routes to the prefix that match the request, the preferred one is gone. -/
def RouteKernel.Deleted (K : RouteKernel) (msg : DelRoute) (s s' : K.State) : Prop :=
  ∃ e : KernelEntry, e.routePrefix = msg.routePrefix ∧ msg.matches e = true ∧
    (∀ f ∈ (K.routes s).rows, f.routePrefix = msg.routePrefix → msg.matches f = true → e.rank ≤ f.rank) ∧
    (K.routes s).Loses (K.routes s') e

/-- What rtnetlink documents of exclusive adds and of deletes.  One that is answered by an error changes nothing,
and where the answer is lost it was carried out or not. -/
structure RouteKernel.Documented (K : RouteKernel) : Prop where
  new_granted : ∀ {msg s}, msg.nlmsg_flags &&& NLM_F_EXCL ≠ 0 → (K.rtmNewroute msg s).1 = .ok () →
    K.Added msg s (K.rtmNewroute msg s).2
  new_lost : ∀ {msg s}, msg.nlmsg_flags &&& NLM_F_EXCL ≠ 0 → (K.rtmNewroute msg s).1 = .error .RecvFailed →
    (K.routes s).Same (K.routes (K.rtmNewroute msg s).2) ∨ K.Added msg s (K.rtmNewroute msg s).2
  new_refused : ∀ {msg s e}, (K.rtmNewroute msg s).1 = .error e → e ≠ .RecvFailed →
    (K.routes s).Same (K.routes (K.rtmNewroute msg s).2)
  new_exists : ∀ {msg s}, (K.rtmNewroute msg s).1 = .error (.system EEXIST) → msg.entry.key ∈ (K.routes s).keys
  del_granted : ∀ {msg s}, (K.rtmDelroute msg s).1 = .ok () → K.Deleted msg s (K.rtmDelroute msg s).2
  del_lost : ∀ {msg s}, (K.rtmDelroute msg s).1 = .error .RecvFailed →
    (K.routes s).Same (K.routes (K.rtmDelroute msg s).2) ∨ K.Deleted msg s (K.rtmDelroute msg s).2
  del_refused : ∀ {msg s e}, (K.rtmDelroute msg s).1 = .error e → e ≠ .RecvFailed →
    (K.routes s).Same (K.routes (K.rtmDelroute msg s).2)
  del_none : ∀ {msg s}, (K.rtmDelroute msg s).1 = .error (.system ESRCH) →
    ∀ e ∈ (K.routes s).rows, e.routePrefix = msg.routePrefix → msg.matches e = false

/-! ### `netlink::add_route` and `netlink::delete_route` -/

inductive RequestError where
  | name (e : RouteError)
  | transact (e : TransactError)
  deriving DecidableEq, Repr

/-- The answer to the request did not come. -/
def RequestError.lost : RequestError := .transact .RecvFailed

/-- `netlink::RouteDelParams`. -/
structure RouteDelParams where
  dst : Ipv4Addr
  prefix_len : UInt8
  gateway : Ipv4Addr
  has_gateway : Bool
  if_name : CString
  table : UInt32
  deriving DecidableEq, Repr

section Requests

variable (if_nametoindex : CString → Option UInt32)

def RouteKernel.addRoute (K : RouteKernel) (params : RouteAddParams) (s : K.State) :
    Except RequestError Unit × K.State :=
  match newRoute if_nametoindex params (NLM_F_CREATE ||| NLM_F_EXCL) with
  | .error e => (.error (.name e), s)
  | .ok msg => ((K.rtmNewroute msg s).1.mapError .transact, (K.rtmNewroute msg s).2)

def delRoute (params : RouteDelParams) : Except RouteError DelRoute := do
  let oif ← outputInterface if_nametoindex params.if_name
  pure {
    nlmsg_flags := NLM_F_ACK
    rtm_dst_len := params.prefix_len
    rtm_table := if params.table ≤ 255 then params.table.toUInt8 else 0
    -- Both link-scope and universe-scope routes are matched.
    rtm_scope := RouteScope.Nowhere
    dst := params.dst
    gateway := if params.has_gateway then some params.gateway else none
    oif := oif
    table := if params.table ≤ 255 then none else some params.table }

def RouteKernel.deleteRoute (K : RouteKernel) (params : RouteDelParams) (s : K.State) :
    Except RequestError Unit × K.State :=
  match delRoute if_nametoindex params with
  | .error e => (.error (.name e), s)
  | .ok msg => ((K.rtmDelroute msg s).1.mapError .transact, (K.rtmDelroute msg s).2)

end Requests

section Answers

variable (hK : K.Documented)

include hK

/-- An add puts its route and is answered by success, if the answer comes; or it fails and changes nothing. -/
theorem RouteKernel.Documented.addRoute_cases (if_nametoindex : CString → Option UInt32)
    (params : RouteAddParams) (s : K.State) :
    (∃ msg, newRoute if_nametoindex params (NLM_F_CREATE ||| NLM_F_EXCL) = .ok msg ∧
      K.Added msg s (K.addRoute if_nametoindex params s).2 ∧
      ((K.addRoute if_nametoindex params s).1 = .ok () ∨
        (K.addRoute if_nametoindex params s).1 = .error .lost)) ∨
    ∃ e, (K.addRoute if_nametoindex params s).1 = .error e ∧
      (K.routes s).Same (K.routes (K.addRoute if_nametoindex params s).2) ∧
      (e = .transact (.system EEXIST) → ∃ msg,
        newRoute if_nametoindex params (NLM_F_CREATE ||| NLM_F_EXCL) = .ok msg ∧
          msg.entry.key ∈ (K.routes s).keys) := by
  unfold RouteKernel.addRoute
  cases hmsg : newRoute if_nametoindex params (NLM_F_CREATE ||| NLM_F_EXCL) with
  | error e => exact .inr ⟨_, rfl, fun _ => Iff.rfl, fun h => by cases h⟩
  | ok msg =>
    have hexcl : msg.nlmsg_flags &&& NLM_F_EXCL ≠ 0 := by
      obtain ⟨oif, -, hmsg⟩ := except_bind_ok.mp hmsg
      obtain rfl := except_pure_ok.mp hmsg
      exact (by decide : (NLM_F_ACK ||| (NLM_F_CREATE ||| NLM_F_EXCL)) &&& NLM_F_EXCL ≠ 0)
    dsimp only
    cases hanswer : (K.rtmNewroute msg s).1 with
    | ok u => exact .inl ⟨msg, rfl, hK.new_granted hexcl hanswer, .inl rfl⟩
    | error e =>
      by_cases hlost : e = .RecvFailed
      · subst hlost
        rcases hK.new_lost hexcl hanswer with hsame | hadded
        · exact .inr ⟨_, rfl, hsame, fun h => by cases h⟩
        · exact .inl ⟨msg, rfl, hadded, .inr rfl⟩
      · refine .inr ⟨_, rfl, hK.new_refused hanswer hlost, fun h => ⟨msg, rfl, hK.new_exists ?_⟩⟩
        rw [hanswer, RequestError.transact.inj h]

/-- A delete takes the preferred route and is answered by success, if the answer comes; or it fails and changes
nothing. -/
theorem RouteKernel.Documented.deleteRoute_cases {if_nametoindex : CString → Option UInt32}
    {params : RouteDelParams} {msg : DelRoute} (hmsg : delRoute if_nametoindex params = .ok msg) (s : K.State) :
    (K.Deleted msg s (K.deleteRoute if_nametoindex params s).2 ∧
      ((K.deleteRoute if_nametoindex params s).1 = .ok () ∨
        (K.deleteRoute if_nametoindex params s).1 = .error .lost)) ∨
    ∃ e, (K.deleteRoute if_nametoindex params s).1 = .error e ∧
      (K.routes s).Same (K.routes (K.deleteRoute if_nametoindex params s).2) ∧
      (e = .transact (.system ESRCH) →
        ∀ f ∈ (K.routes s).rows, f.routePrefix = msg.routePrefix → msg.matches f = false) := by
  rw [RouteKernel.deleteRoute, hmsg]
  dsimp only
  cases hanswer : (K.rtmDelroute msg s).1 with
  | ok u => exact .inl ⟨hK.del_granted hanswer, .inl rfl⟩
  | error e =>
    by_cases hlost : e = .RecvFailed
    · subst hlost
      rcases hK.del_lost hanswer with hsame | hdeleted
      · exact .inr ⟨_, rfl, hsame, fun h => by cases h⟩
      · exact .inl ⟨hdeleted, .inr rfl⟩
    · refine .inr ⟨_, rfl, hK.del_refused hanswer hlost, fun h => hK.del_none ?_⟩
      rw [hanswer, RequestError.transact.inj h]

end Answers

/-! ### `handle_vrfs_route_request` -/

/-- For such a route the kernel has no error but that its key is taken, and every answer comes. -/
def RouteKernel.Accepts (K : RouteKernel) (asked : KernelEntry → Prop) : Prop :=
  ∀ msg s, asked msg.entry → (K.rtmNewroute msg s).1 = .ok () ∨ (K.rtmNewroute msg s).1 = .error (.system EEXIST)

/-- The row of a prefix of an entry, over the interface with the index `oif`. -/
def prefixEntry (vr : VrfsRequest) (oif : Option UInt32) (pfx : PrefixIpv4) : KernelEntry where
  table := RouteTable.Main
  dst := pfx.addr
  prefix_len := pfx.mask_len
  metric := 0
  gateway := some vr.nexthop_addr_ipv4
  oif := oif
  protocol := RouteProtocol.Static
  scope := RouteScope.Universe
  type := RouteType.Unicast

section Handler

variable {if_nametoindex : CString → Option UInt32}

/-- The request for a prefix of an entry asks for its row. -/
theorem newRoute_routeParams {vr : VrfsRequest} {pfx : PrefixIpv4} {extra_flags : UInt16} {msg : NewRoute}
    (h : newRoute if_nametoindex (routeParams vr pfx) extra_flags = .ok msg) :
    ∃ oif, outputInterface if_nametoindex (ifName vr) = .ok oif ∧ msg.entry = prefixEntry vr oif pfx := by
  obtain ⟨oif, hoif, hmsg⟩ := except_bind_ok.mp h
  obtain rfl := except_pure_ok.mp hmsg
  exact ⟨oif, hoif, rfl⟩

variable (if_nametoindex) (hK : K.Documented)

include hK

theorem addPrefix_cases (vr : VrfsRequest) (pfx : PrefixIpv4) (s : K.State) :
    (∃ oif e, outputInterface if_nametoindex (ifName vr) = .ok oif ∧ e.Realizes (prefixEntry vr oif pfx) ∧
      (K.routes s).Gains (K.routes (K.addRoute if_nametoindex (routeParams vr pfx) s).2) e) ∨
    (K.routes s).Same (K.routes (K.addRoute if_nametoindex (routeParams vr pfx) s).2) := by
  rcases hK.addRoute_cases if_nametoindex (routeParams vr pfx) s with
    ⟨msg, hmsg, ⟨e, he, hgains⟩, -⟩ | ⟨-, -, hsame, -⟩
  · obtain ⟨oif, hoif, hentry⟩ := newRoute_routeParams hmsg
    exact .inl ⟨oif, e, hoif, hentry ▸ he, hgains⟩
  · exact .inr hsame

/-- Adding takes no route away. -/
theorem addPrefix_keeps (vr : VrfsRequest) (pfx : PrefixIpv4) (s : K.State) {e : KernelEntry}
    (he : e ∈ (K.routes s).rows) :
    e ∈ (K.routes (K.addRoute if_nametoindex (routeParams vr pfx) s).2).rows := by
  rcases addPrefix_cases if_nametoindex hK vr pfx s with ⟨-, _, -, -, hgains⟩ | hsame
  · exact (hgains.mem e).mpr (.inr he)
  · exact (hsame e).mpr he

variable {if_nametoindex}

/-- Where a route is accepted its key is taken afterwards. -/
theorem addPrefix_taken {asked : KernelEntry → Prop} (haccepts : K.Accepts asked) {vr : VrfsRequest}
    {oif : Option UInt32} (hoif : outputInterface if_nametoindex (ifName vr) = .ok oif) {pfx : PrefixIpv4}
    (hasked : asked (prefixEntry vr oif pfx)) (s : K.State) :
    mainKey pfx ∈ (K.routes (K.addRoute if_nametoindex (routeParams vr pfx) s).2).keys := by
  have hnew : ∃ msg, newRoute if_nametoindex (routeParams vr pfx) (NLM_F_CREATE ||| NLM_F_EXCL) = .ok msg := by
    have hname : (routeParams vr pfx).if_name = ifName vr := rfl
    rw [newRoute, hname, hoif]
    exact ⟨_, rfl⟩
  obtain ⟨msg, hmsg⟩ := hnew
  obtain ⟨oif', hoif', hentry⟩ := newRoute_routeParams hmsg
  obtain rfl := Except.ok.inj (hoif.symm.trans hoif')
  have hanswer : (K.addRoute if_nametoindex (routeParams vr pfx) s).1 = .ok () ∨
      (K.addRoute if_nametoindex (routeParams vr pfx) s).1 = .error (.transact (.system EEXIST)) := by
    rw [RouteKernel.addRoute, hmsg]
    rcases haccepts msg s (hentry ▸ hasked) with hok | hexists
    · exact .inl (congrArg (Except.mapError RequestError.transact) hok)
    · exact .inr (congrArg (Except.mapError RequestError.transact) hexists)
  rcases hK.addRoute_cases if_nametoindex (routeParams vr pfx) s with
    ⟨msg', hmsg', ⟨e, he, hgains⟩, -⟩ | ⟨error, herror, hsame, htaken⟩
  · obtain rfl := Except.ok.inj (hmsg.symm.trans hmsg')
    rw [hgains.keys, he.key, hentry]
    exact .inl rfl
  · rcases hanswer with hok | hexists
    · cases herror.symm.trans hok
    · obtain ⟨msg', hmsg', hkey⟩ := htaken (Except.error.inj (herror.symm.trans hexists))
      obtain rfl := Except.ok.inj (hmsg.symm.trans hmsg')
      rw [hsame.keys]
      exact (congrArg (· ∈ (K.routes s).keys) (congrArg KernelEntry.key hentry)).mp hkey

variable (if_nametoindex) in
/-- Handling a request takes no route away. -/
theorem handle_keeps (req : VrfsRouteRequest) (s : K.State) {e : KernelEntry} (he : e ∈ (K.routes s).rows) :
    e ∈ (K.routes (handleVrfsRouteRequestBy (K.addRoute if_nametoindex) s req).2).rows := by
  rw [handleVrfsRouteRequestBy, foldl_installVrfBy_world]
  exact attempts_invariant (P := fun t => e ∈ (K.routes t).rows)
    (fun c _ t => addPrefix_keeps if_nametoindex hK c.1 c.2 t) s he

/-- It adds routes of its entries and no others. -/
theorem handle_rows {req : VrfsRouteRequest} {s : K.State} {e : KernelEntry}
    (he : e ∈ (K.routes (handleVrfsRouteRequestBy (K.addRoute if_nametoindex) s req).2).rows) :
    e ∈ (K.routes s).rows ∨ ∃ c ∈ vrfCalls req, ∃ oif,
      outputInterface if_nametoindex (ifName c.1) = .ok oif ∧ e.Realizes (prefixEntry c.1 oif c.2) := by
  rw [handleVrfsRouteRequestBy, foldl_installVrfBy_world] at he
  refine attempts_invariant (P := fun t => e ∈ (K.routes t).rows → e ∈ (K.routes s).rows ∨ ∃ c ∈ vrfCalls req,
    ∃ oif, outputInterface if_nametoindex (ifName c.1) = .ok oif ∧ e.Realizes (prefixEntry c.1 oif c.2))
    (fun c hc t ht he => ?_) s .inl he
  rcases addPrefix_cases if_nametoindex hK c.1 c.2 t with ⟨oif, f, hoif, hf, hgains⟩ | hsame
  · rcases (hgains.mem e).mp he with rfl | he
    · exact .inr ⟨c, hc, oif, hoif, hf⟩
    · exact ht he
  · exact ht ((hsame e).mp he)

/-- Afterwards the key of each prefix is taken that the kernel accepts. -/
theorem handle_taken {asked : KernelEntry → Prop} (haccepts : K.Accepts asked) {req : VrfsRouteRequest}
    {c : VrfsRequest × PrefixIpv4} (hc : c ∈ vrfCalls req) {oif : Option UInt32}
    (hoif : outputInterface if_nametoindex (ifName c.1) = .ok oif) (hasked : asked (prefixEntry c.1 oif c.2))
    (s : K.State) :
    mainKey c.2 ∈ (K.routes (handleVrfsRouteRequestBy (K.addRoute if_nametoindex) s req).2).keys := by
  rw [handleVrfsRouteRequestBy, foldl_installVrfBy_world]
  refine attempts_brings (P := fun t => mainKey c.2 ∈ (K.routes t).keys) hc
    (addPrefix_taken hK haccepts hoif hasked) (fun d _ t ht => ?_) s
  obtain ⟨e, he, hkey⟩ := ht
  exact ⟨e, addPrefix_keeps if_nametoindex hK d.1 d.2 t he, hkey⟩

/-- Where the keys of its prefixes are taken it changes nothing. -/
theorem handle_same {req : VrfsRouteRequest} {s : K.State}
    (htaken : ∀ c ∈ vrfCalls req, ∀ oif, outputInterface if_nametoindex (ifName c.1) = .ok oif →
      mainKey c.2 ∈ (K.routes s).keys) :
    (K.routes s).Same (K.routes (handleVrfsRouteRequestBy (K.addRoute if_nametoindex) s req).2) := by
  rw [handleVrfsRouteRequestBy, foldl_installVrfBy_world]
  refine attempts_invariant (P := fun t => (K.routes s).Same (K.routes t)) (fun c hc t ht => ?_) s
    fun _ => Iff.rfl
  rcases addPrefix_cases if_nametoindex hK c.1 c.2 t with ⟨oif, e, hoif, he, hgains⟩ | hsame
  · refine absurd ?_ hgains.free
    rw [ht.keys, he.key]
    exact htaken c hc oif hoif
  · exact ht.trans hsame

end Handler

/-! ### The map that takes every request -/

theorem KernelEntry.Realizes.refl (e : KernelEntry) : e.Realizes e := ⟨rfl, .inl rfl, fun _ => rfl, rfl, rfl, rfl⟩

def mapNew (msg : NewRoute) (kernel : Kernel) : Except TransactError Unit × Kernel :=
  match nlTransact kernel msg with
  | .ok kernel' => (.ok (), kernel')
  | .error _ => (.error (.system EEXIST), kernel)

def mapDel (msg : DelRoute) (kernel : Kernel) : Except TransactError Unit × Kernel :=
  match (kernel.rows.filter fun e => decide (e.routePrefix = msg.routePrefix) && msg.matches e).argmin
      KernelEntry.rank with
  | none => (.error (.system ESRCH), kernel)
  | some e => (.ok (), kernel.erase e.key)

/-- A kernel that refuses a request for a taken key, and a delete that no route matches, and nothing else. -/
abbrev mapKernel : RouteKernel := ⟨Kernel, id, mapNew, mapDel⟩

theorem mapNew_cases (msg : NewRoute) (kernel : Kernel) :
    (∃ e, nlTransact kernel msg = .error e ∧ msg.entry.key ∈ kernel.keys ∧
      mapNew msg kernel = (.error (.system EEXIST), kernel)) ∨
    (msg.nlmsg_flags &&& NLM_F_EXCL ≠ 0 → msg.entry.key ∉ kernel.keys) ∧
      nlTransact kernel msg = .ok (kernel.put msg.entry) ∧
      mapNew msg kernel = (.ok (), kernel.put msg.entry) := by
  rw [mapNew, nlTransact]
  split_ifs with htaken
  · exact .inl ⟨_, rfl, Keyed.find_ne_none.mp htaken.2, rfl⟩
  · exact .inr ⟨fun hexcl hkey => htaken ⟨hexcl, Keyed.find_ne_none.mpr hkey⟩, rfl, rfl⟩

theorem mapDel_cases (msg : DelRoute) (kernel : Kernel) :
    (mapDel msg kernel = (.error (.system ESRCH), kernel) ∧
      ∀ e ∈ kernel.rows, e.routePrefix = msg.routePrefix → msg.matches e = false) ∨
    ∃ kernel', mapDel msg kernel = (.ok (), kernel') ∧ mapKernel.Deleted msg kernel kernel' := by
  have hmem : ∀ e, e ∈ kernel.rows.filter (fun e => decide (e.routePrefix = msg.routePrefix) && msg.matches e) ↔
      e ∈ kernel.rows ∧ e.routePrefix = msg.routePrefix ∧ msg.matches e = true := by
    intro e
    rw [List.mem_filter, Bool.and_eq_true, decide_eq_true_eq]
  rcases hmin : (kernel.rows.filter fun e => decide (e.routePrefix = msg.routePrefix) && msg.matches e).argmin
      KernelEntry.rank with _ | e
  · refine .inl ⟨by rw [mapDel, hmin], fun e he hpfx => ?_⟩
    by_contra hmatches
    have hin := (hmem e).mpr ⟨he, hpfx, by simpa using hmatches⟩
    rw [List.argmin_eq_none.mp hmin] at hin
    exact List.not_mem_nil hin
  · obtain ⟨he, hpfx, hmatches⟩ := (hmem e).mp (List.argmin_mem hmin)
    exact .inr ⟨kernel.erase e.key, by rw [mapDel, hmin], e, hpfx, hmatches,
      fun f hf hfp hfm => List.le_of_mem_argmin ((hmem f).mpr ⟨hf, hfp, hfm⟩) hmin, Keyed.loses_erase he⟩

theorem mapKernel_documented : mapKernel.Documented where
  new_granted := by
    intro msg kernel hexcl hanswer
    dsimp only at hanswer ⊢
    rcases mapNew_cases msg kernel with ⟨e, -, -, heq⟩ | ⟨hfree, -, heq⟩
    · rw [heq] at hanswer
      cases hanswer
    · rw [heq]
      exact ⟨msg.entry, .refl _, Keyed.gains_put (hfree hexcl)⟩
  new_lost := by
    intro msg kernel _ hanswer
    dsimp only at hanswer
    rcases mapNew_cases msg kernel with ⟨e, -, -, heq⟩ | ⟨-, -, heq⟩ <;> rw [heq] at hanswer <;> cases hanswer
  new_refused := by
    intro msg kernel e hanswer _
    dsimp only at hanswer ⊢
    rcases mapNew_cases msg kernel with ⟨e, -, -, heq⟩ | ⟨-, -, heq⟩
    · rw [heq]
      exact fun _ => Iff.rfl
    · rw [heq] at hanswer
      cases hanswer
  new_exists := by
    intro msg kernel hanswer
    dsimp only at hanswer
    rcases mapNew_cases msg kernel with ⟨e, -, htaken, -⟩ | ⟨-, -, heq⟩
    · exact htaken
    · rw [heq] at hanswer
      cases hanswer
  del_granted := by
    intro msg kernel hanswer
    dsimp only at hanswer ⊢
    rcases mapDel_cases msg kernel with ⟨heq, -⟩ | ⟨kernel', heq, hdeleted⟩
    · rw [heq] at hanswer
      cases hanswer
    · rw [heq]
      exact hdeleted
  del_lost := by
    intro msg kernel hanswer
    dsimp only at hanswer
    rcases mapDel_cases msg kernel with ⟨heq, -⟩ | ⟨kernel', heq, -⟩ <;> rw [heq] at hanswer <;> cases hanswer
  del_refused := by
    intro msg kernel e hanswer _
    dsimp only at hanswer ⊢
    rcases mapDel_cases msg kernel with ⟨heq, -⟩ | ⟨kernel', heq, -⟩
    · rw [heq]
      exact fun _ => Iff.rfl
    · rw [heq] at hanswer
      cases hanswer
  del_none := by
    intro msg kernel hanswer
    dsimp only at hanswer
    rcases mapDel_cases msg kernel with ⟨-, hnone⟩ | ⟨kernel', heq, -⟩
    · exact hnone
    · rw [heq] at hanswer
      cases hanswer

theorem mapKernel_accepts (asked : KernelEntry → Prop) : mapKernel.Accepts asked := by
  intro msg kernel _
  dsimp only
  rcases mapNew_cases msg kernel with ⟨e, -, -, heq⟩ | ⟨-, -, heq⟩
  · exact .inr (congrArg Prod.fst heq)
  · exact .inl (congrArg Prod.fst heq)

/-- Only success and the routes matter to the handler. -/
theorem handleVrfsRouteRequestBy_congr {ε ε' σ : Type} {add_route : RouteAddParams → σ → Except ε Unit × σ}
    {add_route' : RouteAddParams → σ → Except ε' Unit × σ}
    (h : ∀ params world, (add_route params world).1.isOk = (add_route' params world).1.isOk ∧
      (add_route params world).2 = (add_route' params world).2) :
    handleVrfsRouteRequestBy add_route = handleVrfsRouteRequestBy add_route' := by
  have hpfx : ∀ vr, installPrefixBy add_route vr = installPrefixBy add_route' vr := by
    intro vr
    funext s pfx
    rw [installPrefixBy, installPrefixBy, attemptFlag_eq, attemptFlag_eq, (h _ _).1, (h _ _).2]
  have hvrf : installVrfBy add_route = installVrfBy add_route' := by
    funext s vr
    rw [installVrfBy, installVrfBy, hpfx]
  funext world req
  rw [handleVrfsRouteRequestBy, handleVrfsRouteRequestBy, hvrf]

/-- On the map the handler does what it does on the routes themselves. -/
theorem handle_mapKernel (if_nametoindex : CString → Option UInt32) (kernel : Kernel) (req : VrfsRouteRequest) :
    handleVrfsRouteRequestBy (mapKernel.addRoute if_nametoindex) kernel req =
      handleVrfsRouteRequest if_nametoindex kernel req := by
  rw [handleVrfsRouteRequest_eq]
  refine congrFun (congrFun (handleVrfsRouteRequestBy_congr fun params kernel => ?_) kernel) req
  rw [kernelAddRoute, addRoute, sendRouteNew_newRoute]
  unfold RouteKernel.addRoute
  cases newRoute if_nametoindex params (NLM_F_CREATE ||| NLM_F_EXCL) with
  | error e => exact ⟨rfl, rfl⟩
  | ok msg =>
    rw [ok_bind]
    dsimp only
    rcases mapNew_cases msg kernel with ⟨e, hold, -, hnew⟩ | ⟨-, hold, hnew⟩
    · rw [hold, hnew]
      exact ⟨rfl, rfl⟩
    · rw [hold, hnew]
      exact ⟨rfl, rfl⟩

end Rtsrv.Netlink
