import Rtsrv.Client.DumpRoutes
import Rtsrv.Client.RouteKernel
import Rtsrv.Lib.Collect
import Rtsrv.Lib.Shelf
import Rtsrv.Wire.TlvCommands

/-!
# Rtsrv.Client.RouteCommands — the commands ROUTE_ADD, ROUTE_DEL and ROUTE_LIST (`cmd_proto.cpp`, `netlink.cpp`)

The commands work on the main table of a kernel.  Each prefix has its routes from the least metric up: a ROUTE_ADD
that succeeds puts a route at a metric that is free, a ROUTE_DEL takes the first route that has the gateway, be it
the one that was added or not, and no command reaches another prefix.  ROUTE_LIST shows what is left.
-/

namespace Rtsrv.Netlink

open Lib CmdProto

def RouteScope.Link : UInt8 := 253

/-! ### The handlers of the commands -/

/-- An all-zero gateway means a link-scope route without a next hop. -/
def addParams (p : CmdProto.RouteAddParams) : RouteAddParams where
  dst := p.dst_addr
  prefix_len := p.prefix_len
  gateway := if p.gateway ≠ Ipv4Addr.zero then p.gateway else Ipv4Addr.zero
  has_gateway := p.gateway ≠ Ipv4Addr.zero
  if_name := p.if_name
  metric := p.metric.toUInt32
  table := RouteTable.Main
  protocol := RouteProtocol.Static
  scope := if p.gateway ≠ Ipv4Addr.zero then RouteScope.Universe else RouteScope.Link
  type := RouteType.Unicast

def delParams (p : CmdProto.RouteDelParams) : RouteDelParams where
  dst := p.dst_addr
  prefix_len := p.prefix_len
  gateway := if p.gateway ≠ Ipv4Addr.zero then p.gateway else Ipv4Addr.zero
  has_gateway := p.gateway ≠ Ipv4Addr.zero
  if_name := []
  table := RouteTable.Main

section Handlers

variable (K : RouteKernel) (if_nametoindex : CString → Option UInt32)

def handleRouteAdd (p : CmdProto.RouteAddParams) (s : K.State) : Except RequestError Unit × K.State :=
  K.addRoute if_nametoindex (addParams p) s

def handleRouteDel (p : CmdProto.RouteDelParams) (s : K.State) : Except RequestError Unit × K.State :=
  K.deleteRoute if_nametoindex (delParams p) s

/-! ### Commands -/

inductive RouteCommand where
  | add (p : CmdProto.RouteAddParams)
  | del (p : CmdProto.RouteDelParams)
  deriving DecidableEq, Repr

/-- The prefix that a command is about. -/
def RouteCommand.target : RouteCommand → RoutePrefix
  | add p => (RouteTable.Main, p.dst_addr, p.prefix_len)
  | del p => (RouteTable.Main, p.dst_addr, p.prefix_len)

def RouteCommand.handle : RouteCommand → K.State → Except RequestError Unit × K.State
  | add p => handleRouteAdd K if_nametoindex p
  | del p => handleRouteDel K if_nametoindex p

/-- The kernel behind some commands. -/
def behind (cmds : List RouteCommand) (s : K.State) : K.State :=
  (attempts (RouteCommand.handle K if_nametoindex) cmds s).2

/-- The commands about a prefix, each with its answer. -/
def answersAbout (cmds : List RouteCommand) (s : K.State) (pfx : RoutePrefix) :
    List (RouteCommand × Except RequestError Unit) :=
  (cmds.zip (attempts (RouteCommand.handle K if_nametoindex) cmds s).1).filter fun r => r.1.target = pfx

end Handlers

/-! ### What the commands do to a prefix -/

/-- The route that ROUTE_ADD asks for. -/
def addedEntry (p : CmdProto.RouteAddParams) (oif : Option UInt32) : KernelEntry where
  table := RouteTable.Main
  dst := p.dst_addr
  prefix_len := p.prefix_len
  metric := p.metric.toUInt32
  gateway := if p.gateway ≠ Ipv4Addr.zero then some p.gateway else none
  oif := oif
  protocol := RouteProtocol.Static
  scope := if p.gateway ≠ Ipv4Addr.zero then RouteScope.Universe else RouteScope.Link
  type := RouteType.Unicast

/-- The route has the gateway that ROUTE_DEL asks for. -/
def hasGateway (p : CmdProto.RouteDelParams) (e : KernelEntry) : Bool :=
  decide (p.gateway = Ipv4Addr.zero ∨ e.gateway = some p.gateway)

/-- What a command does to the routes of its prefix, preferred ones first, as its answer says.  Where no answer
came it has done its part or nothing. -/
inductive RouteCommand.OnPrefix (if_nametoindex : CString → Option UInt32) :
    RouteCommand → Except RequestError Unit → Shelf KernelEntry.rank → Shelf KernelEntry.rank → Prop
  | added {p oif e routes answer} (hoif : outputInterface if_nametoindex p.if_name = .ok oif)
      (he : e.Realizes (addedEntry p oif)) (hfree : ¬ routes.Taken e.rank)
      (hanswer : answer = .ok () ∨ answer = .error .lost) :
      OnPrefix if_nametoindex (.add p) answer routes (routes.insert e hfree)
  | notAdded {p routes error} (htaken : error = .transact (.system EEXIST) → routes.Taken p.metric.toNat) :
      OnPrefix if_nametoindex (.add p) (.error error) routes routes
  | deleted {p e routes answer} (hfirst : routes.first (hasGateway p) = some e)
      (hanswer : answer = .ok () ∨ answer = .error .lost) :
      OnPrefix if_nametoindex (.del p) answer routes (routes.eraseFirst (hasGateway p))
  | notDeleted {p routes error}
      (hnone : error = .transact (.system ESRCH) → routes.first (hasGateway p) = none) :
      OnPrefix if_nametoindex (.del p) (.error error) routes routes

theorem ranked : Ranked KernelEntry.key KernelEntry.routePrefix KernelEntry.rank where
  eq_iff e f := by
    simp only [KernelEntry.key, KernelEntry.routePrefix, KernelEntry.rank, Prod.mk.injEq, UInt32.toNat_inj]
    tauto

/-- The routes of the kernel to a prefix. -/
abbrev routesTo (kernel : Kernel) (pfx : RoutePrefix) : Shelf KernelEntry.rank := kernel.shelf ranked pfx

theorem mem_routesTo {kernel : Kernel} {e : KernelEntry} :
    e ∈ (routesTo kernel e.routePrefix).rows ↔ e ∈ kernel.rows := by
  rw [Keyed.mem_shelf, and_iff_left rfl]

theorem KernelEntry.Realizes.place {e asked : KernelEntry} (h : e.Realizes asked) :
    e.routePrefix = asked.routePrefix ∧ e.rank = asked.rank := (ranked.eq_iff e asked).mp h.key

variable {if_nametoindex : CString → Option UInt32}

/-- The request of ROUTE_ADD asks for its route. -/
theorem newRoute_addParams {p : CmdProto.RouteAddParams} {extra_flags : UInt16} {msg : NewRoute}
    (h : newRoute if_nametoindex (addParams p) extra_flags = .ok msg) :
    ∃ oif, outputInterface if_nametoindex p.if_name = .ok oif ∧ msg.entry = addedEntry p oif := by
  obtain ⟨oif, hoif, hmsg⟩ := except_bind_ok.mp h
  obtain rfl := except_pure_ok.mp hmsg
  refine ⟨oif, hoif, ?_⟩
  have hmetric : (if p.metric.toUInt32 = 0 then none else some p.metric.toUInt32).getD 0 =
      p.metric.toUInt32 := by
    split_ifs with hzero
    · exact hzero.symm
    · rfl
  unfold NewRoute.entry addedEntry addParams
  dsimp only
  rw [hmetric, KernelEntry.mk.injEq]
  refine ⟨rfl, rfl, rfl, rfl, ?_, rfl, rfl, rfl, rfl⟩
  by_cases hgw : p.gateway ≠ Ipv4Addr.zero
  · simp [hgw]
  · simp [hgw]

variable (if_nametoindex) in
/-- The request of ROUTE_DEL asks for a route with its gateway. -/
theorem delRoute_delParams (p : CmdProto.RouteDelParams) :
    ∃ msg, delRoute if_nametoindex (delParams p) = .ok msg ∧
      msg.routePrefix = (RouteCommand.del p).target ∧ msg.matches = hasGateway p := by
  refine ⟨_, rfl, rfl, ?_⟩
  funext e
  unfold DelRoute.matches hasGateway delParams
  by_cases hzero : p.gateway = Ipv4Addr.zero
  · simp [hzero]
  · simp [hzero]

section Answers

variable {K : RouteKernel} (hK : K.Documented) (if_nametoindex)

include hK

theorem handleRouteAdd_cases (p : CmdProto.RouteAddParams) (s : K.State) :
    (∃ oif e, outputInterface if_nametoindex p.if_name = .ok oif ∧ e.Realizes (addedEntry p oif) ∧
      (K.routes s).Gains (K.routes (handleRouteAdd K if_nametoindex p s).2) e ∧
      ((handleRouteAdd K if_nametoindex p s).1 = .ok () ∨
        (handleRouteAdd K if_nametoindex p s).1 = .error .lost)) ∨
    ∃ error, (handleRouteAdd K if_nametoindex p s).1 = .error error ∧
      (K.routes s).Same (K.routes (handleRouteAdd K if_nametoindex p s).2) ∧
      (error = .transact (.system EEXIST) →
        (routesTo (K.routes s) (RouteCommand.add p).target).Taken p.metric.toNat) := by
  rcases hK.addRoute_cases if_nametoindex (addParams p) s with
    ⟨msg, hmsg, ⟨e, he, hgains⟩, hanswer⟩ | ⟨error, herror, hsame, htaken⟩
  · obtain ⟨oif, hoif, hentry⟩ := newRoute_addParams hmsg
    exact .inl ⟨oif, e, hoif, hentry ▸ he, hgains, hanswer⟩
  · refine .inr ⟨error, herror, hsame, fun hexists => ?_⟩
    obtain ⟨msg, hmsg, hkey⟩ := htaken hexists
    obtain ⟨oif, -, hentry⟩ := newRoute_addParams hmsg
    rw [hentry] at hkey
    exact (Keyed.taken_shelf (h := ranked)).mpr hkey

theorem handleRouteDel_cases (p : CmdProto.RouteDelParams) (s : K.State) :
    (∃ e, (routesTo (K.routes s) (RouteCommand.del p).target).first (hasGateway p) = some e ∧
      (K.routes s).Loses (K.routes (handleRouteDel K if_nametoindex p s).2) e ∧
      ((handleRouteDel K if_nametoindex p s).1 = .ok () ∨
        (handleRouteDel K if_nametoindex p s).1 = .error .lost)) ∨
    ∃ error, (handleRouteDel K if_nametoindex p s).1 = .error error ∧
      (K.routes s).Same (K.routes (handleRouteDel K if_nametoindex p s).2) ∧
      (error = .transact (.system ESRCH) →
        (routesTo (K.routes s) (RouteCommand.del p).target).first (hasGateway p) = none) := by
  obtain ⟨msg, hmsg, hpfx, hmatches⟩ := delRoute_delParams if_nametoindex p
  rcases hK.deleteRoute_cases hmsg s with
    ⟨⟨e, he, hgateway, hleast, hloses⟩, hanswer⟩ | ⟨error, herror, hsame, hnone⟩
  · rw [hpfx] at he hleast
    rw [hmatches] at hgateway hleast
    exact .inl ⟨e, Keyed.first_shelf hloses.had he hgateway hleast, hloses, hanswer⟩
  · refine .inr ⟨error, herror, hsame, fun hsrch => Shelf.first_eq_none.mpr fun e he => ?_⟩
    obtain ⟨he, hgroup⟩ := Keyed.mem_shelf.mp he
    rw [← hmatches]
    exact hnone hsrch e he (hgroup.trans hpfx.symm)

theorem onPrefix_own (cmd : RouteCommand) (s : K.State) :
    cmd.OnPrefix if_nametoindex (cmd.handle K if_nametoindex s).1 (routesTo (K.routes s) cmd.target)
      (routesTo (K.routes (cmd.handle K if_nametoindex s).2) cmd.target) := by
  cases cmd with
  | add p =>
    rcases handleRouteAdd_cases if_nametoindex hK p s with
      ⟨oif, e, hoif, he, hgains, hanswer⟩ | ⟨error, herror, hsame, htaken⟩
    · have htarget : e.routePrefix = (RouteCommand.add p).target := he.place.1
      rw [← htarget]
      have hshelf : routesTo (K.routes (handleRouteAdd K if_nametoindex p s).2) e.routePrefix = _ := hgains.shelf
      show RouteCommand.OnPrefix _ _ _ _ (routesTo (K.routes (handleRouteAdd K if_nametoindex p s).2) _)
      rw [hshelf]
      exact .added hoif he _ hanswer
    · have hshelf : routesTo (K.routes (handleRouteAdd K if_nametoindex p s).2) (RouteCommand.add p).target = _ :=
        hsame.shelf
      show RouteCommand.OnPrefix _ _ (handleRouteAdd K if_nametoindex p s).1 _
        (routesTo (K.routes (handleRouteAdd K if_nametoindex p s).2) _)
      rw [herror, hshelf]
      exact .notAdded htaken
  | del p =>
    rcases handleRouteDel_cases if_nametoindex hK p s with
      ⟨e, hfirst, hloses, hanswer⟩ | ⟨error, herror, hsame, hnone⟩
    · have hshelf : routesTo (K.routes (handleRouteDel K if_nametoindex p s).2) (RouteCommand.del p).target = _ :=
        hloses.shelf hfirst
      show RouteCommand.OnPrefix _ _ _ _ (routesTo (K.routes (handleRouteDel K if_nametoindex p s).2) _)
      rw [hshelf]
      exact .deleted hfirst hanswer
    · have hshelf : routesTo (K.routes (handleRouteDel K if_nametoindex p s).2) (RouteCommand.del p).target = _ :=
        hsame.shelf
      show RouteCommand.OnPrefix _ _ (handleRouteDel K if_nametoindex p s).1 _
        (routesTo (K.routes (handleRouteDel K if_nametoindex p s).2) _)
      rw [herror, hshelf]
      exact .notDeleted hnone

theorem onPrefix_other (cmd : RouteCommand) (s : K.State) {pfx : RoutePrefix} (h : cmd.target ≠ pfx) :
    routesTo (K.routes (cmd.handle K if_nametoindex s).2) pfx = routesTo (K.routes s) pfx := by
  cases cmd with
  | add p =>
    rcases handleRouteAdd_cases if_nametoindex hK p s with
      ⟨oif, e, -, he, hgains, -⟩ | ⟨-, -, hsame, -⟩
    · exact hgains.shelf_of_ne fun heq => h (he.place.1.symm.trans heq)
    · exact hsame.shelf
  | del p =>
    rcases handleRouteDel_cases if_nametoindex hK p s with
      ⟨e, hfirst, hloses, -⟩ | ⟨-, -, hsame, -⟩
    · have hgroup := (Keyed.mem_shelf.mp (Shelf.first_eq_some.mp hfirst).1).2
      exact hloses.shelf_of_ne fun heq => h (hgroup.symm.trans heq)
    · exact hsame.shelf

theorem handle_partWise : PartWise (RouteCommand.handle K if_nametoindex) RouteCommand.target
    (fun s pfx => routesTo (K.routes s) pfx) (RouteCommand.OnPrefix if_nametoindex) where
  own := onPrefix_own if_nametoindex hK
  other cmd s _ := onPrefix_other if_nametoindex hK cmd s

/-- A prefix that no command is about keeps its routes. -/
theorem routesTo_behind {cmds : List RouteCommand} {pfx : RoutePrefix} (h : ∀ cmd ∈ cmds, cmd.target ≠ pfx)
    (s : K.State) : routesTo (K.routes (behind K if_nametoindex cmds s)) pfx = routesTo (K.routes s) pfx := by
  have hchain := (handle_partWise if_nametoindex hK).attempts pfx cmds s
  rwa [List.filter_eq_nil_iff.mpr fun r hr htarget => h r.1 (List.of_mem_zip hr).1 (of_decide_eq_true htarget)]
    at hchain

end Answers

theorem target_main (cmd : RouteCommand) : cmd.target.1 = RouteTable.Main := by
  cases cmd with
  | add p => rfl
  | del p => rfl

/-- **The commands keep a list of routes for each prefix**: in any run on any kernel that does what is documented,
the routes to a prefix come from the commands about it, each by a step that its answer says: a ROUTE_ADD puts its
route at a free metric, and a ROUTE_DEL takes the preferred route with the gateway.  The other tables stay as they
are. -/
theorem route_commands {K : RouteKernel} (hK : K.Documented) (if_nametoindex : CString → Option UInt32)
    (s : K.State) (cmds : List RouteCommand) :
    (∀ pfx, Chain (RouteCommand.OnPrefix if_nametoindex) (answersAbout K if_nametoindex cmds s pfx)
      (routesTo (K.routes s) pfx) (routesTo (K.routes (behind K if_nametoindex cmds s)) pfx)) ∧
    ∀ e : KernelEntry, e.table ≠ RouteTable.Main →
      (e ∈ (K.routes (behind K if_nametoindex cmds s)).rows ↔ e ∈ (K.routes s).rows) := by
  refine ⟨fun pfx => (handle_partWise if_nametoindex hK).attempts pfx cmds s, fun e htable => ?_⟩
  have hnone : ∀ cmd ∈ cmds, cmd.target ≠ e.routePrefix := by
    intro cmd _ htarget
    have hmain := target_main cmd
    rw [htarget] at hmain
    exact htable hmain
  rw [← mem_routesTo, routesTo_behind if_nametoindex hK hnone]
  exact mem_routesTo

/-- A command for 10.0.0.0/8. -/
def addNet10 (gateway : Ipv4Addr) (if_name : Bytes) (metric : UInt16) : CmdProto.RouteAddParams where
  dst_addr := ipv4 10 0 0 0
  prefix_len := 8
  gateway := gateway
  if_name := if_name
  metric := metric

def delNet10 : CmdProto.RouteDelParams := ⟨ipv4 10 0 0 0, 8, Ipv4Addr.zero⟩

/-- Of two routes with one metric the second is refused, and a ROUTE_DEL takes the first. -/
theorem route_commands_refused :
    let cmds : List RouteCommand :=
      [.add (addNet10 (ipv4 10 0 0 1) [] 0), .add (addNet10 (ipv4 10 0 0 2) [] 0), .del delNet10]
    Chain (RouteCommand.OnPrefix fun _ => none)
      (cmds.zip [.ok (), .error (.transact (.system EEXIST)), .ok ()])
      (routesTo Keyed.empty (RouteCommand.del delNet10).target)
      (routesTo (behind mapKernel (fun _ => none) cmds Keyed.empty) (RouteCommand.del delNet10).target) := by
  intro cmds
  exact (route_commands mapKernel_documented (fun _ => none) Keyed.empty cmds).1 (RouteCommand.del delNet10).target

/-! ### Deleting what was added -/

theorem hasGateway_added {p : CmdProto.RouteAddParams} {d : CmdProto.RouteDelParams} {oif : Option UInt32}
    {e : KernelEntry} (h : d.gateway = Ipv4Addr.zero ∨ d.gateway = p.gateway)
    (he : e.Realizes (addedEntry p oif)) : hasGateway d e = true := by
  refine decide_eq_true ?_
  by_cases hzero : d.gateway = Ipv4Addr.zero
  · exact .inl hzero
  · have hgw : d.gateway = p.gateway := h.resolve_left hzero
    have hasked : (addedEntry p oif).gateway = some p.gateway := if_pos (hgw ▸ hzero)
    refine .inr ?_
    rcases he.gateway with hsame | ⟨hany, -⟩
    · rw [hsame, hasked, hgw]
    · rw [hasked] at hany
      exact absurd (hgw.trans (Option.some.inj hany)) hzero

/-- **A ROUTE_DEL takes the route of a ROUTE_ADD before it, and the prefix has its routes of before, exactly when
no route to the prefix with a lower metric has the gateway**, whatever the commands between them do to other
prefixes.  If it succeeds otherwise, it took another route of the prefix; that there is none is never the answer. -/
theorem del_undoes_add {K : RouteKernel} (hK : K.Documented) {if_nametoindex : CString → Option UInt32}
    {s : K.State} {p : CmdProto.RouteAddParams} {d : CmdProto.RouteDelParams} {between : List RouteCommand}
    (htarget : (RouteCommand.del d).target = (RouteCommand.add p).target)
    (hgateway : d.gateway = Ipv4Addr.zero ∨ d.gateway = p.gateway)
    (hadded : (handleRouteAdd K if_nametoindex p s).1 = .ok ())
    (hbetween : ∀ cmd ∈ between, cmd.target ≠ (RouteCommand.add p).target) :
    let before := behind K if_nametoindex (.add p :: between) s
    let deleted := handleRouteDel K if_nametoindex d before
    let lowest := ∀ f ∈ (K.routes s).rows, f.routePrefix = (RouteCommand.add p).target →
      hasGateway d f = true → p.metric.toNat < f.metric.toNat
    deleted.1 ≠ .error (.transact (.system ESRCH)) ∧
      (deleted.1 = .ok () → ∃ e g, (K.routes s).Gains (K.routes (handleRouteAdd K if_nametoindex p s).2) e ∧
        (K.routes before).Loses (K.routes deleted.2) g ∧
        g.routePrefix = (RouteCommand.add p).target ∧ hasGateway d g = true ∧
        (g = e ↔ lowest) ∧
        (routesTo (K.routes deleted.2) (RouteCommand.add p).target =
          routesTo (K.routes s) (RouteCommand.add p).target ↔ lowest)) := by
  intro before deleted lowest
  obtain ⟨oif, e, -, he, hgains, -⟩ | ⟨error, herror, -, -⟩ := handleRouteAdd_cases if_nametoindex hK p s
  swap
  · rw [hadded] at herror
    cases herror
  have hpfx : e.routePrefix = (RouteCommand.add p).target := he.place.1
  have hin : hasGateway d e = true := hasGateway_added hgateway he
  -- Before the ROUTE_DEL the prefix has its routes and the one that was added.
  have hbefore : routesTo (K.routes before) (RouteCommand.add p).target =
      (routesTo (K.routes s) e.routePrefix).insert e hgains.free_shelf :=
    calc routesTo (K.routes before) (RouteCommand.add p).target
        = routesTo (K.routes (handleRouteAdd K if_nametoindex p s).2) (RouteCommand.add p).target :=
          routesTo_behind if_nametoindex hK hbetween _
      _ = routesTo (K.routes (handleRouteAdd K if_nametoindex p s).2) e.routePrefix := by rw [hpfx]
      _ = _ := hgains.shelf
  have hlowest : (routesTo (K.routes before) (RouteCommand.add p).target).first (hasGateway d) = some e ↔
      lowest := by
    rw [hbefore, Shelf.first_insert hin, hpfx, he.place.2]
    constructor
    · exact fun h f hf hfp => h f (Keyed.mem_shelf.mpr ⟨hf, hfp⟩)
    · intro h f hf
      obtain ⟨hf, hfp⟩ := Keyed.mem_shelf.mp hf
      exact h f hf hfp
  obtain ⟨g, hfirst, hloses, hanswer⟩ | ⟨error, herror, -, hnone⟩ :=
    handleRouteDel_cases if_nametoindex hK d before
  · rw [htarget] at hfirst
    obtain ⟨hg, hggw, -⟩ := Shelf.first_eq_some.mp hfirst
    have hge : g = e ↔ lowest := by
      rw [← hlowest, hfirst, Option.some_inj]
    have hafter : routesTo (K.routes deleted.2) (RouteCommand.add p).target =
        (routesTo (K.routes before) (RouteCommand.add p).target).eraseFirst (hasGateway d) := hloses.shelf hfirst
    refine ⟨fun hsrch => ?_, fun _ => ⟨e, g, hgains, hloses, (Keyed.mem_shelf.mp hg).2, hggw, hge, ?_⟩⟩
    · rcases hanswer with hok | hlost
      · cases hsrch.symm.trans hok
      · cases hsrch.symm.trans hlost
    · rw [hafter, ← hlowest, hbefore, ← Shelf.eraseFirst_insert hin, ← hpfx]
  · refine ⟨fun hsrch => ?_, fun hok => ?_⟩
    · have hin' : e ∈ (routesTo (K.routes before) (RouteCommand.add p).target).rows := by
        rw [hbefore]
        exact Shelf.mem_insert.mpr (.inl rfl)
      have hfirst := hnone (Except.error.inj (herror.symm.trans hsrch))
      rw [htarget] at hfirst
      exact Bool.false_ne_true ((Shelf.first_eq_none.mp hfirst e hin').symm.trans hin)
    · cases herror.symm.trans hok

/-- Beside a route with the metric 1, a ROUTE_DEL for any gateway leaves the route with the metric 5. -/
theorem del_undoes_add_lowerMetric :
    let kernel : Kernel := Keyed.empty.put (addedEntry (addNet10 (ipv4 10 0 0 2) [] 1) none)
    let between : List RouteCommand := [.del ⟨ipv4 192 168 0 0, 16, Ipv4Addr.zero⟩]
    let before : Kernel := behind mapKernel (fun _ => none) (.add (addNet10 (ipv4 10 0 0 1) [] 5) :: between) kernel
    ∃ e g, kernel.Gains (handleRouteAdd mapKernel (fun _ => none) (addNet10 (ipv4 10 0 0 1) [] 5) kernel).2 e ∧
      before.Loses (handleRouteDel mapKernel (fun _ => none) delNet10 before).2 g ∧ g ≠ e := by
  intro kernel between before
  obtain ⟨-, htaken⟩ := @del_undoes_add mapKernel mapKernel_documented (fun _ => none) kernel
    (addNet10 (ipv4 10 0 0 1) [] 5) delNet10 between rfl (.inl rfl) (by decide)
    (List.forall_mem_singleton.mpr (by decide))
  obtain ⟨e, g, hgains, hloses, -, -, hge, -⟩ := htaken (by decide)
  refine ⟨e, g, hgains, hloses, fun heq => ?_⟩
  have hlt := hge.mp heq (addedEntry (addNet10 (ipv4 10 0 0 2) [] 1) none) List.mem_cons_self rfl (by decide)
  exact absurd hlt (by decide)

/-! ### ROUTE_LIST -/

variable (if_indextoname : UInt32 → Option CString)

/-- The entry of the reply for a route. -/
def shown (e : KernelEntry) : CmdProto.RouteEntry where
  dst_addr := e.dst
  prefix_len := e.prefix_len
  gateway := e.gateway.getD Ipv4Addr.zero
  metric := e.metric.toUInt16
  if_name := (e.oif.map fun idx => indexToName if_indextoname idx.toInt32).getD []

/-- The messages of a dump say the routes of the kernel, each of them once. -/
def DumpOf (kernel : Kernel) (rs : List Client.DumpedRoute) : Prop :=
  (rs.map (Client.DumpedRoute.entry · if_indextoname)).Perm (kernel.rows.map (KernelEntry.listed if_indextoname))

variable {if_indextoname}

theorem listEntry_listed (e : KernelEntry) :
    listEntry (e.listed if_indextoname).toRouteEntry = shown if_indextoname e := by
  unfold listEntry shown RouteEntry.shownGateway KernelEntry.listed
  cases e.gateway with
  | none => rfl
  | some gw => rfl

theorem shown_fits (hnames : ∀ idx name, if_indextoname idx = some name → name.length < 2 ^ 8) (e : KernelEntry) :
    (shown if_indextoname e).Fits := by
  show ((e.oif.map fun idx => indexToName if_indextoname idx.toInt32).getD []).length < 2 ^ 8
  cases e.oif with
  | none => exact Nat.two_pow_pos 8
  | some idx =>
    show (indexToName if_indextoname idx.toInt32).length < 2 ^ 8
    unfold indexToName
    split_ifs
    · exact Nat.two_pow_pos 8
    · rcases hname : if_indextoname idx.toInt32.toUInt32 with _ | name
      · exact Nat.two_pow_pos 8
      · exact hnames _ name hname

/-- The walk over a dump takes the entries of the main table. -/
theorem flatMap_filtered (rs : List Client.DumpedRoute) (table : UInt32) (h : table ≠ Client.RT_TABLE_UNSPEC) :
    (rs.flatMap fun r => Client.filtered table (r.entry if_indextoname).table (r.entry if_indextoname)) =
      (rs.map (Client.DumpedRoute.entry · if_indextoname)).filter fun e => e.table = table := by
  induction rs with
  | nil => rfl
  | cons r rs ih =>
    rw [List.flatMap_cons, ih, List.map_cons, List.filter_cons, Client.filtered]
    by_cases htable : (r.entry if_indextoname).table = table
    · rw [if_pos (.inr htable.symm), if_pos (decide_eq_true htable), List.singleton_append]
    · rw [if_neg (not_or.mpr ⟨h, Ne.symm htable⟩), if_neg (by simpa using htable),
        List.nil_append]

/-- The routes to a prefix as the reply shows them, in some order. -/
theorem perm_shown (kernel : Kernel) (dst : Ipv4Addr) (prefix_len : UInt8) :
    (((kernel.rows.filter fun e => e.table = RouteTable.Main).map (shown if_indextoname)).filter fun r =>
        r.dst_addr = dst ∧ r.prefix_len = prefix_len).Perm
      ((routesTo kernel (RouteTable.Main, dst, prefix_len)).rows.map (shown if_indextoname)) := by
  rw [List.filter_map, List.filter_filter]
  refine List.Perm.map _ (List.Perm.trans (List.Perm.of_eq ?_) (List.perm_insertionSort _ _).symm)
  refine List.filter_congr fun e _ => ?_
  show (decide (e.dst = dst ∧ e.prefix_len = prefix_len) && decide (e.table = RouteTable.Main)) =
    decide ((e.table, e.dst, e.prefix_len) = (RouteTable.Main, dst, prefix_len))
  have hsame : (e.dst = dst ∧ e.prefix_len = prefix_len) ∧ e.table = RouteTable.Main ↔
      (e.table, e.dst, e.prefix_len) = (RouteTable.Main, dst, prefix_len) := by
    rw [Prod.mk.injEq, Prod.mk.injEq, and_comm]
  rw [← Bool.decide_and, decide_eq_decide.mpr hsame]

/-- The metrics of the main table fit the reply. -/
def MetricsFit (kernel : Kernel) : Prop :=
  ∀ e ∈ kernel.rows, e.table = RouteTable.Main → e.metric.toNat < 2 ^ 16

instance (kernel : Kernel) : Decidable (MetricsFit kernel) := inferInstanceAs (Decidable (∀ _ ∈ _, _))

/-- Commands add routes whose metric has 16 bits. -/
theorem metricsFit_handle {K : RouteKernel} (hK : K.Documented) (cmd : RouteCommand) (s : K.State)
    (h : MetricsFit (K.routes s)) : MetricsFit (K.routes (cmd.handle K if_nametoindex s).2) := by
  cases cmd with
  | add p =>
    rcases handleRouteAdd_cases if_nametoindex hK p s with ⟨oif, e, -, he, hgains, -⟩ | ⟨-, -, hsame, -⟩
    · intro f hf hmain
      rcases (hgains.mem f).mp hf with rfl | hf
      · exact he.place.2.trans_lt p.metric.toNat_lt
      · exact h f hf hmain
    · exact fun f hf => h f ((hsame f).mp hf)
  | del p =>
    rcases handleRouteDel_cases if_nametoindex hK p s with ⟨e, -, hloses, -⟩ | ⟨-, -, hsame, -⟩
    · exact fun f hf => h f ((hloses.mem f).mp hf).1
    · exact fun f hf => h f ((hsame f).mp hf)

/-- **Behind any run of commands ROUTE_LIST shows for each prefix the routes that the commands about it leave**,
with their gateways, metrics and interfaces, where the metrics that were there before fit the reply. -/
theorem route_list_shows {K : RouteKernel} (hK : K.Documented) {a : Client.PartedAnswer}
    {rs : List Client.DumpedRoute} {seq : UInt32} {send : List UInt8 → Bool}
    (hsend : send (Client.listRoutesRequest seq).bytes = true) (ha : a.ToLibrary rs seq)
    {s : K.State} {cmds : List RouteCommand}
    (hdump : DumpOf if_indextoname (K.routes (behind K if_nametoindex cmds s)) rs)
    (hnames : ∀ idx name, if_indextoname idx = some name → name.length < 2 ^ 8)
    (hmetrics : MetricsFit (K.routes s)) :
    ∃ nl_routes, Client.ListRoutes if_indextoname RouteTable.Main seq send a.recvs (.ok nl_routes) ∧
    ∃ routes, decodeRouteListResponse (encodeRouteListResponse
        (handleRouteList (nl_routes.map ListedEntry.toRouteEntry))) = .ok routes ∧
      ∀ dst prefix_len, ∃ left : Shelf KernelEntry.rank,
        Chain (RouteCommand.OnPrefix if_nametoindex)
            (answersAbout K if_nametoindex cmds s (RouteTable.Main, dst, prefix_len))
            (routesTo (K.routes s) (RouteTable.Main, dst, prefix_len)) left ∧
          (routes.filter fun r => r.dst_addr = dst ∧ r.prefix_len = prefix_len).Perm
            (left.rows.map (shown if_indextoname)) ∧
          ∀ e ∈ left.rows, (shown if_indextoname e).metric.toNat = e.metric.toNat := by
  obtain ⟨kernel, hkernel⟩ : ∃ kernel, K.routes (behind K if_nametoindex cmds s) = kernel := ⟨_, rfl⟩
  have hfit : MetricsFit kernel :=
    hkernel ▸ attempts_invariant (fun cmd _ => metricsFit_handle hK cmd) s hmetrics
  -- The entries of the reply are the main table in the order of the dump.
  have hreply : (handleRouteList ((rs.flatMap fun r => Client.filtered RouteTable.Main
        (r.entry if_indextoname).table (r.entry if_indextoname)).map ListedEntry.toRouteEntry)).Perm
      ((kernel.rows.filter fun e => e.table = RouteTable.Main).map (shown if_indextoname)) := by
    rw [flatMap_filtered rs RouteTable.Main (by decide), handleRouteList, List.map_map]
    rw [hkernel] at hdump
    refine ((hdump.filter fun e => decide (e.table = RouteTable.Main)).map _).trans (List.Perm.of_eq ?_)
    rw [List.filter_map, List.map_map]
    exact List.map_congr_left fun e _ => listEntry_listed e
  refine ⟨_, Client.listRoutes_dumped ha hsend RouteTable.Main, _, decodeRouteListResponse_ok.mpr ⟨?_, rfl⟩,
    fun dst prefix_len => ⟨routesTo kernel (RouteTable.Main, dst, prefix_len), ?_, ?_, fun e he => ?_⟩⟩
  · intro r hr
    obtain ⟨e, -, rfl⟩ := List.mem_map.mp (hreply.mem_iff.mp hr)
    exact shown_fits hnames e
  · rw [← hkernel]
    exact (handle_partWise if_nametoindex hK).attempts _ cmds s
  · exact (hreply.filter _).trans (perm_shown kernel dst prefix_len)
  · obtain ⟨he, hpfx⟩ := Keyed.mem_shelf.mp he
    show e.metric.toUInt16.toNat = _
    rw [UInt32.toNat_toUInt16, Nat.mod_eq_of_lt (hfit e he (congrArg Prod.fst hpfx))]

theorem eth0Name_short (idx : UInt32) (name : CString) (h : eth0Name idx = some name) : name.length < 2 ^ 8 := by
  unfold eth0Name at h
  split_ifs at h
  obtain rfl := Option.some.inj h
  decide

/-- A ROUTE_ADD over eth0, refused the second time, and the reply behind it. -/
theorem route_list_shows_oneRoute :
    let cmds : List RouteCommand :=
      [.add (addNet10 (ipv4 10 0 0 1) eth0 0), .add (addNet10 (ipv4 10 0 0 2) eth0 0)]
    ∃ nl_routes, Client.ListRoutes eth0Name RouteTable.Main 1 (fun _ => true) (Client.oneRouteAnswer [] 1).recvs
        (.ok nl_routes) ∧
    ∃ routes, decodeRouteListResponse (encodeRouteListResponse
        (handleRouteList (nl_routes.map ListedEntry.toRouteEntry))) = .ok routes ∧
      ∃ left : Shelf KernelEntry.rank,
        Chain (RouteCommand.OnPrefix eth0Index) (cmds.zip [.ok (), .error (.transact (.system EEXIST))])
          (routesTo Keyed.empty (RouteCommand.del delNet10).target) left ∧
        (routes.filter fun r => r.dst_addr = ipv4 10 0 0 0 ∧ r.prefix_len = 8).Perm
          (left.rows.map (shown eth0Name)) := by
  intro cmds
  have hdump : DumpOf eth0Name (mapKernel.routes (behind mapKernel eth0Index cmds Keyed.empty)) [Client.viaEth0] :=
    List.Perm.of_eq rfl
  obtain ⟨nl_routes, hlist, routes, hdec, hshows⟩ :=
    @route_list_shows eth0Index eth0Name mapKernel mapKernel_documented _ _ 1 (fun _ => true) rfl
      Client.oneRoute_library _ _ hdump eth0Name_short (by decide)
  obtain ⟨left, hchain, hperm, -⟩ := hshows (ipv4 10 0 0 0) 8
  exact ⟨nl_routes, hlist, routes, hdec, left, hchain, hperm⟩

end Rtsrv.Netlink
