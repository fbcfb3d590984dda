import Rtsrv.Client.Startup

/-!
# Rtsrv.Client.LiveRoutes — the live route table and the kernel (`main.cpp`, `server/src/netlink.c`)

The kernel adds, replaces and deletes host routes of one table and metric, one to a destination, and
notifies each change; `nl_dispatch` parses the notification and `startupRouteLiveCb` puts or erases a row
under `destination|gateway|interface`.  A replaced route leaves its row behind unless the new one has the
same gateway and interface.
-/

namespace Rtsrv.Client

open Lib CmdProto

variable (ifname : UInt32 → String)

/-- A host route with one nexthop, a destination, and no gateway `0.0.0.0`. -/
def RouteMessage.Plain (msg : RouteMessage) : Prop :=
  msg.multipath = [] ∧ msg.dst ≠ none ∧ msg.gateway ≠ some anyAddr

/-- An IPv4 /32 unicast route of a table and a metric. -/
def RouteMessage.HostIn (msg : RouteMessage) (table metric : UInt32) : Prop :=
  msg.dst_len = 32 ∧ msg.type = RTN_UNICAST ∧ msg.Plain ∧ msg.table.getD msg.table8.toUInt32 = table ∧
    msg.priority.getD 0 = metric

instance (msg : RouteMessage) (table metric : UInt32) : Decidable (msg.HostIn table metric) :=
  inferInstanceAs (Decidable (_ ∧ _ ∧ (_ ∧ _ ∧ _) ∧ _ ∧ _))

/-- `destination|gateway|interface` of a kernel route. -/
def RouteMessage.entry (msg : RouteMessage) : String :=
  routeKey ((msg.dst.map (prefixText · msg.dst_len)).getD "") ((msg.gateway.map inetNtop).getD "")
    (msg.ifnameText ifname)

/-- The kernel's routes and `ctx.routes`. -/
structure LiveRoutes where
  kernel : List RouteMessage
  routes : WatchRoutes

/-- What the kernel does: it adds a route to a new destination, replaces a route by another one to its
destination, deletes a route. -/
def KernelDoes (table metric : UInt32) (kernel : List RouteMessage) : ObjChange RouteMessage → Prop
  | .add msg => msg.HostIn table metric ∧ msg.dst ∉ kernel.map RouteMessage.dst
  | .replace old new => new.HostIn table metric ∧ new.dst = old.dst
  | .remove _ => True

instance (table metric : UInt32) (kernel : List RouteMessage) :
    ∀ c, Decidable (KernelDoes table metric kernel c)
  | .add _ => inferInstanceAs (Decidable (_ ∧ _))
  | .replace _ _ => inferInstanceAs (Decidable (_ ∧ _))
  | .remove _ => .isTrue trivial

/-- One operation and the callback on its notification. -/
def liveStep (table metric : UInt32) (s : LiveRoutes) (c : ObjChange RouteMessage) : Option LiveRoutes :=
  if KernelDoes table metric s.kernel c then
    (c.apply s.kernel).map fun kernel => ⟨kernel, onRoute ifname c.notice s.routes⟩
  else none

/-- Host routes of one table and metric, at most one to a destination. -/
structure LiveRoutes.OneEach (table metric : UInt32) (s : LiveRoutes) : Prop where
  host : ∀ msg ∈ s.kernel, msg.HostIn table metric
  nodup : (s.kernel.map RouteMessage.dst).Nodup

/-- The table has the entries of the kernel's routes and no others. -/
def LiveRoutes.Mirrors (s : LiveRoutes) : Prop :=
  s.routes.keys = {k | ∃ msg ∈ s.kernel, msg.entry ifname = k}

/-- A replace leaves the gateway and the interface as they are. -/
def SameHop : ObjChange RouteMessage → Prop
  | .replace old new => new.gateway = old.gateway ∧ new.ifnameText ifname = old.ifnameText ifname
  | .add _ | .remove _ => True

variable {ifname} {table metric : UInt32}

/-! ### Entries -/

/-- The key of the row that the callback stores is the entry of the route. -/
theorem nlDispatch_entry (ifname : UInt32 → String) {msg : RouteMessage} (h : msg.HostIn table metric) :
    ∃ route, msg.nlDispatch ifname = some route ∧ (route.row "").key = msg.entry ifname := by
  obtain ⟨hlen, htype, ⟨-, hdst, hgw⟩, -⟩ := h
  obtain ⟨dst, hdst⟩ := Option.ne_none_iff_exists'.mp hdst
  refine ⟨_, by rw [RouteMessage.nlDispatch, if_neg (not_not.mpr hlen), if_neg (not_not.mpr htype)], ?_⟩
  have hgateway : (if msg.gateway.getD anyAddr = anyAddr then "" else inetNtop (msg.gateway.getD anyAddr)) =
      (msg.gateway.map inetNtop).getD "" := by
    cases hg : msg.gateway with
    | none => rfl
    | some gw => exact if_neg fun heq => hgw (by rw [hg]; exact congrArg some heq)
  simp only [RouteMessage.entry, WatchRoute.key, NetlinkRoute32.row, NetlinkRoute32.destText,
    NetlinkRoute32.gatewayText, hgateway, hdst, Option.getD_some, Option.map_some]

theorem unbarred_gateway (gateway : Option Ipv4Addr) : Unbarred ((gateway.map inetNtop).getD "") := by
  cases gateway with
  | none => decide
  | some gw => exact unbarred_inetNtop gw

theorem gatewayText_injective : Function.Injective fun gw : Option Ipv4Addr => (gw.map inetNtop).getD "" := by
  intro a b h
  rcases a with _ | a <;> rcases b with _ | b
  · rfl
  · exact absurd h.symm (inetNtop_ne_empty b)
  · exact absurd h (inetNtop_ne_empty a)
  · exact congrArg some (inetNtop_injective h)

/-- Two host routes have the same entry when they have the same destination, gateway and interface. -/
theorem entry_eq_iff {msg msg' : RouteMessage} (h : msg.HostIn table metric) (h' : msg'.HostIn table metric) :
    msg.entry ifname = msg'.entry ifname ↔
      msg.dst = msg'.dst ∧ msg.gateway = msg'.gateway ∧ msg.ifnameText ifname = msg'.ifnameText ifname := by
  obtain ⟨hlen, -, ⟨-, hdst, -⟩, -⟩ := h
  obtain ⟨hlen', -, ⟨-, hdst', -⟩, -⟩ := h'
  obtain ⟨dst, hdst⟩ := Option.ne_none_iff_exists'.mp hdst
  obtain ⟨dst', hdst'⟩ := Option.ne_none_iff_exists'.mp hdst'
  rw [RouteMessage.entry, RouteMessage.entry, hlen, hlen', hdst, hdst']
  have hinj : prefixText dst 32 = prefixText dst' 32 ↔ dst = dst' := by
    refine ⟨fun heq => inetNtop_injective ?_, fun heq => by rw [heq]⟩
    rw [prefixText, prefixText, String.append_assoc, String.append_assoc] at heq
    exact String.append_left_inj _ |>.mp heq
  show routeKey (prefixText dst 32) _ _ = routeKey (prefixText dst' 32) _ _ ↔ some dst = some dst' ∧ _
  rw [routeKey_inj (unbarred_prefixText dst 32) (unbarred_gateway _) (unbarred_prefixText dst' 32)
    (unbarred_gateway _), hinj, Option.some.injEq, gatewayText_injective.eq_iff]

/-! ### One operation -/

theorem entries_perm (ifname : UInt32 → String) {l l' : List RouteMessage} (h : l.Perm l') :
    {k | ∃ msg ∈ l, msg.entry ifname = k} = {k | ∃ msg ∈ l', msg.entry ifname = k} := by
  ext k
  exact exists_congr fun msg => and_congr_left' h.mem_iff

theorem entries_cons (ifname : UInt32 → String) (msg : RouteMessage) (l : List RouteMessage) :
    {k | ∃ m ∈ msg :: l, m.entry ifname = k} =
      insert (msg.entry ifname) {k | ∃ m ∈ l, m.entry ifname = k} := by
  ext k
  rw [Set.mem_insert_iff, Set.mem_ofPred_eq, List.exists_mem_cons_iff, eq_comm (a := k)]
  rfl

/-- The other routes of the kernel are host routes too, to other destinations and with other entries. -/
theorem LiveRoutes.OneEach.split (ifname : UInt32 → String) {s : LiveRoutes} {msg : RouteMessage}
    {rest : List RouteMessage} (hs : s.OneEach table metric) (hperm : s.kernel.Perm (msg :: rest)) :
    msg.HostIn table metric ∧ (∀ m ∈ rest, m.HostIn table metric) ∧
      ((msg :: rest).map RouteMessage.dst).Nodup ∧
      msg.entry ifname ∉ {k | ∃ m ∈ rest, m.entry ifname = k} := by
  have hall : ∀ m ∈ msg :: rest, m.HostIn table metric := fun m hmem => hs.host m (hperm.mem_iff.mpr hmem)
  obtain ⟨hmsg, hrest⟩ := List.forall_mem_cons.mp hall
  have hnodup : ((msg :: rest).map RouteMessage.dst).Nodup := (hperm.map _).nodup_iff.mp hs.nodup
  refine ⟨hmsg, hrest, hnodup, ?_⟩
  rintro ⟨m, hmem, heq⟩
  have hsame := ((entry_eq_iff (hrest m hmem) hmsg).mp heq).1
  rw [List.map_cons, ← hsame] at hnodup
  exact (List.nodup_cons.mp hnodup).1 (List.mem_map_of_mem hmem)

/-- What an operation does to the kernel and to the keys of the table. -/
theorem liveStep_cases {s s' : LiveRoutes} {c : ObjChange RouteMessage} (hs : s.OneEach table metric)
    (h : liveStep ifname table metric s c = some s') :
    (∃ msg, c = .add msg ∧ msg.HostIn table metric ∧ msg.dst ∉ s.kernel.map RouteMessage.dst ∧
      s'.kernel = msg :: s.kernel ∧ s'.routes.keys = insert (msg.entry ifname) s.routes.keys) ∨
    (∃ old new rest, c = .replace old new ∧ new.HostIn table metric ∧ new.dst = old.dst ∧
      s.kernel.Perm (old :: rest) ∧ s'.kernel = new :: rest ∧
      s'.routes.keys = insert (new.entry ifname) s.routes.keys) ∨
    ∃ msg rest, c = .remove msg ∧ s.kernel.Perm (msg :: rest) ∧ s'.kernel = rest ∧
      s'.routes.keys = s.routes.keys \ {msg.entry ifname} := by
  rw [liveStep] at h
  split_ifs at h with hdoes
  obtain ⟨kernel, hk, rfl⟩ := Option.map_eq_some_iff.mp h
  have hput : ∀ {msg : RouteMessage}, msg.HostIn table metric → ∀ n : Notice RouteMessage, n.obj = msg →
      eventOf n ≠ .REMOVED → (onRoute ifname n s.routes).keys = insert (msg.entry ifname) s.routes.keys := by
    intro msg hmsg n hobj hevent
    obtain ⟨route, hroute, hkey⟩ := nlDispatch_entry ifname hmsg
    rw [← hkey, ← Keyed.keys_put, onRoute, hobj, hroute]
    cases n with
    | added o => rfl
    | changed o => rfl
    | removed o => exact absurd rfl hevent
  rcases ObjChange.apply_cases hk with ⟨msg, rfl, rfl⟩ | ⟨old, new, rfl, hold, rfl⟩ | ⟨msg, rfl, hmem, rfl⟩
  · exact .inl ⟨msg, rfl, hdoes.1, hdoes.2, rfl, hput hdoes.1 _ rfl (by simp [eventOf, ObjChange.notice])⟩
  · exact .inr (.inl ⟨old, new, _, rfl, hdoes.1, hdoes.2, List.perm_cons_erase hold, rfl,
      hput hdoes.1 _ rfl (by simp [eventOf, ObjChange.notice])⟩)
  · refine .inr (.inr ⟨msg, _, rfl, List.perm_cons_erase hmem, rfl, ?_⟩)
    obtain ⟨route, hroute, hkey⟩ := nlDispatch_entry ifname (hs.host msg hmem)
    show (onRoute ifname (.removed msg) s.routes).keys = _
    rw [← hkey, ← Keyed.keys_erase, onRoute, show (Notice.removed msg).obj = msg from rfl, hroute]
    rfl

/-- From a table that mirrors the kernel, an operation gives one again exactly when it is no replace that
changes the gateway or the interface. -/
theorem liveStep_mirrors {s s' : LiveRoutes} {c : ObjChange RouteMessage} (hs : s.OneEach table metric)
    (hm : s.Mirrors ifname) (h : liveStep ifname table metric s c = some s') :
    s'.OneEach table metric ∧ (s'.Mirrors ifname ↔ SameHop ifname c) := by
  rcases liveStep_cases hs h with ⟨msg, rfl, hmsg, hnew, hk, hkeys⟩ |
    ⟨old, new, rest, rfl, hmsg, hdst, hperm, hk, hkeys⟩ | ⟨msg, rest, rfl, hperm, hk, hkeys⟩
  · refine ⟨⟨?_, ?_⟩, iff_of_true ?_ trivial⟩
    · rw [hk]
      exact List.forall_mem_cons.mpr ⟨hmsg, hs.host⟩
    · rw [hk, List.map_cons]
      exact List.nodup_cons.mpr ⟨hnew, hs.nodup⟩
    · rw [LiveRoutes.Mirrors, hkeys, hk, hm, entries_cons]
  · obtain ⟨hold, hrest, hnodup, hstale⟩ := hs.split ifname hperm
    refine ⟨⟨?_, ?_⟩, ?_⟩
    · rw [hk]
      exact List.forall_mem_cons.mpr ⟨hmsg, hrest⟩
    · rw [hk, List.map_cons, hdst]
      exact hnodup
    · -- the entry of the old route stays, and no other route of the kernel has it
      have hhop : SameHop ifname (.replace old new) ↔ old.entry ifname = new.entry ifname := by
        rw [eq_comm, entry_eq_iff hmsg hold]
        exact (and_iff_right hdst).symm
      rw [LiveRoutes.Mirrors, hkeys, hk, hm, entries_perm ifname hperm, entries_cons, entries_cons, hhop]
      refine ⟨fun heq => ?_, fun heq => by rw [heq, Set.insert_idem]⟩
      have hin : old.entry ifname ∈ insert (new.entry ifname) {k | ∃ m ∈ rest, m.entry ifname = k} := by
        rw [← heq]
        exact Set.mem_insert_of_mem _ (Set.mem_insert _ _)
      exact hin.resolve_right hstale
  · obtain ⟨-, hrest, hnodup, hstale⟩ := hs.split ifname hperm
    refine ⟨⟨?_, ?_⟩, iff_of_true ?_ trivial⟩
    · rw [hk]
      exact hrest
    · rw [hk]
      exact (List.nodup_cons.mp hnodup).2
    · rw [LiveRoutes.Mirrors, hkeys, hk, hm, entries_perm ifname hperm, entries_cons]
      exact Set.insert_sdiff_self_of_notMem hstale

/-! ### Runs -/

/-- **The live table mirrors the kernel in every state of a run exactly when no replace changes the gateway
or the interface of a destination.** -/
theorem liveRoutes_mirror_iff {s t : LiveRoutes} {cs : List (ObjChange RouteMessage)}
    (hs : s.OneEach table metric) (hm : s.Mirrors ifname)
    (hrun : run (liveStep ifname table metric) s cs = some t) :
    (∀ bs u, bs <+: cs → run (liveStep ifname table metric) s bs = some u → u.Mirrors ifname) ↔
      Along (liveStep ifname table metric) (fun _ c => SameHop ifname c) s cs :=
  run_all_iff_along (fun _ _ _ (hs : LiveRoutes.OneEach table metric _) hm h => liveStep_mirrors hs hm h)
    hs hm hrun

/-- The route of the kernel and its row. -/
def oneLive : LiveRoutes where
  kernel := [hostRoute]
  routes := Keyed.empty.putAll ((hostRoute.nlDispatch eth0).toList.map (·.row ""))

theorem hostRoute_hostIn : hostRoute.HostIn 254 20 := by decide

theorem oneLive_oneEach : oneLive.OneEach 254 20 :=
  ⟨by simp [oneLive, hostRoute_hostIn], List.nodup_singleton _⟩

theorem oneLive_mirrors : oneLive.Mirrors eth0 := by
  obtain ⟨route, hroute, hkey⟩ := nlDispatch_entry eth0 hostRoute_hostIn
  have hkeys : oneLive.routes.keys = {(route.row "").key} := by
    rw [oneLive, hroute]
    exact Keyed.keys_put_empty _
  rw [LiveRoutes.Mirrors, hkeys, hkey]
  ext k
  simp [oneLive, eq_comm]

/-- The same destination through another gateway. -/
def otherGateway : RouteMessage := { hostRoute with gateway := some (ipv4 192 168 0 2) }

/-- A delete and an add follow the kernel. -/
theorem liveRoutes_mirror_delete :
    (∀ bs u, bs <+: [.remove hostRoute, .add otherGateway] →
      run (liveStep eth0 254 20) oneLive bs = some u → u.Mirrors eth0) ↔
      Along (liveStep eth0 254 20) (fun _ c => SameHop eth0 c) oneLive
        [.remove hostRoute, .add otherGateway] :=
  liveRoutes_mirror_iff oneLive_oneEach oneLive_mirrors rfl

/-- A replaced gateway leaves the old entry in the table. -/
theorem liveRoutes_stale_replace :
    ¬ ∀ (ifname : UInt32 → String) (table metric : UInt32) (s t : LiveRoutes)
        (cs : List (ObjChange RouteMessage)),
      s.OneEach table metric → s.Mirrors ifname → run (liveStep ifname table metric) s cs = some t →
        t.Mirrors ifname := by
  intro h
  have hmirrors := h eth0 254 20 oneLive _ [.replace hostRoute otherGateway] oneLive_oneEach
    oneLive_mirrors rfl
  have hstep : liveStep eth0 254 20 oneLive (.replace hostRoute otherGateway) = some _ := rfl
  have hsame := (liveStep_mirrors oneLive_oneEach oneLive_mirrors hstep).2.mp hmirrors
  exact absurd hsame.1 (by decide)

end Rtsrv.Client
