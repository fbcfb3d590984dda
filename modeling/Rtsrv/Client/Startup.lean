import Rtsrv.Client.Followers

/-!
# Rtsrv.Client.Startup — the startup dumps and the live monitors (`main`, `cmdNetlinkWatch`)

`main` dumps and fills the three tables one after the other and only then opens the live sockets, while
the kernel changes at any time and each monitor thread processes its own notices.  A step of this system
is a step of one table, so what is known of a single follower holds of each of the three.
-/

namespace Rtsrv.Client

open Lib Follower CmdProto

variable (ifname : UInt32 → String)

inductive KernelTable where
  | routes
  | neighbors
  | nexthops
  deriving DecidableEq, Repr

inductive StartupOp where
  | dump
  | fill
  | subscribe
  deriving DecidableEq, Repr

/-- Steps 1 to 5 of `main`. -/
def startupProgram : List (KernelTable × StartupOp) :=
  [(.routes, .dump), (.routes, .fill), (.neighbors, .dump), (.neighbors, .fill),
    (.nexthops, .dump), (.nexthops, .fill),
    (.routes, .subscribe), (.neighbors, .subscribe), (.nexthops, .subscribe)]

/-- The three tables with what the kernel has, and what `main` still has to do. -/
structure Startup where
  routes : Mirror RouteMessage WatchRoutes
  neighbors : Mirror NetlinkNeigh Neighbors
  nexthops : Mirror NetlinkNexthop Nexthops
  todo : List (KernelTable × StartupOp)

/-- `main ok` is the next step of `main`, with `ok` whether a dump succeeds; the events are steps of the
monitor threads. -/
inductive StartupAction where
  | routeChange (c : ObjChange RouteMessage)
  | neighChange (c : ObjChange NetlinkNeigh)
  | nexthopChange (c : ObjChange NetlinkNexthop)
  | main (ok : Bool)
  | routeEvent
  | neighEvent
  | nexthopEvent
  deriving DecidableEq, Repr

def Startup.start (routes : List RouteMessage) (neighbors : List NetlinkNeigh)
    (nexthops : List NetlinkNexthop) : Startup where
  routes := .start routes .empty
  neighbors := .start neighbors .empty
  nexthops := .start nexthops .empty
  todo := startupProgram

def StartupOp.action {ω : Type} (ok : Bool) : StartupOp → MirrorAction ω Unit Unit
  | .dump => .dump ok
  | .fill => .fill ()
  | .subscribe => .subscribe

def Startup.stepRoutes (s : Startup) (b : MirrorAction RouteMessage Unit Unit) : Option Startup :=
  (mirrorStep (startupRoutes ifname) s.routes b).map fun m => { s with routes := m }

def Startup.stepNeighbors (s : Startup) (b : MirrorAction NetlinkNeigh Unit Unit) : Option Startup :=
  (mirrorStep startupNeighbors s.neighbors b).map fun m => { s with neighbors := m }

def Startup.stepNexthops (s : Startup) (b : MirrorAction NetlinkNexthop Unit Unit) :
    Option Startup :=
  (mirrorStep startupNexthops s.nexthops b).map fun m => { s with nexthops := m }

def startupStep (s : Startup) : StartupAction → Option Startup
  | .routeChange c => s.stepRoutes ifname (.change c)
  | .neighChange c => s.stepNeighbors (.change c)
  | .nexthopChange c => s.stepNexthops (.change c)
  | .main ok =>
    match s.todo with
    | [] => none
    | (.routes, op) :: rest => { s with todo := rest }.stepRoutes ifname (op.action ok)
    | (.neighbors, op) :: rest => { s with todo := rest }.stepNeighbors (op.action ok)
    | (.nexthops, op) :: rest => { s with todo := rest }.stepNexthops (op.action ok)
  | .routeEvent => s.stepRoutes ifname (.process ())
  | .neighEvent => s.stepNeighbors (.process ())
  | .nexthopEvent => s.stepNexthops (.process ())

/-- The kernel's changes keep the keys of each table distinct and those of replaced objects, a host route that
a notice is about has no `RTA_MULTIPATH`, and those that are dumped have a destination and no gateway
`0.0.0.0`. -/
def StartupTame (s : Startup) : StartupAction → Prop
  | .routeChange c => (startupRoutes ifname).Tame s.routes (.change c)
  | .neighChange c => startupNeighbors.Tame s.neighbors (.change c)
  | .nexthopChange c => startupNexthops.Tame s.nexthops (.change c)
  | .main _ => s.todo.head? = some (.routes, .dump) → ∀ msg ∈ s.routes.objs, msg.Readable
  | .routeEvent | .neighEvent | .nexthopEvent => True

/-! ### The tables as components -/

theorem stepRoutes_some {s s' : Startup} {b : MirrorAction RouteMessage Unit Unit}
    (h : s.stepRoutes ifname b = some s') :
    mirrorStep (startupRoutes ifname) s.routes b = some s'.routes ∧ s'.neighbors = s.neighbors ∧
      s'.nexthops = s.nexthops := by
  obtain ⟨m, hm, rfl⟩ := Option.map_eq_some_iff.mp h
  exact ⟨hm, rfl, rfl⟩

theorem stepNeighbors_some {s s' : Startup} {b : MirrorAction NetlinkNeigh Unit Unit}
    (h : s.stepNeighbors b = some s') :
    mirrorStep startupNeighbors s.neighbors b = some s'.neighbors ∧ s'.routes = s.routes ∧
      s'.nexthops = s.nexthops := by
  obtain ⟨m, hm, rfl⟩ := Option.map_eq_some_iff.mp h
  exact ⟨hm, rfl, rfl⟩

theorem stepNexthops_some {s s' : Startup} {b : MirrorAction NetlinkNexthop Unit Unit}
    (h : s.stepNexthops b = some s') :
    mirrorStep startupNexthops s.nexthops b = some s'.nexthops ∧ s'.routes = s.routes ∧
      s'.neighbors = s.neighbors := by
  obtain ⟨m, hm, rfl⟩ := Option.map_eq_some_iff.mp h
  exact ⟨hm, rfl, rfl⟩

/-- Each step is a tame step of one table. -/
theorem startupStep_cases {s s' : Startup} {a : StartupAction} (ht : StartupTame ifname s a)
    (h : startupStep ifname s a = some s') :
    (∃ b, (startupRoutes ifname).Tame s.routes b ∧
      mirrorStep (startupRoutes ifname) s.routes b = some s'.routes ∧
      s'.neighbors = s.neighbors ∧ s'.nexthops = s.nexthops) ∨
    (∃ b, startupNeighbors.Tame s.neighbors b ∧
      mirrorStep startupNeighbors s.neighbors b = some s'.neighbors ∧
      s'.routes = s.routes ∧ s'.nexthops = s.nexthops) ∨
    ∃ b, startupNexthops.Tame s.nexthops b ∧
      mirrorStep startupNexthops s.nexthops b = some s'.nexthops ∧
      s'.routes = s.routes ∧ s'.neighbors = s.neighbors := by
  cases a with
  | routeChange c => exact .inl ⟨.change c, ht, stepRoutes_some ifname h⟩
  | neighChange c => exact .inr (.inl ⟨.change c, ht, stepNeighbors_some h⟩)
  | nexthopChange c => exact .inr (.inr ⟨.change c, ht, stepNexthops_some h⟩)
  | main ok =>
    rw [startupStep] at h
    split at h
    · cases h
    next op rest htodo =>
      have hstep := stepRoutes_some ifname h
      refine .inl ⟨op.action ok, ?_, hstep⟩
      cases op with
      | dump => exact ht (by rw [htodo]; rfl)
      | fill | subscribe => trivial
    next op rest htodo =>
      have hstep := stepNeighbors_some h
      refine .inr (.inl ⟨op.action ok, ?_, hstep⟩)
      cases op with
      | dump => exact fun _ _ => trivial
      | fill | subscribe => trivial
    next op rest htodo =>
      have hstep := stepNexthops_some h
      refine .inr (.inr ⟨op.action ok, ?_, hstep⟩)
      cases op with
      | dump => exact fun _ _ => trivial
      | fill | subscribe => trivial
  | routeEvent => exact .inl ⟨.process (), trivial, stepRoutes_some ifname h⟩
  | neighEvent => exact .inr (.inl ⟨.process (), trivial, stepNeighbors_some h⟩)
  | nexthopEvent => exact .inr (.inr ⟨.process (), trivial, stepNexthops_some h⟩)

theorem component_routes :
    Component (startupRoutes ifname) (startupStep ifname) (StartupTame ifname) Startup.routes := by
  intro s a s' ht h
  rcases startupStep_cases ifname ht h with ⟨b, hb, hm, -⟩ | ⟨-, -, -, hr, -⟩ | ⟨-, -, -, hr, -⟩
  · exact .inr ⟨b, hb, hm⟩
  · exact .inl hr
  · exact .inl hr

theorem component_neighbors :
    Component startupNeighbors (startupStep ifname) (StartupTame ifname) Startup.neighbors := by
  intro s a s' ht h
  rcases startupStep_cases ifname ht h with ⟨-, -, -, hn, -⟩ | ⟨b, hb, hm, -⟩ | ⟨-, -, -, -, hn⟩
  · exact .inl hn
  · exact .inr ⟨b, hb, hm⟩
  · exact .inl hn

theorem component_nexthops :
    Component startupNexthops (startupStep ifname) (StartupTame ifname) Startup.nexthops := by
  intro s a s' ht h
  rcases startupStep_cases ifname ht h with ⟨-, -, -, -, hn⟩ | ⟨-, -, -, -, hn⟩ | ⟨b, hb, hm, -⟩
  · exact .inl hn
  · exact .inl hn
  · exact .inr ⟨b, hb, hm⟩

theorem component_self {ω κ ν τ φ η : Type} [DecidableEq ω] (F : Follower ω κ ν τ φ η) :
    Component F (mirrorStep F) F.Tame id := fun _ _ _ ht h => .inr ⟨_, ht, h⟩

/-! ### From the dump to live monitoring -/

/-- From `s` on, a table whose notices have all been processed has exactly the rows of the kernel's
objects. -/
def Startup.Follows (s : Startup) : KernelTable → Prop
  | .routes =>
    FollowsFrom (startupRoutes ifname) (startupStep ifname) (StartupTame ifname) Startup.routes s
  | .neighbors =>
    FollowsFrom startupNeighbors (startupStep ifname) (StartupTame ifname) Startup.neighbors s
  | .nexthops =>
    FollowsFrom startupNexthops (startupStep ifname) (StartupTame ifname) Startup.nexthops s

/-- The kernel's objects have the rows that the dump saw. -/
def Startup.Undisturbed (s : Startup) : KernelTable → Prop
  | .routes => (startupRoutes ifname).Undisturbed s.routes
  | .neighbors => startupNeighbors.Undisturbed s.neighbors
  | .nexthops => startupNexthops.Undisturbed s.nexthops

/-- The kernel starts with distinct keys in each table. -/
structure DistinctTables (routes : List RouteMessage) (neighbors : List NetlinkNeigh)
    (nexthops : List NetlinkNexthop) : Prop where
  routes : DistinctKeys WatchRoute.key ((startupRoutes ifname).rows routes)
  neighbors : DistinctKeys NeighEntry.key (startupNeighbors.rows neighbors)
  nexthops : DistinctKeys NexthopEntry.id (startupNexthops.rows nexthops)

instance (msg : RouteMessage) : Decidable ((routeReader ifname).told msg) :=
  inferInstanceAs (Decidable msg.Told)

instance (n : NetlinkNeigh) : Decidable (neighReader.told n) := .isTrue trivial

instance (nh : NetlinkNexthop) : Decidable (nexthopReader.told nh) := .isTrue trivial

instance (m : Mirror RouteMessage WatchRoutes) (c : ObjChange RouteMessage) :
    Decidable ((startupRoutes ifname).Tame m (.change c)) :=
  inferInstanceAs (Decidable ((_ → (routeReader ifname).Tame c) ∧
    ∀ objs ∈ _, DistinctKeys WatchRoute.key _))

instance (m : Mirror NetlinkNeigh Neighbors) (c : ObjChange NetlinkNeigh) :
    Decidable (startupNeighbors.Tame m (.change c)) :=
  inferInstanceAs (Decidable ((_ → neighReader.Tame c) ∧
    ∀ objs ∈ _, DistinctKeys NeighEntry.key _))

instance (m : Mirror NetlinkNexthop Nexthops) (c : ObjChange NetlinkNexthop) :
    Decidable (startupNexthops.Tame m (.change c)) :=
  inferInstanceAs (Decidable ((_ → nexthopReader.Tame c) ∧
    ∀ objs ∈ _, DistinctKeys NexthopEntry.id _))

instance (s : Startup) : ∀ a, Decidable (StartupTame ifname s a)
  | .routeChange c => inferInstanceAs (Decidable ((startupRoutes ifname).Tame s.routes (.change c)))
  | .neighChange c => inferInstanceAs (Decidable (startupNeighbors.Tame s.neighbors (.change c)))
  | .nexthopChange c => inferInstanceAs (Decidable (startupNexthops.Tame s.nexthops (.change c)))
  | .main _ => inferInstanceAs (Decidable (_ → ∀ msg ∈ _, RouteMessage.Readable msg))
  | .routeEvent | .neighEvent | .nexthopEvent => .isTrue trivial

/-- An OSPF host route. -/
def hostRoute : RouteMessage where
  dst_len := 32
  tos := 0
  table8 := 254
  protocol := RTPROT_OSPF
  scope := 0
  type := RTN_UNICAST
  flags := 0
  dst := some (ipv4 10 0 0 1)
  gateway := some (ipv4 192 168 0 1)
  oif := some 3
  priority := some 20
  table := some 254
  multipath := []

/-- All interfaces have one name. -/
def eth0 : UInt32 → String := fun _ => "eth0"

end Rtsrv.Client
