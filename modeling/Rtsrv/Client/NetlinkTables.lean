import Rtsrv.Client.RouteTable
import Rtsrv.Lib.KeyedFollower

/-!
# Rtsrv.Client.NetlinkTables — the three kernel tables that the client keeps

Routes (`netlink.c`, `routing.cpp`), neighbors (`netlink_neigh.c`) and nexthop objects
(`netlink_nexthop.c`), with the callbacks of `main.cpp`.  A route message is read in two ways:
`nl_dispatch` parses live notifications, `RoutingManager::listRoutes` parses the dump.  The names that
`if_indextoname` gives are a parameter.
-/

namespace Rtsrv.Client

open Lib CmdProto

/-- What an event does to a table: a removal erases the key, the other events put the row. -/
def updateTable {ρ : Type} {key : ρ → κ} [DecidableEq κ] (event : NetlinkEvent) (row : ρ)
    (m : Keyed key) : Keyed key :=
  match event with
  | .REMOVED => m.erase (key row)
  | .ADDED | .CHANGED => m.put row

/-! ### Route messages -/

def AF_INET : UInt8 := 2
def AF_BRIDGE : UInt8 := 7
def AF_INET6 : UInt8 := 10

def RTN_UNICAST : UInt8 := 1

/-- An entry of `RTA_MULTIPATH`. -/
structure RouteNexthop where
  gateway : Option Ipv4Addr
  ifindex : UInt32
  deriving DecidableEq, Repr

/-- An IPv4 route message: the `rtmsg` header and the attributes. -/
structure RouteMessage where
  dst_len : UInt8
  tos : UInt8
  table8 : UInt8
  protocol : UInt8
  scope : UInt8
  type : UInt8
  flags : UInt32
  dst : Option Ipv4Addr
  gateway : Option Ipv4Addr
  oif : Option UInt32
  priority : Option UInt32
  table : Option UInt32
  multipath : List RouteNexthop
  deriving DecidableEq, Repr

variable (ifname : UInt32 → String)

def RouteMessage.ifnameText (msg : RouteMessage) : String := (msg.oif.map ifname).getD ""

/-- `nl_dispatch`: the descriptor of a host route, for which `RTA_MULTIPATH` is not read. -/
def RouteMessage.nlDispatch (msg : RouteMessage) : Option NetlinkRoute32 :=
  if msg.dst_len ≠ 32 then none
  else if msg.type ≠ RTN_UNICAST then none
  else some {
    family := AF_INET
    dst_len := msg.dst_len
    tos := msg.tos
    scope := msg.scope
    type := msg.type
    flags := msg.flags
    protocol := msg.protocol
    table := msg.table.getD msg.table8.toUInt32
    dst := msg.dst.getD anyAddr
    gateway := msg.gateway.getD anyAddr
    ifindex := msg.oif.getD 0
    ifname := msg.ifnameText ifname
    metric := msg.priority.getD 0 }

/-- `KernelRoute`. -/
structure KernelRoute where
  destination : String
  gateway : String
  interfaceName : String
  interfaceIndex : UInt32
  metric : UInt32
  prefixLen : UInt8
  protocol : UInt8
  type : UInt8
  table : UInt32
  scope : UInt8
  family : UInt8
  deriving DecidableEq, Repr

/-- The handler in `RoutingManager::listRoutes`: one route for each nexthop. -/
def RouteMessage.listRoutes (msg : RouteMessage) : List KernelRoute :=
  let route : KernelRoute := {
    destination := (msg.dst.map fun dst => prefixText dst msg.dst_len).getD "0.0.0.0/0"
    gateway := (msg.gateway.map inetNtop).getD ""
    interfaceName := msg.ifnameText ifname
    interfaceIndex := msg.oif.getD 0
    metric := msg.priority.getD 0
    prefixLen := msg.dst_len
    protocol := msg.protocol
    type := msg.type
    table := msg.table.getD msg.table8.toUInt32
    scope := msg.scope
    family := AF_INET }
  match msg.multipath with
  | [] => [route]
  | nexthops => nexthops.map fun nh => { route with
      gateway := (nh.gateway.map inetNtop).getD ""
      interfaceIndex := nh.ifindex
      interfaceName := ifname nh.ifindex }

/-- The row that a dump stores; it leaves `tos` and `flags` zero. -/
def KernelRoute.row (kr : KernelRoute) (srmdId : String) : WatchRoute where
  dest := kr.destination
  gateway := kr.gateway
  iface := kr.interfaceName
  ifindex := kr.interfaceIndex
  metric := kr.metric
  table := kr.table
  protocol := kr.protocol
  srmdId := srmdId
  family := kr.family
  dst_len := kr.prefixLen
  tos := 0
  scope := kr.scope
  type := kr.type
  flags := 0

/-- The rows of the startup dump. -/
def RouteMessage.startupRows (msg : RouteMessage) : List WatchRoute :=
  ((msg.listRoutes ifname).filter fun kr => kr.prefixLen = 32 && kr.type = RTN_UNICAST).map
    (·.row "")

/-- `startupRouteLiveCb`. -/
def startupRouteLiveCb (event : NetlinkEvent) (route : NetlinkRoute32) (routes : WatchRoutes) :
    WatchRoutes := updateTable event (route.row "") routes

/-! ### Neighbors -/

/-- `netlink_neigh_t`, with the valid bytes of the link-layer address. -/
structure NetlinkNeigh where
  family : UInt8
  ifindex : Int32
  ifname : String
  state : UInt16
  flags : UInt8
  type : UInt8
  dst : String
  lladdr : List UInt8
  confirmed_ms : UInt32
  used_ms : UInt32
  updated_ms : UInt32
  refcnt : UInt32
  probes : UInt32
  vlan : UInt16
  master : UInt32
  master_name : String
  nh_ifindex : UInt32
  protocol : UInt8
  deriving DecidableEq, Repr

/-- `NeighEntry`. -/
structure NeighEntry where
  family : UInt8
  ifindex : Int32
  ifname : String
  state : UInt16
  flags : UInt8
  type : UInt8
  dst : String
  mac : String
  confirmed_ms : UInt32
  used_ms : UInt32
  updated_ms : UInt32
  refcnt : UInt32
  probes : UInt32
  vlan : UInt16
  master : UInt32
  master_name : String
  nh_ifindex : UInt32
  protocol : UInt8
  deriving DecidableEq, Repr

def familyLabel (family : UInt8) : String :=
  if family = AF_INET then "inet"
  else if family = AF_INET6 then "inet6"
  else if family = AF_BRIDGE then "bridge"
  else toString family.toNat

/-- `{:02x}`. -/
def hexByte (b : UInt8) : String :=
  let digits := Nat.toDigits 16 b.toNat
  String.ofList (if digits.length < 2 then '0' :: digits else digits)

def formatMac (lladdr : List UInt8) : String :=
  if lladdr.isEmpty then "(none)" else ":".intercalate (lladdr.map hexByte)

def neighKey (family : UInt8) (ifindex : Int32) (dst : String) : String :=
  familyLabel family ++ "|" ++ toString ifindex ++ "|" ++ (if dst = "" then "(none)" else dst)

def NeighEntry.key (e : NeighEntry) : String := neighKey e.family e.ifindex e.dst

abbrev Neighbors := Keyed NeighEntry.key

def NetlinkNeigh.entry (n : NetlinkNeigh) : NeighEntry where
  family := n.family
  ifindex := n.ifindex
  ifname := n.ifname
  state := n.state
  flags := n.flags
  type := n.type
  dst := n.dst
  mac := formatMac n.lladdr
  confirmed_ms := n.confirmed_ms
  used_ms := n.used_ms
  updated_ms := n.updated_ms
  refcnt := n.refcnt
  probes := n.probes
  vlan := n.vlan
  master := n.master
  master_name := n.master_name
  nh_ifindex := n.nh_ifindex
  protocol := n.protocol

/-- `nlNeighUpdate`, the table part of the populate callback and of the live callback. -/
def nlNeighUpdate (event : NetlinkEvent) (n : NetlinkNeigh) (neighbors : Neighbors) : Neighbors :=
  updateTable event n.entry neighbors

/-! ### Nexthop objects -/

/-- `netlink_nexthop_grp_t`. -/
structure NexthopGrp where
  id : UInt32
  weight : UInt8
  weight_high : UInt8
  deriving DecidableEq, Repr

/-- `netlink_nexthop_t`, with the valid entries of the group. -/
structure NetlinkNexthop where
  family : UInt8
  scope : UInt8
  protocol : UInt8
  flags : UInt32
  id : UInt32
  oif : UInt32
  oif_name : String
  gateway : String
  blackhole : UInt8
  fdb : UInt8
  master : UInt32
  master_name : String
  group : List NexthopGrp
  group_type : UInt16
  encap_type : UInt16
  deriving DecidableEq, Repr

/-- `NexthopEntry`. -/
structure NexthopEntry where
  id : UInt32
  family : UInt8
  scope : UInt8
  protocol : UInt8
  flags : UInt32
  oif : UInt32
  oif_name : String
  gateway : String
  blackhole : UInt8
  fdb : UInt8
  master : UInt32
  master_name : String
  group_str : String
  group_count : UInt32
  group_type : UInt16
  encap_type : UInt16
  deriving DecidableEq, Repr

/-- The text is ASCII, so its size is its length. -/
def formatNhGroup (group : List NexthopGrp) (maxlen : ℕ) : String :=
  if group.isEmpty then "-"
  else
    let s := ",".intercalate (group.map fun g =>
      toString g.id.toNat ++ "(" ++ toString (g.weight.toNat + 1) ++ ")")
    if maxlen < s.length then String.ofList (s.toList.take (maxlen - 1)) ++ "…" else s

abbrev Nexthops := Keyed NexthopEntry.id

def NetlinkNexthop.entry (nh : NetlinkNexthop) : NexthopEntry where
  id := nh.id
  family := nh.family
  scope := nh.scope
  protocol := nh.protocol
  flags := nh.flags
  oif := nh.oif
  oif_name := nh.oif_name
  gateway := nh.gateway
  blackhole := nh.blackhole
  fdb := nh.fdb
  master := nh.master
  master_name := nh.master_name
  group_str := formatNhGroup nh.group 28
  group_count := nh.group.length.toUInt32
  group_type := nh.group_type
  encap_type := nh.encap_type

/-- `nlNexthopUpdate`, the table part of the populate callback and of the live callback. -/
def nlNexthopUpdate (event : NetlinkEvent) (nh : NetlinkNexthop) (nexthops : Nexthops) : Nexthops :=
  updateTable event nh.entry nexthops

end Rtsrv.Client
