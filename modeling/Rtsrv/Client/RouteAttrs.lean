import Rtsrv.Client.Followers
import Rtsrv.Client.Inet6Text

/-!
# Rtsrv.Client.RouteAttrs — the two parsers of a route message, attribute by attribute

`RoutingManager::listRoutes` (`routing.cpp`) and `nl_dispatch` (`netlink.c`) each walk the attribute bytes
of an rtnetlink message.  Both refine the reading of the message as a `RouteMessage`, where the two part:
only the first follows `RTA_MULTIPATH`.  Words are in host order, here little-endian; interface names and
texts of IPv6 addresses come from the C library.
-/

namespace Rtsrv.Client

open Lib CmdProto Server

/-- A result, or a read outside the message. -/
abbrev Access := Except (Fault Empty)

def RTM_NEWROUTE : UInt16 := 24
def RTM_DELROUTE : UInt16 := 25
def NLM_F_REPLACE : UInt16 := 0x100
def RT_TABLE_UNSPEC : UInt32 := 0

def RTA_DST : UInt16 := 1
def RTA_OIF : UInt16 := 4
def RTA_GATEWAY : UInt16 := 5
def RTA_PRIORITY : UInt16 := 6
def RTA_MULTIPATH : UInt16 := 9
def RTA_TABLE : UInt16 := 15

/-! ### Attributes and nexthops in bytes -/

/-- `RTA_ALIGN`, `RTNH_ALIGN` and `NLMSG_ALIGN`. -/
def align4 (n : ℕ) : ℕ := (n + 3) / 4 * 4

/-- A record with its header, padded to the alignment. -/
def padded (bytes : List UInt8) : List UInt8 :=
  bytes ++ List.replicate (align4 bytes.length - bytes.length) 0

/-- `rtattr` with the payload behind it. -/
structure RtAttr where
  rta_type : UInt16
  data : List UInt8
  fits : data.length + 4 < 2 ^ 16
  deriving DecidableEq, Repr

def RtAttr.rta_len (a : RtAttr) : ℕ := a.data.length + 4

/-- `rtnexthop` with the attributes behind it. -/
structure RtNexthop where
  rtnh_flags : UInt8
  rtnh_hops : UInt8
  rtnh_ifindex : UInt32
  attrs : List UInt8
  fits : attrs.length + 8 < 2 ^ 16
  deriving DecidableEq, Repr

def RtNexthop.rtnh_len (nh : RtNexthop) : ℕ := nh.attrs.length + 8

def hostU16 (v : UInt16) : List UInt8 := (writeBe16 v).reverse

def hostU32 (v : UInt32) : List UInt8 := (writeBe32 v).reverse

def RtAttr.bytes (a : RtAttr) : List UInt8 :=
  padded (hostU16 a.rta_len.toUInt16 ++ hostU16 a.rta_type ++ a.data)

def RtNexthop.bytes (nh : RtNexthop) : List UInt8 :=
  padded (hostU16 nh.rtnh_len.toUInt16 ++ [nh.rtnh_flags, nh.rtnh_hops] ++ hostU32 nh.rtnh_ifindex ++
    nh.attrs)

/-- `RTA_OK` with the attribute it finds: the length covers the header and does not pass the end. -/
def rtaOk : List UInt8 → Option RtAttr
  | l0 :: l1 :: t0 :: t1 :: rest =>
    let rta_len := joinBe16 l1 l0
    if 4 ≤ rta_len.toNat ∧ rta_len.toNat - 4 ≤ rest.length then
      some {
        rta_type := joinBe16 t1 t0
        data := rest.take (rta_len.toNat - 4)
        fits := by
          have hlt := rta_len.toNat_lt
          have hle := List.length_take_le (rta_len.toNat - 4) rest
          omega }
    else none
  | _ => none

/-- `RTNH_OK` with the record it finds; of less than a header the length alone decides. -/
def rtnhOk : List UInt8 → Option RtNexthop
  | l0 :: l1 :: flags :: hops :: i0 :: i1 :: i2 :: i3 :: rest =>
    let rtnh_len := joinBe16 l1 l0
    if 8 ≤ rtnh_len.toNat ∧ rtnh_len.toNat - 8 ≤ rest.length then
      some {
        rtnh_flags := flags
        rtnh_hops := hops
        rtnh_ifindex := joinBe32 i3 i2 i1 i0
        attrs := rest.take (rtnh_len.toNat - 8)
        fits := by
          have hlt := rtnh_len.toNat_lt
          have hle := List.length_take_le (rtnh_len.toNat - 8) rest
          omega }
    else none
  | _ => none

/-- A round with `RTA_NEXT` on a signed length, which ends below zero. -/
def rtaNext : Reader UInt8 Empty (Option RtAttr) := fun s =>
  match rtaOk s with
  | none => .ok (none, s)
  | some a => .ok (some a, s.drop (align4 a.rta_len))

/-- A round with `RTA_NEXT` on an unsigned length: below zero it wraps, and the next header is read
behind the message. -/
def rtaNextUnsigned : Reader UInt8 Empty (Option RtAttr) := fun s =>
  match rtaOk s with
  | none => .ok (none, s)
  | some a =>
    if align4 a.rta_len ≤ s.length then .ok (some a, s.drop (align4 a.rta_len))
    else .error .outOfRange

def rtnhNext : Reader UInt8 Empty (Option RtNexthop) := fun s =>
  match rtnhOk s with
  | none => .ok (none, s)
  | some nh => .ok (some nh, s.drop (align4 nh.rtnh_len))

/-- What a `for` or `while` over the records of a buffer visits. -/
def visits {α : Type} (next : Reader UInt8 Empty (Option α)) (s : List UInt8) : Access (List α) :=
  Prod.fst <$> Reader.untilBreak next s

/-- `memcpy` of four bytes from a payload. -/
def word (data : List UInt8) : Access (Block UInt8 4) := Prod.fst <$> Reader.block 4 data

def wordU32 (b : Block UInt8 4) : UInt32 :=
  b.items.foldr (fun byte n => n <<< 8 ||| byte.toUInt32) 0

/-! ### Messages -/

/-- An `RTM_NEWROUTE` or `RTM_DELROUTE` message: what is read of its headers, and the attribute bytes. -/
structure RtMessage where
  nlmsg_type : UInt16
  nlmsg_flags : UInt16
  rtm_family : UInt8
  rtm_dst_len : UInt8
  rtm_tos : UInt8
  rtm_table : UInt8
  rtm_protocol : UInt8
  rtm_scope : UInt8
  rtm_type : UInt8
  rtm_flags : UInt32
  attrs : List UInt8
  deriving DecidableEq, Repr

/-- What both parsers take from the C library. -/
structure Libc where
  if_indextoname : UInt32 → Option String
  inet_ntop6 : Block UInt8 16 → String

variable (libc : Libc)

/-! ### The handler of `RoutingManager::listRoutes` -/

def addrToString (addr : List UInt8) (family : UInt8) : Access String :=
  if family = AF_INET then inetNtop <$> word addr
  else if family = AF_INET6 then (fun r => libc.inet_ntop6 r.1) <$> Reader.block 16 addr
  else .ok "<invalid>"

def ifIndexToName (index : UInt32) : String := (libc.if_indextoname index).getD ""

/-- The locals of the handler. -/
structure ListLocals where
  route : KernelRoute
  hasDst : Bool
  nexthops : List (String × UInt32)
  deriving DecidableEq, Repr

/-- What an attribute of a nexthop makes of its gateway. -/
def listGateway (family : UInt8) (nhGw : String) (a : RtAttr) : Access String :=
  if a.rta_type = RTA_GATEWAY then addrToString libc a.data family else pure nhGw

/-- The gateway and the interface of one record of `RTA_MULTIPATH`. -/
def listNexthop (family : UInt8) (rtnh : RtNexthop) : Access (String × UInt32) := do
  let inner ← visits rtaNext rtnh.attrs
  let nhGw ← inner.foldlM (listGateway libc family) ""
  pure (nhGw, rtnh.rtnh_ifindex)

/-- The switch over one attribute. -/
def listAttr (l : ListLocals) (a : RtAttr) : Access ListLocals :=
  if a.rta_type = RTA_DST then do
    let addr ← addrToString libc a.data l.route.family
    let destination := addr ++ "/" ++ toString l.route.prefixLen.toNat
    pure { l with route.destination := destination, hasDst := true }
  else if a.rta_type = RTA_GATEWAY then do
    let gateway ← addrToString libc a.data l.route.family
    pure { l with route.gateway := gateway }
  else if a.rta_type = RTA_OIF then do
    let oif ← wordU32 <$> word a.data
    pure { l with route.interfaceIndex := oif, route.interfaceName := ifIndexToName libc oif }
  else if a.rta_type = RTA_PRIORITY then do
    let prio ← wordU32 <$> word a.data
    pure { l with route.metric := prio }
  else if a.rta_type = RTA_TABLE then do
    let tbl ← wordU32 <$> word a.data
    pure { l with route.table := tbl }
  else if a.rta_type = RTA_MULTIPATH then do
    let records ← visits rtnhNext a.data
    let nexthops ← records.mapM (listNexthop libc l.route.family)
    pure { l with nexthops := l.nexthops ++ nexthops }
  else pure l

/-- What is pushed for the locals at the end, with the table filter. -/
def ListLocals.routes (l : ListLocals) (table : UInt32) : List KernelRoute :=
  let route := if l.hasDst then l.route
    else { l.route with destination := if l.route.family = AF_INET6 then "::/0" else "0.0.0.0/0" }
  let routes :=
    match l.nexthops with
    | [] => [route]
    | nexthops => nexthops.map fun (nh : String × UInt32) => { route with
        gateway := nh.1
        interfaceIndex := nh.2
        interfaceName := ifIndexToName libc nh.2 }
  routes.filter fun r => table = RT_TABLE_UNSPEC || r.table = table

/-- The routes that the handler pushes for a message of the dump. -/
def RtMessage.listRoutes (msg : RtMessage) (table : UInt32) : Access (List KernelRoute) :=
  if msg.nlmsg_type ≠ RTM_NEWROUTE then pure []
  else do
    let attrs ← visits rtaNext msg.attrs
    let l ← attrs.foldlM (listAttr libc)
      { route := {
          destination := ""
          gateway := ""
          interfaceName := ""
          interfaceIndex := 0
          metric := 0
          prefixLen := msg.rtm_dst_len
          protocol := msg.rtm_protocol
          type := msg.rtm_type
          table := msg.rtm_table.toUInt32
          scope := msg.rtm_scope
          family := msg.rtm_family }
        hasDst := false
        nexthops := [] }
    pure (l.routes libc table)

/-! ### `nl_dispatch` -/

/-- The event of the message type and flags. -/
def RtMessage.event (msg : RtMessage) : Option NetlinkEvent :=
  if msg.nlmsg_type = RTM_NEWROUTE then
    some (if msg.nlmsg_flags &&& NLM_F_REPLACE ≠ 0 then .CHANGED else .ADDED)
  else if msg.nlmsg_type = RTM_DELROUTE then some .REMOVED
  else none

/-- Copies the word of a payload that is long enough. -/
def dispatchWord {ρ : Type} (a : RtAttr) (route : ρ) (copy : Block UInt8 4 → ρ) : Access ρ :=
  if 4 ≤ a.data.length then copy <$> word a.data else pure route

/-- The switch over one attribute; where the index has no name, the name stays. -/
def dispatchAttr (route : NetlinkRoute32) (a : RtAttr) : Access NetlinkRoute32 :=
  if a.rta_type = RTA_DST then
    dispatchWord a route fun b => { route with dst := b }
  else if a.rta_type = RTA_GATEWAY then
    dispatchWord a route fun b => { route with gateway := b }
  else if a.rta_type = RTA_OIF then
    dispatchWord a route fun b => { route with
      ifindex := wordU32 b
      ifname := (libc.if_indextoname (wordU32 b)).getD route.ifname }
  else if a.rta_type = RTA_PRIORITY then
    dispatchWord a route fun b => { route with metric := wordU32 b }
  else if a.rta_type = RTA_TABLE then
    dispatchWord a route fun b => { route with table := wordU32 b }
  else pure route

/-- What the callback is called with, if it is called. -/
def RtMessage.nlDispatch (msg : RtMessage) : Access (Option (NetlinkEvent × NetlinkRoute32)) :=
  if msg.rtm_family ≠ AF_INET then pure none
  else if msg.rtm_dst_len ≠ 32 then pure none
  else if msg.rtm_type ≠ RTN_UNICAST then pure none
  else
    match msg.event with
    | none => pure none
    | some event => do
      let attrs ← visits rtaNextUnsigned msg.attrs
      let route ← attrs.foldlM (dispatchAttr libc)
        { family := msg.rtm_family
          dst_len := msg.rtm_dst_len
          tos := msg.rtm_tos
          scope := msg.rtm_scope
          type := msg.rtm_type
          flags := msg.rtm_flags
          protocol := msg.rtm_protocol
          table := msg.rtm_table.toUInt32
          dst := anyAddr
          gateway := anyAddr
          ifindex := 0
          ifname := ""
          metric := 0 }
      pure (some (event, route))

/-! ### The two tables that a message leads to -/

/-- What Step 1 of `main` stores for a message of the dump. -/
def RtMessage.startupDump (msg : RtMessage) : Access WatchRoutes := do
  let routes ← msg.listRoutes libc RT_TABLE_UNSPEC
  let kept := routes.filter fun kr => kr.prefixLen = 32 && kr.type = RTN_UNICAST
  pure (Keyed.empty.putAll (kept.map (·.row "")))

/-- What `startupRouteLiveCb` makes of a table on a live message. -/
def RtMessage.startupLive (msg : RtMessage) (routes : WatchRoutes) : Access WatchRoutes := do
  match ← msg.nlDispatch libc with
  | none => pure routes
  | some (event, route) => pure (startupRouteLiveCb event route routes)

/-- What Step 1 of `cmdNetlinkWatch` stores for a message of the dump. -/
def RtMessage.watchDump (msg : RtMessage) (ids : ℕ → String) : Access WatchRoutes := do
  let routes ← msg.listRoutes libc RT_TABLE_UNSPEC
  let kept := routes.filter fun kr =>
    kr.prefixLen = 32 && kr.protocol = RTPROT_OSPF && kr.type = RTN_UNICAST
  pure (Keyed.empty.putAll (kept.zipIdx.map fun kri => kri.1.row (ids kri.2)))

/-- What `nlWatchCb` makes of a table on a live message. -/
def RtMessage.watchLive (msg : RtMessage) (answers : Answers) (routes : WatchRoutes) :
    Access WatchRoutes := do
  match ← msg.nlDispatch libc with
  | none => pure routes
  | some (event, route) => pure (nlWatchCb answers routes event route).1

/-! ### What the attributes say -/

/-- The word of a payload that is long enough. -/
def RtAttr.value (a : RtAttr) : Option (Block UInt8 4) := (word a.data).toOption

/-- The attributes of a buffer. -/
def rtAttrs (s : List UInt8) : List RtAttr := (visits rtaNext s).toOption.getD []

/-- The records of a buffer. -/
def rtNexthops (s : List UInt8) : List RtNexthop := (visits rtnhNext s).toOption.getD []

def lastGateway (gateway : Option Ipv4Addr) (a : RtAttr) : Option Ipv4Addr :=
  if a.rta_type = RTA_GATEWAY then a.value else gateway

def RtNexthop.entry (nh : RtNexthop) : RouteNexthop where
  gateway := (rtAttrs nh.attrs).foldl lastGateway none
  ifindex := nh.rtnh_ifindex

/-- The message with one more attribute. -/
def RouteMessage.addAttr (m : RouteMessage) (a : RtAttr) : RouteMessage :=
  if a.rta_type = RTA_DST then { m with dst := a.value }
  else if a.rta_type = RTA_GATEWAY then { m with gateway := a.value }
  else if a.rta_type = RTA_OIF then { m with oif := a.value.map wordU32 }
  else if a.rta_type = RTA_PRIORITY then { m with priority := a.value.map wordU32 }
  else if a.rta_type = RTA_TABLE then { m with table := a.value.map wordU32 }
  else if a.rta_type = RTA_MULTIPATH then
    { m with multipath := m.multipath ++ (rtNexthops a.data).map RtNexthop.entry }
  else m

/-- The header alone. -/
def RtMessage.header (msg : RtMessage) : RouteMessage where
  dst_len := msg.rtm_dst_len
  tos := msg.rtm_tos
  table8 := msg.rtm_table
  protocol := msg.rtm_protocol
  scope := msg.rtm_scope
  type := msg.rtm_type
  flags := msg.rtm_flags
  dst := none
  gateway := none
  oif := none
  priority := none
  table := none
  multipath := []

/-- The message as its attributes make it. -/
def RtMessage.route (msg : RtMessage) : RouteMessage :=
  (rtAttrs msg.attrs).foldl RouteMessage.addAttr msg.header

/-! ### Well-formed messages -/

/-- A record of `RTA_MULTIPATH` as it is written: attributes, each gateway an address. -/
def RtNexthop.WellFormed (nh : RtNexthop) : Prop :=
  ∃ attrs : List RtAttr, nh.attrs = attrs.flatMap RtAttr.bytes ∧
    ∀ a ∈ attrs, a.rta_type = RTA_GATEWAY → 4 ≤ a.data.length

/-- An attribute with a word holds one, and `RTA_MULTIPATH` holds records. -/
structure RtAttr.WellFormed (a : RtAttr) : Prop where
  word : a.rta_type ∈ [RTA_DST, RTA_OIF, RTA_GATEWAY, RTA_PRIORITY, RTA_TABLE] → 4 ≤ a.data.length
  records : a.rta_type = RTA_MULTIPATH →
    ∃ nhs : List RtNexthop, a.data = nhs.flatMap RtNexthop.bytes ∧ ∀ nh ∈ nhs, nh.WellFormed

/-- The attribute bytes are well-formed attributes, no type twice. -/
def RtMessage.WellFormed (msg : RtMessage) : Prop :=
  ∃ attrs : List RtAttr, msg.attrs = attrs.flatMap RtAttr.bytes ∧
    (attrs.map RtAttr.rta_type).Nodup ∧ ∀ a ∈ attrs, a.WellFormed

/-- An IPv4 /32 unicast `RTM_NEWROUTE` message. -/
structure RtMessage.NewHostRoute (msg : RtMessage) : Prop where
  type : msg.nlmsg_type = RTM_NEWROUTE
  family : msg.rtm_family = AF_INET
  dst_len : msg.rtm_dst_len = 32
  unicast : msg.rtm_type = RTN_UNICAST

/-! ### The walks read back what was written -/

theorem length_le_align4 (n : ℕ) : n ≤ align4 n := by
  unfold align4
  omega

theorem padded_length (bytes : List UInt8) : (padded bytes).length = align4 bytes.length := by
  have hle := length_le_align4 bytes.length
  rw [padded, List.length_append, List.length_replicate]
  omega

theorem rta_bytes_length (a : RtAttr) : a.bytes.length = align4 a.rta_len := by
  have hlen : 2 + (2 + a.data.length) = a.rta_len := by
    unfold RtAttr.rta_len
    omega
  rw [RtAttr.bytes, padded_length, ← hlen]
  simp [hostU16]

theorem rtnh_bytes_length (nh : RtNexthop) : nh.bytes.length = align4 nh.rtnh_len := by
  have hlen : 2 + (4 + nh.attrs.length + 1 + 1) = nh.rtnh_len := by
    unfold RtNexthop.rtnh_len
    omega
  rw [RtNexthop.bytes, padded_length, ← hlen]
  simp [hostU16, hostU32]

theorem rtaOk_bytes (a : RtAttr) (s : List UInt8) : rtaOk (a.bytes ++ s) = some a := by
  have hbytes : a.bytes ++ s = a.rta_len.toUInt16.toUInt8 :: (a.rta_len.toUInt16 >>> 8).toUInt8 ::
      a.rta_type.toUInt8 :: (a.rta_type >>> 8).toUInt8 ::
        (a.data ++ (List.replicate (align4 a.rta_len - a.rta_len) 0 ++ s)) := by
    simp [RtAttr.bytes, padded, hostU16, writeBe16, RtAttr.rta_len]
  have hlen : a.rta_len.toUInt16.toNat = a.rta_len := UInt16.toNat_ofNat_of_lt' a.fits
  have hdata : a.rta_len - 4 = a.data.length := Nat.add_sub_cancel _ _
  have hok : 4 ≤ a.rta_len ∧ a.data.length ≤
      (a.data ++ (List.replicate (align4 a.rta_len - a.rta_len) 0 ++ s)).length := by
    rw [List.length_append]
    unfold RtAttr.rta_len
    omega
  simp only [hbytes, rtaOk, joinBe16_write, hlen, hdata, List.take_left]
  exact if_pos hok

theorem rtnhOk_bytes (nh : RtNexthop) (s : List UInt8) : rtnhOk (nh.bytes ++ s) = some nh := by
  have hbytes : nh.bytes ++ s = nh.rtnh_len.toUInt16.toUInt8 ::
      (nh.rtnh_len.toUInt16 >>> 8).toUInt8 :: nh.rtnh_flags :: nh.rtnh_hops ::
      nh.rtnh_ifindex.toUInt8 :: (nh.rtnh_ifindex >>> 8).toUInt8 ::
      (nh.rtnh_ifindex >>> 16).toUInt8 :: (nh.rtnh_ifindex >>> 24).toUInt8 ::
        (nh.attrs ++ (List.replicate (align4 nh.rtnh_len - nh.rtnh_len) 0 ++ s)) := by
    simp [RtNexthop.bytes, padded, hostU16, hostU32, writeBe16, writeBe32, RtNexthop.rtnh_len]
  have hlen : nh.rtnh_len.toUInt16.toNat = nh.rtnh_len := UInt16.toNat_ofNat_of_lt' nh.fits
  have hattrs : nh.rtnh_len - 8 = nh.attrs.length := Nat.add_sub_cancel _ _
  have hok : 8 ≤ nh.rtnh_len ∧ nh.attrs.length ≤
      (nh.attrs ++ (List.replicate (align4 nh.rtnh_len - nh.rtnh_len) 0 ++ s)).length := by
    rw [List.length_append]
    unfold RtNexthop.rtnh_len
    omega
  simp only [hbytes, rtnhOk, joinBe16_write, joinBe32_write, hlen, hattrs, List.take_left]
  exact if_pos hok

/-- A walk whose rounds undo the writing visits what was written. -/
theorem visits_flatMap {α : Type} {next : Reader UInt8 Empty (Option α)} {enc : α → List UInt8}
    {len : α → ℕ} (henc : ∀ a, (enc a).length = align4 (len a)) (hpos : ∀ a, 0 < len a)
    (hread : ∀ a s, next (enc a ++ s) = .ok (some a, (enc a ++ s).drop (align4 (len a)))) (as : List α) :
    visits next (as.flatMap enc) = .ok as := by
  have hnil : ∀ a, enc a ≠ [] := by
    intro a h
    have hle := length_le_align4 (len a)
    rw [← henc a, h] at hle
    exact absurd (hpos a) (by simpa using hle)
  have hdrop : ∀ a s, True → next (enc a ++ s) = .ok (some a, s) := by
    intro a s _
    rw [hread, ← henc, List.drop_left]
  rw [visits, Reader.untilBreak_flatMap hdrop hnil fun _ _ => trivial]
  rfl

theorem visits_rtaNext (attrs : List RtAttr) :
    visits rtaNext (attrs.flatMap RtAttr.bytes) = .ok attrs :=
  visits_flatMap rta_bytes_length (fun _ => Nat.succ_pos _)
    (fun a s => by rw [rtaNext, rtaOk_bytes]) attrs

theorem visits_rtnhNext (nhs : List RtNexthop) :
    visits rtnhNext (nhs.flatMap RtNexthop.bytes) = .ok nhs :=
  visits_flatMap rtnh_bytes_length (fun _ => Nat.succ_pos _)
    (fun nh s => by rw [rtnhNext, rtnhOk_bytes]) nhs

/-- With every attribute padded the unsigned length never wraps. -/
theorem visits_rtaNextUnsigned (attrs : List RtAttr) :
    visits rtaNextUnsigned (attrs.flatMap RtAttr.bytes) = .ok attrs := by
  refine visits_flatMap rta_bytes_length (fun _ => Nat.succ_pos _) (fun a s => ?_) attrs
  have hle : align4 a.rta_len ≤ (a.bytes ++ s).length := by
    rw [List.length_append, rta_bytes_length]
    omega
  rw [rtaNextUnsigned, rtaOk_bytes]
  exact if_pos hle

/-! ### Both parsers refine the route message -/

theorem word_ok {data : List UInt8} (h : 4 ≤ data.length) : ∃ b, word data = .ok b := by
  rw [word, Reader.block, dif_pos h]
  exact ⟨_, rfl⟩

theorem exists_word {a : RtAttr} (h : a.WellFormed)
    (ht : a.rta_type ∈ [RTA_DST, RTA_OIF, RTA_GATEWAY, RTA_PRIORITY, RTA_TABLE]) :
    ∃ b, word a.data = .ok b := word_ok (h.word ht)

theorem value_of_word {a : RtAttr} {b : Block UInt8 4} (h : word a.data = .ok b) :
    a.value = some b := by
  rw [RtAttr.value, h]
  rfl

theorem addrToString_inet {data : List UInt8} {b : Block UInt8 4} (h : word data = .ok b) :
    addrToString libc data AF_INET = .ok (inetNtop b) := by
  rw [addrToString, if_pos rfl, h]
  rfl

/-- The text of a gateway in the dump, empty where there is none. -/
def gatewayString (gateway : Option Ipv4Addr) : String := (gateway.map inetNtop).getD ""

theorem rtAttrs_bytes (attrs : List RtAttr) : rtAttrs (attrs.flatMap RtAttr.bytes) = attrs := by
  rw [rtAttrs, visits_rtaNext]
  rfl

theorem rtNexthops_bytes (nhs : List RtNexthop) :
    rtNexthops (nhs.flatMap RtNexthop.bytes) = nhs := by
  rw [rtNexthops, visits_rtnhNext]
  rfl

theorem listNexthop_entry {nh : RtNexthop} (h : nh.WellFormed) :
    listNexthop libc AF_INET nh = .ok (gatewayString nh.entry.gateway, nh.entry.ifindex) := by
  obtain ⟨attrs, hattrs, hgw⟩ := h
  have hfold : attrs.foldlM (listGateway libc AF_INET) "" =
      .ok (gatewayString (attrs.foldl lastGateway none)) := by
    refine foldlM_refines (listGateway libc AF_INET) lastGateway gatewayString
      (fun rest _ => ∀ a ∈ rest, a.rta_type = RTA_GATEWAY → 4 ≤ a.data.length) ?_ attrs none hgw
    intro a rest gateway hrest
    obtain ⟨ha, hrest⟩ := List.forall_mem_cons.mp hrest
    refine ⟨?_, hrest⟩
    unfold listGateway lastGateway
    split_ifs with ht
    · obtain ⟨b, hb⟩ := word_ok (ha ht)
      rw [addrToString_inet libc hb, value_of_word hb]
      rfl
    · rfl
  rw [listNexthop, RtNexthop.entry, hattrs, visits_rtaNext, rtAttrs_bytes, ok_bind, hfold]
  rfl

/-- The locals of the handler after the attributes that make `m`. -/
def ListLocals.of (m : RouteMessage) : ListLocals where
  route := {
    destination := (m.dst.map fun dst => prefixText dst m.dst_len).getD ""
    gateway := gatewayString m.gateway
    interfaceName := m.ifnameText (ifIndexToName libc)
    interfaceIndex := m.oif.getD 0
    metric := m.priority.getD 0
    prefixLen := m.dst_len
    protocol := m.protocol
    type := m.type
    table := m.table.getD m.table8.toUInt32
    scope := m.scope
    family := AF_INET }
  hasDst := m.dst.isSome
  nexthops := m.multipath.map fun nh => (gatewayString nh.gateway, nh.ifindex)

theorem listAttr_of {a : RtAttr} (h : a.WellFormed) (m : RouteMessage) :
    listAttr libc (.of libc m) a = .ok (.of libc (m.addAttr a)) := by
  unfold listAttr RouteMessage.addAttr
  split_ifs with hdst hgw hoif hprio htable hmulti
  · obtain ⟨b, hb⟩ := exists_word h (by simp [hdst])
    have haddr : addrToString libc a.data (ListLocals.of libc m).route.family = .ok (inetNtop b) :=
      addrToString_inet libc hb
    rw [haddr, value_of_word hb]
    rfl
  · obtain ⟨b, hb⟩ := exists_word h (by simp [hgw])
    have haddr : addrToString libc a.data (ListLocals.of libc m).route.family = .ok (inetNtop b) :=
      addrToString_inet libc hb
    rw [haddr, value_of_word hb]
    rfl
  · obtain ⟨b, hb⟩ := exists_word h (by simp [hoif])
    rw [hb, value_of_word hb]
    rfl
  · obtain ⟨b, hb⟩ := exists_word h (by simp [hprio])
    rw [hb, value_of_word hb]
    rfl
  · obtain ⟨b, hb⟩ := exists_word h (by simp [htable])
    rw [hb, value_of_word hb]
    rfl
  · obtain ⟨nhs, hdata, hwf⟩ := h.records hmulti
    have hmap := mapM_refines fun nh hnh => listNexthop_entry libc (hwf nh hnh)
    have hrecords : nhs.mapM (listNexthop libc (ListLocals.of libc m).route.family) = _ := hmap
    rw [hdata, visits_rtnhNext, rtNexthops_bytes, ok_bind, hrecords]
    simp [ListLocals.of, RouteMessage.ifnameText, pure, Except.pure]
  · rfl

/-- The descriptor after the attributes that make `m`. -/
def NetlinkRoute32.of (m : RouteMessage) : NetlinkRoute32 where
  family := AF_INET
  dst_len := m.dst_len
  tos := m.tos
  scope := m.scope
  type := m.type
  flags := m.flags
  protocol := m.protocol
  table := m.table.getD m.table8.toUInt32
  dst := m.dst.getD anyAddr
  gateway := m.gateway.getD anyAddr
  ifindex := m.oif.getD 0
  ifname := m.ifnameText (ifIndexToName libc)
  metric := m.priority.getD 0

theorem dispatchWord_ok {ρ : Type} {a : RtAttr} {b : Block UInt8 4} (h : word a.data = .ok b) (route : ρ)
    (copy : Block UInt8 4 → ρ) : dispatchWord a route copy = .ok (copy b) := by
  have hlen : 4 ≤ a.data.length := by
    by_contra hshort
    rw [word, Reader.block, dif_neg hshort] at h
    cases h
  rw [dispatchWord, if_pos hlen, h]
  rfl

/-- A payload that is too short changes nothing. -/
theorem dispatchWord_value {ρ : Type} (a : RtAttr) (route : ρ) (copy : Block UInt8 4 → ρ) :
    dispatchWord a route copy = .ok ((a.value.map copy).getD route) := by
  by_cases hlen : 4 ≤ a.data.length
  · obtain ⟨b, hb⟩ := word_ok hlen
    rw [dispatchWord_ok hb, value_of_word hb]
    rfl
  · have hnone : a.value = none := by
      rw [RtAttr.value, word, Reader.block, dif_neg hlen]
      rfl
    rw [dispatchWord, if_neg hlen, hnone]
    rfl

/-- A first `RTA_OIF` finds the name empty, so a missing name reads the same on both sides. -/
theorem dispatchAttr_of {a : RtAttr} (h : a.WellFormed) {m : RouteMessage}
    (hfirst : a.rta_type = RTA_OIF → m.oif = none) :
    dispatchAttr libc (.of libc m) a = .ok (.of libc (m.addAttr a)) := by
  unfold dispatchAttr RouteMessage.addAttr
  split_ifs with hdst hgw hoif hprio htable hmulti
  · obtain ⟨b, hb⟩ := exists_word h (by simp [hdst])
    rw [dispatchWord_ok hb, value_of_word hb]
    rfl
  · obtain ⟨b, hb⟩ := exists_word h (by simp [hgw])
    rw [dispatchWord_ok hb, value_of_word hb]
    rfl
  · obtain ⟨b, hb⟩ := exists_word h (by simp [hoif])
    have hname : (NetlinkRoute32.of libc m).ifname = "" := by
      show (m.oif.map _).getD "" = ""
      rw [hfirst hoif]
      rfl
    rw [dispatchWord_ok hb, value_of_word hb, hname]
    rfl
  · obtain ⟨b, hb⟩ := exists_word h (by simp [hprio])
    rw [dispatchWord_ok hb, value_of_word hb]
    rfl
  · obtain ⟨b, hb⟩ := exists_word h (by simp [htable])
    rw [dispatchWord_ok hb, value_of_word hb]
    rfl
  · rfl
  · rfl

theorem addAttr_oif {a : RtAttr} (h : a.rta_type ≠ RTA_OIF) (m : RouteMessage) :
    (m.addAttr a).oif = m.oif := by
  unfold RouteMessage.addAttr
  split_ifs <;> rfl

variable {msg : RtMessage}

theorem route_of_bytes {attrs : List RtAttr}
    (h : msg.attrs = attrs.flatMap RtAttr.bytes) :
    msg.route = attrs.foldl RouteMessage.addAttr msg.header := by
  rw [RtMessage.route, h, rtAttrs_bytes]

theorem addAttr_header (m : RouteMessage) (a : RtAttr) :
    (m.addAttr a).dst_len = m.dst_len ∧ (m.addAttr a).type = m.type ∧
      (m.addAttr a).protocol = m.protocol := by
  unfold RouteMessage.addAttr
  split_ifs <;> exact ⟨rfl, rfl, rfl⟩

theorem foldl_addAttr_header (attrs : List RtAttr) :
    ∀ m : RouteMessage, (attrs.foldl RouteMessage.addAttr m).dst_len = m.dst_len ∧
      (attrs.foldl RouteMessage.addAttr m).type = m.type ∧
      (attrs.foldl RouteMessage.addAttr m).protocol = m.protocol := by
  induction attrs with
  | nil => exact fun m => ⟨rfl, rfl, rfl⟩
  | cons a attrs ih =>
    intro m
    obtain ⟨hlen, htype, hproto⟩ := ih (m.addAttr a)
    obtain ⟨hlen', htype', hproto'⟩ := addAttr_header m a
    exact ⟨hlen.trans hlen', htype.trans htype', hproto.trans hproto'⟩

theorem ListLocals.of_routes (m : RouteMessage) :
    (ListLocals.of libc m).routes libc RT_TABLE_UNSPEC = m.listRoutes (ifIndexToName libc) := by
  have hall : ∀ l : List KernelRoute,
      l.filter (fun r => decide (RT_TABLE_UNSPEC = RT_TABLE_UNSPEC) || decide (r.table = RT_TABLE_UNSPEC)) =
        l := fun l => List.filter_eq_self.mpr fun _ _ => by simp
  rw [ListLocals.routes, hall, RouteMessage.listRoutes]
  rcases hd : m.dst with _ | dst <;> rcases hm : m.multipath with _ | ⟨nh, nhs⟩ <;>
    simp [ListLocals.of, hd, hm, gatewayString, AF_INET, AF_INET6]

/-- The handler of the dump reads the message as the model of it does. -/
theorem listRoutes_refines (hnew : msg.NewHostRoute) (h : msg.WellFormed) :
    msg.listRoutes libc RT_TABLE_UNSPEC = .ok (msg.route.listRoutes (ifIndexToName libc)) := by
  obtain ⟨attrs, hattrs, -, hwf⟩ := h
  have hfold : attrs.foldlM (listAttr libc) (ListLocals.of libc msg.header) =
      .ok (.of libc msg.route) := by
    rw [route_of_bytes hattrs]
    refine foldlM_refines (listAttr libc) RouteMessage.addAttr (ListLocals.of libc)
      (fun rest _ => ∀ a ∈ rest, a.WellFormed) (fun a rest m hrest => ?_) attrs msg.header hwf
    obtain ⟨ha, hrest⟩ := List.forall_mem_cons.mp hrest
    exact ⟨listAttr_of libc ha m, hrest⟩
  rw [RtMessage.listRoutes, if_neg (not_not.mpr hnew.type), hattrs, visits_rtaNext, ok_bind, hnew.family]
  change (attrs.foldlM (listAttr libc) (ListLocals.of libc msg.header) >>= _) = _
  rw [hfold, ← ListLocals.of_routes]
  rfl

/-- `nl_dispatch` reads the message as the model of it does, at the event of its flags. -/
theorem nlDispatch_refines (hnew : msg.NewHostRoute) (h : msg.WellFormed) :
    ∃ event, (event = .ADDED ∨ event = .CHANGED) ∧
      msg.nlDispatch libc = .ok (some (event, .of libc msg.route)) := by
  obtain ⟨attrs, hattrs, hdistinct, hwf⟩ := h
  have hfold : attrs.foldlM (dispatchAttr libc) (NetlinkRoute32.of libc msg.header) =
      .ok (.of libc msg.route) := by
    rw [route_of_bytes hattrs]
    refine foldlM_refines (dispatchAttr libc) RouteMessage.addAttr (NetlinkRoute32.of libc)
      (fun rest m => (∀ a ∈ rest, a.WellFormed) ∧ (rest.map RtAttr.rta_type).Nodup ∧
        (RTA_OIF ∈ rest.map RtAttr.rta_type → m.oif = none))
      ?_ attrs msg.header ⟨hwf, hdistinct, fun _ => rfl⟩
    rintro a rest m ⟨hrest, hnodup, hfirst⟩
    obtain ⟨ha, hrest⟩ := List.forall_mem_cons.mp hrest
    rw [List.map_cons] at hnodup hfirst
    obtain ⟨hnew, hnodup⟩ := List.nodup_cons.mp hnodup
    refine ⟨dispatchAttr_of libc ha fun ht => hfirst (by rw [ht]; exact List.mem_cons_self),
      hrest, hnodup, fun hoif => ?_⟩
    have hne : a.rta_type ≠ RTA_OIF := fun ht => hnew (ht ▸ hoif)
    rw [addAttr_oif hne]
    exact hfirst (List.mem_cons_of_mem _ hoif)
  have hevent : ∃ event, (event = .ADDED ∨ event = .CHANGED) ∧ msg.event = some event := by
    rw [RtMessage.event, if_pos hnew.type]
    split_ifs
    · exact ⟨_, .inr rfl, rfl⟩
    · exact ⟨_, .inl rfl, rfl⟩
  obtain ⟨event, hkind, hevent⟩ := hevent
  refine ⟨event, hkind, ?_⟩
  rw [RtMessage.nlDispatch, if_neg (not_not.mpr hnew.family), if_neg (not_not.mpr hnew.dst_len),
    if_neg (not_not.mpr hnew.unicast), hevent]
  dsimp only
  rw [hattrs, visits_rtaNextUnsigned, ok_bind, hnew.family]
  change (attrs.foldlM (dispatchAttr libc) (NetlinkRoute32.of libc msg.header) >>= _) = _
  rw [hfold]
  rfl

/-! ### When the keys agree -/

/-- The gateway that the live row shows: `0.0.0.0` counts as none. -/
def RouteMessage.liveGateway (m : RouteMessage) : Option Ipv4Addr :=
  m.gateway.filter fun gateway => decide (gateway ≠ anyAddr)

/-- All ways of reading the message lead to one key: it has a destination, a gateway other than
`0.0.0.0` if any, and each nexthop of `RTA_MULTIPATH` has the gateway and the interface name that
`RTA_GATEWAY` and `RTA_OIF` give. -/
def RouteMessage.OneKey (ifname : UInt32 → String) (m : RouteMessage) : Prop :=
  m.dst ≠ none ∧ (m.multipath = [] → m.gateway ≠ some anyAddr) ∧
    ∀ nh ∈ m.multipath, nh.gateway = m.liveGateway ∧ ifname nh.ifindex = m.ifnameText ifname

instance (ifname : UInt32 → String) (m : RouteMessage) : Decidable (m.OneKey ifname) :=
  inferInstanceAs (Decidable (_ ∧ _ ∧ _))

theorem gatewayString_injective : Function.Injective gatewayString := by
  intro g g' h
  rcases g with _ | a <;> rcases g' with _ | b
  · rfl
  · exact absurd h.symm (inetNtop_ne_empty b)
  · exact absurd h (inetNtop_ne_empty a)
  · exact congrArg some (inetNtop_injective h)

theorem unbarred_gatewayString (gateway : Option Ipv4Addr) : Unbarred (gatewayString gateway) := by
  rcases gateway with _ | addr
  · show Unbarred ""
    decide
  · exact unbarred_inetNtop addr

theorem liveGateway_eq (m : RouteMessage) : m.gateway = m.liveGateway ↔ m.gateway ≠ some anyAddr := by
  unfold RouteMessage.liveGateway
  rcases m.gateway with _ | gw
  · simp
  · by_cases hgw : gw = anyAddr <;> simp [hgw, Option.filter]

theorem gatewayText_of (m : RouteMessage) :
    (NetlinkRoute32.of libc m).gatewayText = gatewayString m.liveGateway := by
  show (if m.gateway.getD anyAddr = anyAddr then "" else inetNtop (m.gateway.getD anyAddr)) = _
  unfold RouteMessage.liveGateway
  rcases m.gateway with _ | gw
  · rfl
  · by_cases hgw : gw = anyAddr <;> simp [hgw, Option.filter, gatewayString]

/-- The destination of the routes of the dump. -/
def RouteMessage.dumpDest (m : RouteMessage) : String :=
  (m.dst.map fun dst => prefixText dst m.dst_len).getD "0.0.0.0/0"

theorem unbarred_dumpDest (m : RouteMessage) : Unbarred m.dumpDest := by
  unfold RouteMessage.dumpDest
  rcases m.dst with _ | dst
  · show Unbarred "0.0.0.0/0"
    decide
  · exact unbarred_prefixText dst m.dst_len

/-- The text that stands for a missing destination is not the one of a host route. -/
theorem dumpDest_eq {m : RouteMessage} (hlen : m.dst_len = 32) :
    m.dumpDest = (NetlinkRoute32.of libc m).destText ↔ m.dst ≠ none := by
  show _ = prefixText (m.dst.getD anyAddr) m.dst_len ↔ _
  rw [RouteMessage.dumpDest, hlen]
  rcases m.dst with _ | dst
  · exact iff_of_false (by decide) (fun h => h rfl)
  · exact iff_of_true rfl nofun

def KernelRoute.key (kr : KernelRoute) : String :=
  routeKey kr.destination kr.gateway kr.interfaceName

theorem forall_listRoutes_key (ifname : UInt32 → String) (m : RouteMessage) (k : String) :
    (∀ kr ∈ m.listRoutes ifname, kr.key = k) ↔
      (m.multipath = [] → routeKey m.dumpDest (gatewayString m.gateway) (m.ifnameText ifname) = k) ∧
      ∀ nh ∈ m.multipath, routeKey m.dumpDest (gatewayString nh.gateway) (ifname nh.ifindex) = k := by
  rw [RouteMessage.listRoutes]
  rcases hm : m.multipath with _ | ⟨nh, nhs⟩
  · dsimp only
    rw [List.forall_mem_singleton]
    exact ⟨fun h => ⟨fun _ => h, fun nh hnh => absurd hnh List.not_mem_nil⟩, fun h => h.1 rfl⟩
  · dsimp only
    rw [List.forall_mem_map]
    exact ⟨fun h => ⟨fun hnil => absurd hnil (List.cons_ne_nil _ _), h⟩, fun h => h.2⟩

/-- Every route of the dump has the key of the live row exactly when the message leads to one key. -/
theorem listRoutes_keys {m : RouteMessage} (hlen : m.dst_len = 32) :
    (∀ kr ∈ m.listRoutes (ifIndexToName libc), kr.key = ((NetlinkRoute32.of libc m).row "").key) ↔
      m.OneKey (ifIndexToName libc) := by
  have hparts : ∀ (gateway : Option Ipv4Addr) (iface : String),
      routeKey m.dumpDest (gatewayString gateway) iface = ((NetlinkRoute32.of libc m).row "").key ↔
        m.dst ≠ none ∧ gateway = m.liveGateway ∧ iface = m.ifnameText (ifIndexToName libc) := by
    intro gateway iface
    have hlive : ((NetlinkRoute32.of libc m).row "").key =
        routeKey (NetlinkRoute32.of libc m).destText (NetlinkRoute32.of libc m).gatewayText
          (m.ifnameText (ifIndexToName libc)) := rfl
    have hdest : Unbarred (NetlinkRoute32.of libc m).destText := unbarred_prefixText _ _
    rw [hlive, gatewayText_of, routeKey_inj (unbarred_dumpDest m) (unbarred_gatewayString _) hdest
      (unbarred_gatewayString _), dumpDest_eq libc hlen, gatewayString_injective.eq_iff]
  rw [forall_listRoutes_key]
  simp only [hparts, liveGateway_eq]
  unfold RouteMessage.OneKey
  rcases hm : m.multipath with _ | ⟨nh, nhs⟩
  · simp
  · refine ⟨fun h => ?_, fun h => ?_⟩
    · exact ⟨(h.2 nh List.mem_cons_self).1, nofun, fun nh' hnh' => (h.2 nh' hnh').2⟩
    · exact ⟨nofun, fun nh' hnh' => ⟨h.1, h.2.2 nh' hnh'⟩⟩

/-- No message gives an empty dump. -/
theorem listRoutes_ne_nil (ifname : UInt32 → String) (m : RouteMessage) :
    m.listRoutes ifname ≠ [] := by
  rw [RouteMessage.listRoutes]
  rcases m.multipath with _ | ⟨nh, nhs⟩ <;> exact List.cons_ne_nil _ _

/-- The table of a dump has the one key of the live table exactly when every row has it. -/
theorem putAll_rows_keys {m : RouteMessage} (hlen : m.dst_len = 32)
    {rows : List WatchRoute} (hrows : rows.map WatchRoute.key =
      (m.listRoutes (ifIndexToName libc)).map KernelRoute.key) :
    (Keyed.empty.putAll rows : WatchRoutes).keys = {((NetlinkRoute32.of libc m).row "").key} ↔
      m.OneKey (ifIndexToName libc) := by
  have hne : rows ≠ [] := by
    rintro rfl
    exact listRoutes_ne_nil _ m (List.map_eq_nil_iff.mp hrows.symm)
  rw [Keyed.keys_putAll_eq_singleton hne, ← listRoutes_keys libc hlen]
  have hmem : ∀ k, (∃ r ∈ rows, r.key = k) ↔
      ∃ kr ∈ m.listRoutes (ifIndexToName libc), kr.key = k := fun k => by
    rw [← List.mem_map, hrows, List.mem_map]
  refine ⟨fun h kr hkr => ?_, fun h r hr => ?_⟩
  · obtain ⟨r, hr, hkey⟩ := (hmem kr.key).mpr ⟨kr, hkr, rfl⟩
    rw [← hkey, h r hr]
  · obtain ⟨kr, hkr, hkey⟩ := (hmem r.key).mp ⟨r, hr, rfl⟩
    rw [← hkey, h kr hkr]

theorem route_header (msg : RtMessage) :
    msg.route.dst_len = msg.rtm_dst_len ∧ msg.route.type = msg.rtm_type ∧
      msg.route.protocol = msg.rtm_protocol := foldl_addAttr_header _ msg.header

theorem nlWatchCb_keys (answers : Answers) {event : NetlinkEvent}
    (hkind : event = .ADDED ∨ event = .CHANGED) {route : NetlinkRoute32}
    (hospf : route.protocol = RTPROT_OSPF) :
    (nlWatchCb answers .empty event route).1.keys = {(route.row "").key} := by
  unfold nlWatchCb
  rw [if_pos (mapRtProtocol_ospf.mpr hospf)]
  rcases hkind with rfl | rfl <;> exact Keyed.keys_put_empty (route.row (answers.added.getD ""))

theorem listRoutes_kept (hnew : msg.NewHostRoute) {kr : KernelRoute}
    (hkr : kr ∈ msg.route.listRoutes (ifIndexToName libc)) :
    kr.prefixLen = 32 ∧ kr.type = RTN_UNICAST ∧ kr.protocol = msg.rtm_protocol := by
  obtain ⟨hlen, htype, hproto⟩ := route_header msg
  obtain ⟨hkrlen, hkrtype, hkrproto⟩ := listRoutes_header _ hkr
  exact ⟨hkrlen.trans (hlen.trans hnew.dst_len), hkrtype.trans (htype.trans hnew.unicast),
    hkrproto.trans hproto⟩

/-- The startup dump and its live callback. -/
theorem startup_keys (hnew : msg.NewHostRoute) (h : msg.WellFormed) :
    ∃ dump live, msg.startupDump libc = .ok dump ∧ msg.startupLive libc .empty = .ok live ∧
      (dump.keys = live.keys ↔ msg.route.OneKey (ifIndexToName libc)) := by
  have hlen : msg.route.dst_len = 32 := (route_header msg).1.trans hnew.dst_len
  have hlist := listRoutes_refines libc hnew h
  obtain ⟨event, hkind, hdispatch⟩ := nlDispatch_refines libc hnew h
  have hkept : (msg.route.listRoutes (ifIndexToName libc)).filter
      (fun kr => kr.prefixLen = 32 && kr.type = RTN_UNICAST) = _ :=
    List.filter_eq_self.mpr fun kr hkr => by
      obtain ⟨hkrlen, hkrtype, -⟩ := listRoutes_kept libc hnew hkr
      simp [hkrlen, hkrtype]
  have hlive : (startupRouteLiveCb event (.of libc msg.route) .empty).keys =
      {((NetlinkRoute32.of libc msg.route).row "").key} := by
    rcases hkind with rfl | rfl <;> exact Keyed.keys_put_empty _
  refine ⟨_, _, by rw [RtMessage.startupDump, hlist, ok_bind, hkept]; rfl,
    by rw [RtMessage.startupLive, hdispatch, ok_bind]; rfl, ?_⟩
  rw [hlive]
  refine putAll_rows_keys libc hlen ?_
  rw [List.map_map]
  rfl

/-- The dump of `cmdNetlinkWatch` and its callback, which leave out what is not an OSPF route. -/
theorem watch_keys (hnew : msg.NewHostRoute) (h : msg.WellFormed) (ids : ℕ → String)
    (answers : Answers) :
    ∃ dump live, msg.watchDump libc ids = .ok dump ∧ msg.watchLive libc answers .empty = .ok live ∧
      (dump.keys = live.keys ↔
        (msg.rtm_protocol = RTPROT_OSPF → msg.route.OneKey (ifIndexToName libc))) := by
  have hlen : msg.route.dst_len = 32 := (route_header msg).1.trans hnew.dst_len
  have hproto : msg.route.protocol = msg.rtm_protocol := (route_header msg).2.2
  have hlist := listRoutes_refines libc hnew h
  obtain ⟨event, hkind, hdispatch⟩ := nlDispatch_refines libc hnew h
  by_cases hospf : msg.rtm_protocol = RTPROT_OSPF
  · have hkept : (msg.route.listRoutes (ifIndexToName libc)).filter (fun kr =>
        kr.prefixLen = 32 && kr.protocol = RTPROT_OSPF && kr.type = RTN_UNICAST) = _ :=
      List.filter_eq_self.mpr fun kr hkr => by
        obtain ⟨hkrlen, hkrtype, hkrproto⟩ := listRoutes_kept libc hnew hkr
        simp [hkrlen, hkrtype, hkrproto, hospf]
    have hid : WatchRoute.key ∘ (fun kri : KernelRoute × ℕ => kri.1.row (ids kri.2)) =
        KernelRoute.key ∘ Prod.fst := rfl
    refine ⟨_, _, by rw [RtMessage.watchDump, hlist, ok_bind, hkept]; rfl,
      by rw [RtMessage.watchLive, hdispatch, ok_bind]; rfl, ?_⟩
    rw [nlWatchCb_keys answers hkind (hproto.trans hospf), forall_prop_of_true hospf]
    refine putAll_rows_keys libc hlen ?_
    rw [List.map_map, hid, ← List.map_map, List.zipIdx_map_fst]
  · have hnone : (msg.route.listRoutes (ifIndexToName libc)).filter (fun kr =>
        kr.prefixLen = 32 && kr.protocol = RTPROT_OSPF && kr.type = RTN_UNICAST) = [] :=
      List.filter_eq_nil_iff.mpr fun kr hkr => by
        obtain ⟨-, -, hkrproto⟩ := listRoutes_kept libc hnew hkr
        simp [hkrproto, hospf]
    have hother : mapRtProtocol (NetlinkRoute32.of libc msg.route).protocol ≠ .OSPF := fun hmap =>
      hospf (hproto.symm.trans (mapRtProtocol_ospf.mp hmap))
    have hlive : nlWatchCb answers .empty event (.of libc msg.route) = (.empty, []) := by
      rw [nlWatchCb, if_neg hother]
    refine ⟨.empty, .empty, by rw [RtMessage.watchDump, hlist, ok_bind, hnone]; rfl,
      by rw [RtMessage.watchLive, hdispatch, ok_bind]; dsimp only; rw [hlive]; rfl, ?_⟩
    exact iff_of_true rfl fun hp => absurd hp hospf

/-! ### One route written in two ways -/

def wordAttr (rta_type : UInt16) (b : Block UInt8 4) : RtAttr where
  rta_type := rta_type
  data := b.items
  fits := by
    rw [b.length_eq]
    decide

/-- An OSPF route to 10.0.0.5/32, with these attributes beside the destination. -/
def ospfMessage (attrs : List RtAttr) : RtMessage where
  nlmsg_type := RTM_NEWROUTE
  nlmsg_flags := 0
  rtm_family := AF_INET
  rtm_dst_len := 32
  rtm_tos := 0
  rtm_table := 254
  rtm_protocol := RTPROT_OSPF
  rtm_scope := 0
  rtm_type := RTN_UNICAST
  rtm_flags := 0
  attrs := (wordAttr RTA_DST (ipv4 10 0 0 5) :: attrs).flatMap RtAttr.bytes

theorem ospfMessage_new (attrs : List RtAttr) : (ospfMessage attrs).NewHostRoute :=
  ⟨rfl, rfl, rfl, rfl⟩

/-- The C library of a host without interfaces. -/
def noLibc : Libc where
  if_indextoname _ := none
  inet_ntop6 := inetNtop6

/-- Interface 2 is `eth0`. -/
def oneInterface : Libc where
  if_indextoname := fun index => if index = 2 then some "eth0" else none
  inet_ntop6 := inetNtop6

theorem wordAttr_wellFormed {rta_type : UInt16} (h : rta_type ≠ RTA_MULTIPATH) (b : Block UInt8 4) :
    (wordAttr rta_type b).WellFormed where
  word := fun _ => b.length_eq.ge
  records := fun hmulti => absurd hmulti h

/-- Via 10.0.0.1 on interface 2, as single attributes. -/
def viaGateway : RtMessage :=
  ospfMessage [wordAttr RTA_GATEWAY (ipv4 10 0 0 1), wordAttr RTA_OIF (ipv4 2 0 0 0)]

/-- Via 10.0.0.1 on interface 2, as the one record of `RTA_MULTIPATH`. -/
def viaMultipath : RtMessage :=
  let record : RtNexthop := {
    rtnh_flags := 0
    rtnh_hops := 0
    rtnh_ifindex := 2
    attrs := (wordAttr RTA_GATEWAY (ipv4 10 0 0 1)).bytes
    fits := by decide }
  ospfMessage [{ rta_type := RTA_MULTIPATH, data := record.bytes, fits := by decide }]

theorem viaGateway_wellFormed : viaGateway.WellFormed := by
  refine ⟨_, rfl, by decide, ?_⟩
  intro a ha
  simp only [List.mem_cons, List.not_mem_nil, or_false] at ha
  rcases ha with rfl | rfl | rfl <;> exact wordAttr_wellFormed (by decide) _

theorem viaMultipath_wellFormed : viaMultipath.WellFormed := by
  refine ⟨_, rfl, by decide, ?_⟩
  intro a ha
  simp only [List.mem_cons, List.not_mem_nil, or_false] at ha
  rcases ha with rfl | rfl
  · exact wordAttr_wellFormed (by decide) _
  · refine ⟨fun h => absurd h (by decide), fun _ => ⟨[_], (List.append_nil _).symm, ?_⟩⟩
    intro nh hnh
    obtain rfl := List.mem_singleton.mp hnh
    refine ⟨[wordAttr RTA_GATEWAY (ipv4 10 0 0 1)], rfl, ?_⟩
    intro a ha _
    obtain rfl := List.mem_singleton.mp ha
    decide

/-! ### The comparison -/

/-- **A dumped route and the same route announced live have the same keys exactly when the message
leads to one key.**  For every well-formed /32 unicast message, without and with `RTA_MULTIPATH`: the
startup table with its live callback, and `cmdNetlinkWatch` with `nlWatchCb`. -/
theorem dump_live_keys_iff (hnew : msg.NewHostRoute) (h : msg.WellFormed) (ids : ℕ → String)
    (answers : Answers) :
    (∃ dump live, msg.startupDump libc = .ok dump ∧ msg.startupLive libc .empty = .ok live ∧
      (dump.keys = live.keys ↔ msg.route.OneKey (ifIndexToName libc))) ∧
    ∃ dump live, msg.watchDump libc ids = .ok dump ∧ msg.watchLive libc answers .empty = .ok live ∧
      (dump.keys = live.keys ↔
        (msg.rtm_protocol = RTPROT_OSPF → msg.route.OneKey (ifIndexToName libc))) :=
  ⟨startup_keys libc hnew h, watch_keys libc hnew h ids answers⟩

theorem dump_live_keys_viaGateway :
    ∃ dump live, viaGateway.startupDump oneInterface = .ok dump ∧
      viaGateway.startupLive oneInterface .empty = .ok live ∧ dump.keys = live.keys := by
  obtain ⟨⟨dump, live, hdump, hlive, hkeys⟩, -⟩ := dump_live_keys_iff oneInterface
    (ospfMessage_new _) viaGateway_wellFormed (fun _ => "") ⟨none, []⟩
  exact ⟨dump, live, hdump, hlive, hkeys.mpr (by decide)⟩

/-- A single nexthop in `RTA_MULTIPATH`, as FRR writes it, is dumped under its gateway and interface
and announced without them. -/
theorem dump_live_keys_viaMultipath :
    viaMultipath.NewHostRoute ∧ viaMultipath.WellFormed ∧
    (∃ dump live, viaMultipath.startupDump oneInterface = .ok dump ∧
      viaMultipath.startupLive oneInterface .empty = .ok live ∧ dump.keys ≠ live.keys) ∧
    ∃ dump live, viaMultipath.watchDump oneInterface (fun _ => "") = .ok dump ∧
      viaMultipath.watchLive oneInterface ⟨none, []⟩ .empty = .ok live ∧ dump.keys ≠ live.keys := by
  refine ⟨ospfMessage_new _, viaMultipath_wellFormed, ?_, ?_⟩
  · obtain ⟨dump, live, hdump, hlive, hkeys⟩ :=
      startup_keys oneInterface (ospfMessage_new _) viaMultipath_wellFormed
    exact ⟨dump, live, hdump, hlive, fun heq => absurd (hkeys.mp heq) (by decide)⟩
  · obtain ⟨dump, live, hdump, hlive, hkeys⟩ :=
      watch_keys oneInterface (ospfMessage_new _) viaMultipath_wellFormed (fun _ => "") ⟨none, []⟩
    exact ⟨dump, live, hdump, hlive, fun heq => absurd (hkeys.mp heq rfl) (by decide)⟩

end Rtsrv.Client
