import Rtsrv.Client.DumpRoutes
import Rtsrv.Client.NetlinkTables

/-!
# Rtsrv.Client.LinkMessages — interfaces and their addresses in messages (`routing.cpp`, `netlink.cpp`)

The handlers of `RoutingManager::dumpLinks` and `dumpAddrs`, and what `list_interfaces` and
`list_interface_addresses` make of a message.  Of several attributes of one type the last counts; of a message
of the kernel all four make the same interface, or the same address, once as words and once as texts.
-/

namespace Rtsrv.Client

open Lib CmdProto

def RTM_NEWLINK : UInt16 := 16
def RTM_NEWADDR : UInt16 := 20

def IFLA_ADDRESS : UInt16 := 1
def IFLA_IFNAME : UInt16 := 3
def IFLA_MTU : UInt16 := 4

def IFA_ADDRESS : UInt16 := 1
def IFA_LOCAL : UInt16 := 2
def IFA_BROADCAST : UInt16 := 4

def IFF_UP : UInt32 := 1

/-! ### The client -/

structure InterfaceAddress where
  address : String
  prefixLen : UInt8
  family : UInt8
  deriving DecidableEq, Repr

structure NetworkInterface where
  name : Netlink.CString
  index : UInt32
  flags : UInt32
  hwAddress : String
  mtu : UInt32
  addresses : List InterfaceAddress
  deriving DecidableEq, Repr

def NetworkInterface.isUp (iface : NetworkInterface) : Bool := iface.flags &&& IFF_UP ≠ 0

def macToString (data : List UInt8) : String :=
  if data.length ≠ 6 then "" else ":".intercalate (data.map hexByte)

/-- A text up to its zero; without one it would be read on outside the attribute. -/
def cString (data : List UInt8) : Access Netlink.CString :=
  if 0 ∈ data then .ok (data.takeWhile (· ≠ 0)) else .error .outOfRange

/-- The switch of `dumpLinks` over one attribute. -/
def linkAttr (iface : NetworkInterface) (a : RtAttr) : Access NetworkInterface :=
  if a.rta_type = IFLA_IFNAME then do
    let name ← cString a.data
    pure { iface with name := name }
  else if a.rta_type = IFLA_MTU then do
    let mtu ← wordU32 <$> word a.data
    pure { iface with mtu := mtu }
  else if a.rta_type = IFLA_ADDRESS then pure { iface with hwAddress := macToString a.data }
  else pure iface

/-- The interface that the handler of `dumpLinks` pushes, if it has a name. -/
def dumpLinksHandler (nlh : List UInt8) : Access (List NetworkInterface) := do
  let hdr ← nlmsghdr nlh
  if hdr.nlmsg_type ≠ RTM_NEWLINK then pure []
  else do
    let ifi_index ← u32At nlh 20
    let ifi_flags ← u32At nlh 24
    let attrs ← visits rtaNext (attrBytes hdr nlh 32)
    let iface ← attrs.foldlM linkAttr
      { name := []
        index := ifi_index
        flags := ifi_flags
        hwAddress := ""
        mtu := 0
        addresses := [] }
    pure (if iface.name = [] then [] else [iface])

variable (libc : Libc)

/-- The locals of the handler of `dumpAddrs`. -/
structure AddrLocals where
  localAddr : String
  peerAddr : String
  deriving DecidableEq, Repr

def dumpAddrsAttr (family : UInt8) (l : AddrLocals) (a : RtAttr) : Access AddrLocals :=
  if a.rta_type = IFA_LOCAL then do
    let addr ← addrToString libc a.data family
    pure { l with localAddr := addr }
  else if a.rta_type = IFA_ADDRESS then do
    let addr ← addrToString libc a.data family
    pure { l with peerAddr := addr }
  else pure l

/-- `IFA_LOCAL`, or else `IFA_ADDRESS`. -/
def AddrLocals.chosen (l : AddrLocals) : String := if l.localAddr ≠ "" then l.localAddr else l.peerAddr

/-- The address that the handler of `dumpAddrs` looks an interface up for, with the index of this. -/
def dumpAddrsHandler (nlh : List UInt8) : Access (Option (UInt32 × InterfaceAddress)) := do
  let hdr ← nlmsghdr nlh
  if hdr.nlmsg_type ≠ RTM_NEWADDR then pure none
  else do
    let ifa_family ← byteAt nlh 16
    if ifa_family ≠ AF_INET ∧ ifa_family ≠ AF_INET6 then pure none
    else do
      let attrs ← visits rtaNext (attrBytes hdr nlh 24)
      let l ← attrs.foldlM (dumpAddrsAttr libc ifa_family) ⟨"", ""⟩
      if l.chosen = "" then pure none
      else do
        let ifa_index ← u32At nlh 20
        let ifa_prefixlen ← byteAt nlh 17
        pure (some (ifa_index, ⟨l.chosen, ifa_prefixlen, ifa_family⟩))

end Rtsrv.Client

namespace Rtsrv.Netlink

open Lib CmdProto Client

/-! ### The library -/

/-- `netlink::InterfaceInfo`. -/
structure InterfaceInfo where
  index : Int32
  name : CString
  flags : UInt32
  mtu : UInt32
  hwaddr : Block UInt8 6
  has_hwaddr : Bool
  link_type : UInt32
  deriving DecidableEq, Repr

/-- `netlink::IfAddrEntry`. -/
structure IfAddrEntry where
  addr : Ipv4Addr
  prefix_len : UInt8
  broadcast : Ipv4Addr
  has_broadcast : Bool
  if_name : CString
  if_index : Int32
  deriving DecidableEq, Repr

def noHwaddr : Block UInt8 6 := ⟨List.replicate 6 0, rfl⟩

/-- The attribute that `parse_attrs` has stored of a type, the last. -/
def attrOf (attrs : List RtAttr) (type : UInt16) : Option RtAttr :=
  attrs.reverse.find? fun a => a.rta_type = type

/-- What the message at `nlh` adds to the interfaces of `list_interfaces`. -/
def linkMessage (hdr : NlMsgHdr) (nlh : List UInt8) : Access (List InterfaceInfo) :=
  if hdr.nlmsg_type ≠ RTM_NEWLINK then pure []
  else do
    let attrs ← visits rtaNext (attrBytes hdr nlh 32)
    let ifi_index ← u32At nlh 20
    let ifi_flags ← u32At nlh 24
    let ifi_type ← u16At nlh 18
    let hwaddr := attrData attrs IFLA_ADDRESS 6
    pure [
      { index := ifi_index.toInt32
        name := (attrOf attrs IFLA_IFNAME).elim [] fun a => a.data.takeWhile (· ≠ 0)
        flags := ifi_flags
        mtu := ((attrData attrs IFLA_MTU 4).map wordU32).getD 0
        hwaddr := hwaddr.getD noHwaddr
        has_hwaddr := hwaddr.isSome
        link_type := ifi_type.toUInt32 }]

variable (if_indextoname : UInt32 → Option CString)

/-- What the message at `nlh` adds to the addresses of `list_interface_addresses`. -/
def addrMessage (filter_idx : Int32) (hdr : NlMsgHdr) (nlh : List UInt8) : Access (List IfAddrEntry) :=
  if hdr.nlmsg_type ≠ RTM_NEWADDR then pure []
  else do
    let ifa_family ← byteAt nlh 16
    if ifa_family ≠ AF_INET then pure []
    else do
      let ifa_index ← u32At nlh 20
      if filter_idx ≠ 0 ∧ ifa_index.toInt32 ≠ filter_idx then pure []
      else do
        let attrs ← visits rtaNext (attrBytes hdr nlh 24)
        let ifa_prefixlen ← byteAt nlh 17
        let broadcast := attrData attrs IFA_BROADCAST 4
        pure [
          { addr := ((attrData attrs IFA_LOCAL 4).or (attrData attrs IFA_ADDRESS 4)).getD anyAddr
            prefix_len := ifa_prefixlen
            broadcast := broadcast.getD anyAddr
            has_broadcast := broadcast.isSome
            if_name := indexToName if_indextoname ifa_index.toInt32
            if_index := ifa_index.toInt32 }]

end Rtsrv.Netlink

namespace Rtsrv.Client

open Lib CmdProto

/-! ### Messages of the kernel -/

/-- `ifinfomsg`. -/
structure IfInfoMsg where
  ifi_family : UInt8
  ifi_type : UInt16
  ifi_index : UInt32
  ifi_flags : UInt32
  ifi_change : UInt32
  deriving DecidableEq, Repr

def IfInfoMsg.bytes (ifi : IfInfoMsg) : List UInt8 :=
  [ifi.ifi_family, 0] ++ hostU16 ifi.ifi_type ++ hostU32 ifi.ifi_index ++ hostU32 ifi.ifi_flags ++
    hostU32 ifi.ifi_change

/-- `ifaddrmsg`. -/
structure IfAddrMsg where
  ifa_family : UInt8
  ifa_prefixlen : UInt8
  ifa_flags : UInt8
  ifa_scope : UInt8
  ifa_index : UInt32
  deriving DecidableEq, Repr

def IfAddrMsg.bytes (ifa : IfAddrMsg) : List UInt8 :=
  [ifa.ifa_family, ifa.ifa_prefixlen, ifa.ifa_flags, ifa.ifa_scope] ++ hostU32 ifa.ifa_index

/-- A message of a dump: its fixed header behind the `nlmsghdr`, and the attributes. -/
structure KernelMsg where
  nlmsg_type : UInt16
  nlmsg_flags : UInt16
  body : List UInt8
  attrs : List RtAttr
  plain : nlmsg_type ≠ NLMSG_DONE ∧ nlmsg_type ≠ NLMSG_ERROR
  short : 16 + (body ++ attrs.flatMap RtAttr.bytes).length + 3 < 2 ^ 32

theorem byteAt_skip (front s : List UInt8) (i : ℕ) : byteAt (front ++ s) (front.length + i) = byteAt s i := by
  rw [byteAt, List.getElem?_append_right (Nat.le_add_right _ _), Nat.add_sub_cancel_left, byteAt]

theorem u16At_skip (front s : List UInt8) (i : ℕ) : u16At (front ++ s) (front.length + i) = u16At s i := by
  rw [u16At, Nat.add_assoc, byteAt_skip, byteAt_skip, u16At]

theorem u32At_skip (front s : List UInt8) (i : ℕ) : u32At (front ++ s) (front.length + i) = u32At s i := by
  rw [u32At, Nat.add_assoc, Nat.add_assoc, Nat.add_assoc, byteAt_skip, byteAt_skip, byteAt_skip, byteAt_skip,
    u32At]

namespace KernelMsg

variable (k : KernelMsg) (seq : UInt32)

/-- The message in an answer to the request `seq`. -/
def msg : NlMsg := ⟨k.nlmsg_type, k.nlmsg_flags, seq, k.body ++ k.attrs.flatMap RtAttr.bytes⟩

def message : PaddedMsg := (k.msg seq).toPadded k.short

theorem message_seq : (k.message seq).seq = seq := @NlMsg.toPadded_seq (k.msg seq) k.short

theorem message_plain : (k.message seq).Plain := k.plain

theorem message_length : (k.message seq).bytes.length =
    align4 (16 + (k.body ++ k.attrs.flatMap RtAttr.bytes).length) :=
  @NlMsg.toPadded_length (k.msg seq) k.short

variable (tail : List UInt8)

theorem nlmsghdr_message : nlmsghdr ((k.message seq).bytes ++ tail) = .ok (k.message seq).hdr :=
  nlmsghdr_append (k.message seq).header tail

/-- The fixed header stands behind the 16 bytes of the `nlmsghdr`. -/
theorem message_bytes : ∃ front rest, front.length = 16 ∧
    (k.message seq).bytes ++ tail = front ++ (k.body ++ rest) := by
  refine ⟨hostU32 (k.msg seq).nlmsg_len.toUInt32 ++ hostU16 k.nlmsg_type ++ hostU16 k.nlmsg_flags ++
      hostU32 seq ++ hostU32 0, k.attrs.flatMap RtAttr.bytes ++
        (List.replicate (align4 (k.msg seq).nlmsg_len - (k.msg seq).nlmsg_len) 0 ++ tail), rfl, ?_⟩
  simp only [message, NlMsg.toPadded, NlMsg.bytes, msg, List.append_assoc]

theorem byteAt_message {i : ℕ} {v : UInt8} (h : byteAt k.body i = .ok v) :
    byteAt ((k.message seq).bytes ++ tail) (16 + i) = .ok v := by
  obtain ⟨front, rest, hfront, hbytes⟩ := k.message_bytes seq tail
  rw [hbytes, ← hfront, byteAt_skip]
  exact byteAt_append h rest

theorem u16At_message {i : ℕ} {v : UInt16} (h : u16At k.body i = .ok v) :
    u16At ((k.message seq).bytes ++ tail) (16 + i) = .ok v := by
  obtain ⟨front, rest, hfront, hbytes⟩ := k.message_bytes seq tail
  rw [hbytes, ← hfront, u16At_skip]
  exact u16At_append h rest

theorem u32At_message {i : ℕ} {v : UInt32} (h : u32At k.body i = .ok v) :
    u32At ((k.message seq).bytes ++ tail) (16 + i) = .ok v := by
  obtain ⟨front, rest, hfront, hbytes⟩ := k.message_bytes seq tail
  rw [hbytes, ← hfront, u32At_skip]
  exact u32At_append h rest

/-- The attributes stand behind the fixed header. -/
theorem visits_message : visits rtaNext
    (attrBytes (k.message seq).hdr ((k.message seq).bytes ++ tail) (16 + k.body.length)) = .ok k.attrs := by
  have hlen : (k.message seq).hdr.nlmsg_len.toNat = (k.msg seq).bytes.length := by
    rw [NlMsg.bytes_length]
    exact NlMsg.hdr_len k.short
  have hbytes : (k.message seq).bytes ++ tail = (k.msg seq).bytes ++
      (List.replicate (align4 (k.msg seq).nlmsg_len - (k.msg seq).nlmsg_len) 0 ++ tail) :=
    List.append_assoc _ _ _
  have hfront : (k.msg seq).bytes = hostU32 (k.msg seq).nlmsg_len.toUInt32 ++ hostU16 k.nlmsg_type ++
      hostU16 k.nlmsg_flags ++ hostU32 seq ++ hostU32 0 ++ (k.body ++ k.attrs.flatMap RtAttr.bytes) := rfl
  rw [attrBytes, hlen, hbytes, List.take_left, hfront, ← List.drop_drop,
    List.drop_left' (i := 16) rfl, List.drop_left, visits_rtaNext]

end KernelMsg

/-! ### The last attribute of a type -/

theorem attrOf_concat (attrs : List RtAttr) {a : RtAttr} {type : UInt16} (h : a.rta_type = type) :
    Netlink.attrOf (attrs ++ [a]) type = some a := by
  simp [Netlink.attrOf, h]

theorem attrOf_concat_ne (attrs : List RtAttr) {a : RtAttr} {type : UInt16} (h : a.rta_type ≠ type) :
    Netlink.attrOf (attrs ++ [a]) type = Netlink.attrOf attrs type := by
  simp [Netlink.attrOf, h]

theorem attrOf_concat_other (attrs : List RtAttr) {a : RtAttr} {type : UInt16} (h : a.rta_type = type)
    (type' : UInt16) (hne : type ≠ type') : Netlink.attrOf (attrs ++ [a]) type' = Netlink.attrOf attrs type' :=
  attrOf_concat_ne attrs (h ▸ hne)

theorem mem_of_attrOf {attrs : List RtAttr} {a : RtAttr} {type : UInt16}
    (h : Netlink.attrOf attrs type = some a) : a ∈ attrs ∧ a.rta_type = type :=
  ⟨List.mem_reverse.mp (List.mem_of_find?_eq_some h), by simpa using List.find?_some h⟩

theorem attrOf_isSome {attrs : List RtAttr} {a : RtAttr} (h : a ∈ attrs) :
    ∃ b, Netlink.attrOf attrs a.rta_type = some b := by
  refine Option.isSome_iff_exists.mp ?_
  rw [Netlink.attrOf, List.find?_isSome]
  exact ⟨a, List.mem_reverse.mpr h, decide_eq_true rfl⟩

/-- The payload of an attribute, if it has the size. -/
def sized (n : ℕ) (a : RtAttr) : Option (Block UInt8 n) := if h : a.data.length = n then some ⟨a.data, h⟩ else none

theorem attrData_eq (attrs : List RtAttr) (type : UInt16) (n : ℕ) :
    Netlink.attrData attrs type n = (Netlink.attrOf attrs type).bind (sized n) := rfl

theorem sized_eq {n : ℕ} {a : RtAttr} (h : a.data.length = n) : sized n a = some ⟨a.data, h⟩ := dif_pos h

/-! ### Interfaces -/

/-- What both programs make of a link message: the words as the library has them. -/
def IfInfoMsg.info (ifi : IfInfoMsg) (attrs : List RtAttr) : Netlink.InterfaceInfo where
  index := ifi.ifi_index.toInt32
  name := (Netlink.attrOf attrs IFLA_IFNAME).elim [] fun a => a.data.takeWhile (· ≠ 0)
  flags := ifi.ifi_flags
  mtu := ((Netlink.attrData attrs IFLA_MTU 4).map wordU32).getD 0
  hwaddr := (Netlink.attrData attrs IFLA_ADDRESS 6).getD Netlink.noHwaddr
  has_hwaddr := (Netlink.attrData attrs IFLA_ADDRESS 6).isSome
  link_type := ifi.ifi_type.toUInt32

/-- An interface of the library as the client shows it, without addresses. -/
def shownInterface (i : Netlink.InterfaceInfo) : NetworkInterface where
  name := i.name
  index := i.index.toUInt32
  flags := i.flags
  hwAddress := if i.has_hwaddr then macToString i.hwaddr.items else ""
  mtu := i.mtu
  addresses := []

theorem macToString_sized (a : RtAttr) :
    (if (sized 6 a).isSome then macToString ((sized 6 a).getD Netlink.noHwaddr).items else "") =
      macToString a.data := by
  by_cases hlen : a.data.length = 6
  · rw [sized_eq hlen]
    rfl
  · have hmac : macToString a.data = "" := if_pos hlen
    rw [sized, dif_neg hlen, hmac]
    rfl

/-- One attribute more. -/
theorem linkAttr_info {ifi : IfInfoMsg} {attrs : List RtAttr} {a : RtAttr}
    (hname : a.rta_type = IFLA_IFNAME → 0 ∈ a.data) (hmtu : a.rta_type = IFLA_MTU → a.data.length = 4) :
    linkAttr (shownInterface (ifi.info attrs)) a = .ok (shownInterface (ifi.info (attrs ++ [a]))) := by
  unfold linkAttr
  by_cases hifname : a.rta_type = IFLA_IFNAME
  · have hmtu' := attrOf_concat_other attrs hifname IFLA_MTU (by decide)
    have haddress' := attrOf_concat_other attrs hifname IFLA_ADDRESS (by decide)
    rw [if_pos hifname, cString, if_pos (hname hifname), ok_bind]
    simp only [shownInterface, IfInfoMsg.info, attrData_eq, attrOf_concat attrs hifname, hmtu', haddress']
    rfl
  rw [if_neg hifname]
  by_cases hifmtu : a.rta_type = IFLA_MTU
  · have haddress' := attrOf_concat_other attrs hifmtu IFLA_ADDRESS (by decide)
    have hword : word a.data = .ok ⟨a.data, hmtu hifmtu⟩ := word_items ⟨a.data, hmtu hifmtu⟩
    rw [if_pos hifmtu, hword]
    simp only [shownInterface, IfInfoMsg.info, attrData_eq, attrOf_concat attrs hifmtu,
      attrOf_concat_ne attrs hifname, haddress', Option.bind_some, sized_eq (hmtu hifmtu)]
    rfl
  rw [if_neg hifmtu]
  by_cases haddress : a.rta_type = IFLA_ADDRESS
  · rw [if_pos haddress]
    simp only [shownInterface, IfInfoMsg.info, attrData_eq, attrOf_concat attrs haddress,
      attrOf_concat_ne attrs hifname, attrOf_concat_ne attrs hifmtu, Option.bind_some, macToString_sized]
    rfl
  rw [if_neg haddress]
  simp only [IfInfoMsg.info, attrData_eq, attrOf_concat_ne attrs hifname, attrOf_concat_ne attrs hifmtu,
    attrOf_concat_ne attrs haddress]
  rfl

/-- An interface of the kernel as a message that a dump can hold: names end with a zero, MTUs are words. -/
structure DumpedLink where
  nlmsg_flags : UInt16
  ifi : IfInfoMsg
  attrs : List RtAttr
  name : ∀ a ∈ attrs, a.rta_type = IFLA_IFNAME → 0 ∈ a.data
  mtu : ∀ a ∈ attrs, a.rta_type = IFLA_MTU → a.data.length = 4
  short : 16 + (ifi.bytes ++ attrs.flatMap RtAttr.bytes).length + 3 < 2 ^ 32

namespace DumpedLink

variable (l : DumpedLink)

def kernelMsg : KernelMsg where
  nlmsg_type := RTM_NEWLINK
  nlmsg_flags := l.nlmsg_flags
  body := l.ifi.bytes
  attrs := l.attrs
  plain := ⟨by decide, by decide⟩
  short := l.short

/-- The interface as the library has it. -/
def info : Netlink.InterfaceInfo := l.ifi.info l.attrs

theorem foldlM_linkAttr (attrs : List RtAttr) (hname : ∀ a ∈ attrs, a.rta_type = IFLA_IFNAME → 0 ∈ a.data)
    (hmtu : ∀ a ∈ attrs, a.rta_type = IFLA_MTU → a.data.length = 4) :
    attrs.foldlM linkAttr (shownInterface (l.ifi.info [])) = .ok (shownInterface (l.ifi.info attrs)) := by
  induction attrs using List.reverseRecOn with
  | nil => rfl
  | append_singleton attrs a ih =>
    obtain ⟨hnames, hna⟩ := List.forall_mem_append.mp hname
    obtain ⟨hmtus, hma⟩ := List.forall_mem_append.mp hmtu
    have ha := @linkAttr_info l.ifi attrs a (List.forall_mem_singleton.mp hna)
      (List.forall_mem_singleton.mp hma)
    rw [List.foldlM_append, ih hnames hmtus, ok_bind, List.foldlM_cons, ha]
    rfl

variable (seq : UInt32) (tail : List UInt8)

theorem fields : u16At l.kernelMsg.body 2 = .ok l.ifi.ifi_type ∧ u32At l.kernelMsg.body 4 = .ok l.ifi.ifi_index ∧
    u32At l.kernelMsg.body 8 = .ok l.ifi.ifi_flags := by
  simp [kernelMsg, IfInfoMsg.bytes, hostU32, hostU16, writeBe32, writeBe16, u32At, u16At, byteAt,
    joinBe32_write, joinBe16_write]

theorem visits_attrs : visits rtaNext (attrBytes (l.kernelMsg.message seq).hdr
    ((l.kernelMsg.message seq).bytes ++ tail) 32) = .ok l.attrs :=
  l.kernelMsg.visits_message seq tail

/-- The client pushes the interface if it has a name. -/
theorem dumpLinksHandler_message : dumpLinksHandler ((l.kernelMsg.message seq).bytes ++ tail) =
    .ok (if l.info.name = [] then [] else [shownInterface l.info]) := by
  obtain ⟨-, hindex, hflags⟩ := l.fields
  have hmine : ¬ (l.kernelMsg.message seq).hdr.nlmsg_type ≠ RTM_NEWLINK := not_not.mpr rfl
  have hindex' := l.kernelMsg.u32At_message seq tail hindex
  have hflags' := l.kernelMsg.u32At_message seq tail hflags
  have hfold := l.foldlM_linkAttr l.attrs l.name l.mtu
  rw [dumpLinksHandler, l.kernelMsg.nlmsghdr_message, ok_bind, if_neg hmine, hindex', ok_bind, hflags', ok_bind,
    l.visits_attrs, ok_bind]
  exact (congrArg (· >>= _) hfold).trans rfl

/-- The library lists every interface. -/
theorem linkMessage_message : Netlink.linkMessage (l.kernelMsg.message seq).hdr
    ((l.kernelMsg.message seq).bytes ++ tail) = .ok [l.info] := by
  obtain ⟨htype, hindex, hflags⟩ := l.fields
  have hmine : ¬ (l.kernelMsg.message seq).hdr.nlmsg_type ≠ RTM_NEWLINK := not_not.mpr rfl
  have htype' := l.kernelMsg.u16At_message seq tail htype
  have hindex' := l.kernelMsg.u32At_message seq tail hindex
  have hflags' := l.kernelMsg.u32At_message seq tail hflags
  rw [Netlink.linkMessage, if_neg hmine, l.visits_attrs, ok_bind, hindex', ok_bind, hflags', ok_bind, htype',
    ok_bind]
  rfl

end DumpedLink

/-! ### Addresses -/

/-- What both programs make of the attributes of an IPv4 address. -/
def ipv4Of (attrs : List RtAttr) : Ipv4Addr :=
  ((Netlink.attrData attrs IFA_LOCAL 4).or (Netlink.attrData attrs IFA_ADDRESS 4)).getD anyAddr

/-- An address of the library as the client shows it, with the index of its interface. -/
def shownAddress (e : Netlink.IfAddrEntry) : UInt32 × InterfaceAddress :=
  (e.if_index.toUInt32, ⟨inetNtop e.addr, e.prefix_len, AF_INET⟩)

/-- An address of the kernel as a message that a dump can hold: those of a family are as long as this says, and
an IPv4 address is there. -/
structure DumpedAddr where
  nlmsg_flags : UInt16
  ifa : IfAddrMsg
  attrs : List RtAttr
  inet : ifa.ifa_family = AF_INET →
    (∀ a ∈ attrs, a.rta_type ∈ [IFA_LOCAL, IFA_ADDRESS] → a.data.length = 4) ∧
      ∃ a ∈ attrs, a.rta_type ∈ [IFA_LOCAL, IFA_ADDRESS]
  inet6 : ifa.ifa_family = AF_INET6 →
    ∀ a ∈ attrs, a.rta_type ∈ [IFA_LOCAL, IFA_ADDRESS] → a.data.length = 16
  short : 16 + (ifa.bytes ++ attrs.flatMap RtAttr.bytes).length + 3 < 2 ^ 32

section Texts

variable (libc : Libc) (family : UInt8)

/-- The text of the last attribute of a type. -/
def addrText (attrs : List RtAttr) (type : UInt16) : String :=
  (Netlink.attrOf attrs type).elim "" fun a => (addrToString libc a.data family).toOption.getD ""

theorem dumpAddrsAttr_text {attrs : List RtAttr} {a : RtAttr}
    (h : a.rta_type ∈ [IFA_LOCAL, IFA_ADDRESS] → ∃ s, addrToString libc a.data family = .ok s) :
    dumpAddrsAttr libc family ⟨addrText libc family attrs IFA_LOCAL, addrText libc family attrs IFA_ADDRESS⟩ a =
      .ok ⟨addrText libc family (attrs ++ [a]) IFA_LOCAL,
        addrText libc family (attrs ++ [a]) IFA_ADDRESS⟩ := by
  unfold dumpAddrsAttr addrText
  by_cases hlocal : a.rta_type = IFA_LOCAL
  · obtain ⟨s, hs⟩ := h (by simp [hlocal])
    have hother : a.rta_type ≠ IFA_ADDRESS := hlocal ▸ (by decide)
    rw [if_pos hlocal, hs, attrOf_concat attrs hlocal, attrOf_concat_ne attrs hother, Option.elim_some, hs]
    rfl
  rw [if_neg hlocal, attrOf_concat_ne attrs hlocal]
  by_cases haddress : a.rta_type = IFA_ADDRESS
  · obtain ⟨s, hs⟩ := h (by simp [haddress])
    rw [if_pos haddress, hs, attrOf_concat attrs haddress, Option.elim_some, hs]
    rfl
  · rw [if_neg haddress, attrOf_concat_ne attrs haddress]
    rfl

theorem foldlM_dumpAddrsAttr (attrs : List RtAttr)
    (h : ∀ a ∈ attrs, a.rta_type ∈ [IFA_LOCAL, IFA_ADDRESS] → ∃ s, addrToString libc a.data family = .ok s) :
    attrs.foldlM (dumpAddrsAttr libc family) ⟨"", ""⟩ =
      .ok ⟨addrText libc family attrs IFA_LOCAL, addrText libc family attrs IFA_ADDRESS⟩ := by
  induction attrs using List.reverseRecOn with
  | nil => rfl
  | append_singleton attrs a ih =>
    obtain ⟨hattrs, ha⟩ := List.forall_mem_append.mp h
    rw [List.foldlM_append, ih hattrs, ok_bind, List.foldlM_cons,
      dumpAddrsAttr_text libc family (List.forall_mem_singleton.mp ha)]
    rfl

end Texts

/-- The text of an IPv4 address in the last attribute of a type. -/
theorem addrText_inet {libc : Libc} {attrs : List RtAttr} {type : UInt16}
    (hsize : ∀ a ∈ attrs, a.rta_type = type → a.data.length = 4) :
    addrText libc AF_INET attrs type = ((Netlink.attrData attrs type 4).map inetNtop).getD "" := by
  rw [addrText, attrData_eq]
  cases hattr : Netlink.attrOf attrs type with
  | none => rfl
  | some a =>
    obtain ⟨ha, htype⟩ := mem_of_attrOf hattr
    have hlen := hsize a ha htype
    have hword : word a.data = .ok ⟨a.data, hlen⟩ := word_items ⟨a.data, hlen⟩
    rw [Option.elim_some, Option.bind_some, sized_eq hlen, addrToString_inet libc hword]
    rfl

/-- `IFA_LOCAL` is preferred by both. -/
theorem chosen_inet {libc : Libc} {attrs : List RtAttr}
    (hsize : ∀ a ∈ attrs, a.rta_type ∈ [IFA_LOCAL, IFA_ADDRESS] → a.data.length = 4)
    (hsome : ∃ a ∈ attrs, a.rta_type ∈ [IFA_LOCAL, IFA_ADDRESS]) :
    AddrLocals.chosen ⟨addrText libc AF_INET attrs IFA_LOCAL, addrText libc AF_INET attrs IFA_ADDRESS⟩ =
      inetNtop (ipv4Of attrs) := by
  have hfound : ∀ a ∈ attrs, a.rta_type ∈ [IFA_LOCAL, IFA_ADDRESS] →
      ∃ b, Netlink.attrData attrs a.rta_type 4 = some b := by
    intro a ha hmem
    obtain ⟨b, hb⟩ := attrOf_isSome ha
    obtain ⟨hb', htype⟩ := mem_of_attrOf hb
    have hlen := hsize b hb' (htype ▸ hmem)
    exact ⟨_, by rw [attrData_eq, hb, Option.bind_some, sized_eq hlen]⟩
  rw [AddrLocals.chosen, addrText_inet fun a ha ht => hsize a ha (by simp [ht]),
    addrText_inet fun a ha ht => hsize a ha (by simp [ht]), ipv4Of]
  cases hlocal : Netlink.attrData attrs IFA_LOCAL 4 with
  | some addr => exact if_pos (inetNtop_ne_empty addr)
  | none =>
    obtain ⟨a, ha, hmem⟩ := hsome
    have htype : a.rta_type = IFA_ADDRESS := by
      rcases List.mem_cons.mp hmem with hl | hmem'
      · obtain ⟨b, hb⟩ := hfound a ha hmem
        rw [hl, hlocal] at hb
        cases hb
      · exact List.mem_singleton.mp hmem'
    obtain ⟨b, hb⟩ := hfound a ha hmem
    rw [htype] at hb
    rw [hb]
    exact if_neg (not_not.mpr rfl)

namespace DumpedAddr

variable (r : DumpedAddr)

def kernelMsg : KernelMsg where
  nlmsg_type := RTM_NEWADDR
  nlmsg_flags := r.nlmsg_flags
  body := r.ifa.bytes
  attrs := r.attrs
  plain := ⟨by decide, by decide⟩
  short := r.short

/-- The address as the library has it. -/
def entry (if_indextoname : UInt32 → Option Netlink.CString) : Netlink.IfAddrEntry where
  addr := ipv4Of r.attrs
  prefix_len := r.ifa.ifa_prefixlen
  broadcast := (Netlink.attrData r.attrs IFA_BROADCAST 4).getD anyAddr
  has_broadcast := (Netlink.attrData r.attrs IFA_BROADCAST 4).isSome
  if_name := Netlink.indexToName if_indextoname r.ifa.ifa_index.toInt32
  if_index := r.ifa.ifa_index.toInt32

variable (seq : UInt32) (tail : List UInt8)

theorem fields : byteAt r.kernelMsg.body 0 = .ok r.ifa.ifa_family ∧
    byteAt r.kernelMsg.body 1 = .ok r.ifa.ifa_prefixlen ∧ u32At r.kernelMsg.body 4 = .ok r.ifa.ifa_index := by
  simp [kernelMsg, IfAddrMsg.bytes, hostU32, writeBe32, u32At, byteAt, joinBe32_write]

theorem visits_attrs : visits rtaNext (attrBytes (r.kernelMsg.message seq).hdr
    ((r.kernelMsg.message seq).bytes ++ tail) 24) = .ok r.attrs :=
  r.kernelMsg.visits_message seq tail

/-- The library lists the IPv4 addresses, all or those of one interface. -/
theorem addrMessage_message (if_indextoname : UInt32 → Option Netlink.CString) (filter_idx : Int32) :
    Netlink.addrMessage if_indextoname filter_idx (r.kernelMsg.message seq).hdr
        ((r.kernelMsg.message seq).bytes ++ tail) =
      .ok (if r.ifa.ifa_family = AF_INET ∧ (filter_idx = 0 ∨ (r.entry if_indextoname).if_index = filter_idx)
        then [r.entry if_indextoname] else []) := by
  obtain ⟨hfamily, hprefixlen, hindex⟩ := r.fields
  have hmine : ¬ (r.kernelMsg.message seq).hdr.nlmsg_type ≠ RTM_NEWADDR := not_not.mpr rfl
  have hfamily' := r.kernelMsg.byteAt_message seq tail hfamily
  have hprefixlen' := r.kernelMsg.byteAt_message seq tail hprefixlen
  have hindex' := r.kernelMsg.u32At_message seq tail hindex
  rw [Netlink.addrMessage, if_neg hmine, hfamily', ok_bind]
  by_cases hinet : r.ifa.ifa_family = AF_INET
  swap
  · rw [if_pos hinet, if_neg fun h => hinet h.1]
    rfl
  rw [if_neg (not_not.mpr hinet), hindex', ok_bind]
  by_cases hpass : filter_idx = 0 ∨ r.ifa.ifa_index.toInt32 = filter_idx
  · have hkeep : ¬ (filter_idx ≠ 0 ∧ r.ifa.ifa_index.toInt32 ≠ filter_idx) := fun h =>
      hpass.elim h.1 h.2
    rw [if_neg hkeep, r.visits_attrs, ok_bind, hprefixlen', ok_bind, if_pos ⟨hinet, hpass⟩]
    rfl
  · rw [if_pos (not_or.mp hpass), if_neg fun h => hpass h.2]
    rfl

variable (libc : Libc)

/-- The locals of the handler behind the attributes. -/
def texts : AddrLocals :=
  ⟨addrText libc r.ifa.ifa_family r.attrs IFA_LOCAL, addrText libc r.ifa.ifa_family r.attrs IFA_ADDRESS⟩

theorem foldlM_texts : r.attrs.foldlM (dumpAddrsAttr libc r.ifa.ifa_family) ⟨"", ""⟩ = .ok (r.texts libc) := by
  refine foldlM_dumpAddrsAttr libc r.ifa.ifa_family r.attrs fun a ha hmem => ?_
  have hsize : AddrSize r.ifa.ifa_family a.data.length :=
    ⟨fun hinet => (r.inet hinet).1 a ha hmem, fun hinet6 => r.inet6 hinet6 a ha hmem⟩
  exact addrToString_total libc hsize

/-- The address that the client looks an interface up for: of the two families, and not empty. -/
def found : Option (UInt32 × InterfaceAddress) :=
  if r.ifa.ifa_family ≠ AF_INET ∧ r.ifa.ifa_family ≠ AF_INET6 then none
  else if (r.texts libc).chosen = "" then none
  else some (r.ifa.ifa_index, ⟨(r.texts libc).chosen, r.ifa.ifa_prefixlen, r.ifa.ifa_family⟩)

theorem dumpAddrsHandler_message :
    dumpAddrsHandler libc ((r.kernelMsg.message seq).bytes ++ tail) = .ok (r.found libc) := by
  obtain ⟨hfamily, hprefixlen, hindex⟩ := r.fields
  have hmine : ¬ (r.kernelMsg.message seq).hdr.nlmsg_type ≠ RTM_NEWADDR := not_not.mpr rfl
  have hfamily' := r.kernelMsg.byteAt_message seq tail hfamily
  have hprefixlen' := r.kernelMsg.byteAt_message seq tail hprefixlen
  have hindex' := r.kernelMsg.u32At_message seq tail hindex
  rw [dumpAddrsHandler, r.kernelMsg.nlmsghdr_message, ok_bind, if_neg hmine, hfamily', ok_bind,
    r.visits_attrs, ok_bind, r.foldlM_texts, ok_bind, hindex', hprefixlen', found]
  split_ifs
  · rfl
  · rfl
  · rfl

/-- An IPv4 address is that of the library. -/
theorem found_inet (if_indextoname : UInt32 → Option Netlink.CString) :
    (r.found libc).filter (fun addr => addr.2.family = AF_INET) =
      if r.ifa.ifa_family = AF_INET then some (shownAddress (r.entry if_indextoname)) else none := by
  unfold found
  by_cases hinet : r.ifa.ifa_family = AF_INET
  · obtain ⟨hsize, hsome⟩ := r.inet hinet
    have htext : (r.texts libc).chosen = inetNtop (ipv4Of r.attrs) := by
      rw [texts, hinet, chosen_inet hsize hsome]
    rw [if_neg fun h => h.1 hinet, htext, if_neg (inetNtop_ne_empty _), hinet, if_pos rfl]
    exact Option.filter_some_pos (decide_eq_true rfl)
  · rw [if_neg hinet]
    split_ifs
    · rfl
    · rfl
    · exact Option.filter_some_neg (by simpa using hinet)

end DumpedAddr

end Rtsrv.Client
