import Rtsrv.Client.AddrText
import Rtsrv.Client.NlProcess
import Rtsrv.Server.Provisioning

/-!
# Rtsrv.Client.RouteRequest — the route messages that the client sends (`routing.cpp`)

`RoutingManager::sendRouteRequest` turns route parameters into an rtnetlink message, attribute by attribute,
and `listRoutes` reads such messages from the kernel.  A message that the one has built gives the other the
route that was asked for, except that a route on an interface without gateway is asked for in link scope.
-/

namespace Rtsrv.Client

open Lib CmdProto Server

def NLM_F_REQUEST : UInt16 := 0x1
def NLM_F_ACK : UInt16 := 0x4
def RT_TABLE_COMPAT : UInt8 := 252
def RT_SCOPE_UNIVERSE : UInt8 := 0
def RT_SCOPE_LINK : UInt8 := 253

/-! ### Messages in their buffer -/

/-- `rtmsg`. -/
structure RtMsg where
  rtm_family : UInt8
  rtm_dst_len : UInt8
  rtm_src_len : UInt8
  rtm_tos : UInt8
  rtm_table : UInt8
  rtm_protocol : UInt8
  rtm_scope : UInt8
  rtm_type : UInt8
  rtm_flags : UInt32
  deriving DecidableEq, Repr

def RtMsg.bytes (rtm : RtMsg) : List UInt8 :=
  [rtm.rtm_family, rtm.rtm_dst_len, rtm.rtm_src_len, rtm.rtm_tos, rtm.rtm_table, rtm.rtm_protocol,
    rtm.rtm_scope, rtm.rtm_type] ++ hostU32 rtm.rtm_flags

/-- A request that is being built in a zeroed buffer: its header, and what stands behind it. -/
structure NlMsg where
  nlmsg_type : UInt16
  nlmsg_flags : UInt16
  nlmsg_seq : UInt32
  payload : List UInt8
  deriving DecidableEq, Repr

def NlMsg.nlmsg_len (nlh : NlMsg) : ℕ := 16 + nlh.payload.length

/-- The bytes that are sent; `nlmsg_pid` is zero. -/
def NlMsg.bytes (nlh : NlMsg) : List UInt8 :=
  hostU32 nlh.nlmsg_len.toUInt32 ++ hostU16 nlh.nlmsg_type ++ hostU16 nlh.nlmsg_flags ++
    hostU32 nlh.nlmsg_seq ++ hostU32 0 ++ nlh.payload

/-- An attribute with a word. -/
def u32Attr (rta_type : UInt16) (v : UInt32) : RtAttr := wordAttr rta_type ⟨hostU32 v, rfl⟩

/-- The attribute of a word that is sent only under a condition. -/
def u32AttrIf (given : Prop) [Decidable given] (rta_type : UInt16) (v : UInt32) : Option RtAttr :=
  if given then some (u32Attr rta_type v) else none

/-- An attribute with the first `alen` bytes of an address buffer. -/
def addrAttr (rta_type : UInt16) (addr : Block UInt8 16) (alen : ℕ) : RtAttr where
  rta_type := rta_type
  data := addr.items.take alen
  fits := by
    have hle := List.length_take_le' alen addr.items
    rw [addr.length_eq] at hle
    omega

/-- `addRtAttr`: appends at the next aligned position, if the attribute ends inside `maxLen`. -/
def addRtAttr (nlh : NlMsg) (maxLen : ℕ) (rta : RtAttr) : Option NlMsg :=
  if maxLen < align4 nlh.nlmsg_len + align4 rta.rta_len then none
  else some { nlh with
    payload := nlh.payload ++ List.replicate (align4 nlh.nlmsg_len - nlh.nlmsg_len) 0 ++ rta.bytes }

/-! ### `RoutingManager::sendRouteRequest` -/

/-- What the builder takes from the C library as well; the names are given up to their first zero, and an
index of 0 stands for none. -/
structure NetLibc extends Libc where
  if_nametoindex : String → UInt32
  inet_pton6 : List Char → Option (Block UInt8 16)

structure RouteParams where
  destination : String
  gateway : String
  interfaceName : String
  metric : UInt32
  protocol : UInt8
  type : UInt8
  table : UInt32
  family : Int32
  scope : UInt8
  deriving DecidableEq, Repr

inductive RequestError where
  | prefixRange (pl : ℤ) (cidr : String)
  | prefixText (cidr : String)
  | inetPton (addrStr : String)
  | gateway (gateway : String)
  | ifNametoindex (interfaceName : String)
  | overflow (rta : String)
  deriving DecidableEq, Repr

def RequestError.message (strerror : String) : RequestError → String
  | .prefixRange pl cidr => "prefix length " ++ toString pl ++ " out of range in '" ++ cidr ++ "'"
  | .prefixText cidr => "cannot parse prefix length in '" ++ cidr ++ "'"
  | .inetPton addrStr => "inet_pton('" ++ addrStr ++ "') failed"
  | .gateway text => "invalid gateway address '" ++ text ++ "'"
  | .ifNametoindex interfaceName => "if_nametoindex '" ++ interfaceName ++ "': " ++ strerror
  | .overflow rta => "message buffer overflow: " ++ rta

/-- Maximum size of the transmit buffer for a single route-mutation request. -/
def kNlReqSize : ℕ := 1024

/-- A family constant as an `int`. -/
def familyInt (family : UInt8) : Int32 := family.toUInt32.toInt32

variable (libc : NetLibc)

/-- `inet_pton` into a zeroed buffer of 16 bytes. -/
def inetPtonBuf (family : Int32) (src : List Char) : Option (Block UInt8 16) :=
  if family = familyInt AF_INET then
    (inetPton (cStr src)).map fun addr => ⟨addr.items ++ List.replicate 12 0, by simp [addr.length_eq]⟩
  else if family = familyInt AF_INET6 then libc.inet_pton6 (cStr src)
  else none

/-- The longest prefix of a family. -/
def maxPfx (family : Int32) : ℕ := if family = familyInt AF_INET6 then 128 else 32

/-- The prefix length behind a slash; what `std::stoi` throws is caught. -/
def parsePrefixLen (cidr : String) (text : List Char) (family : Int32) : Except RequestError UInt8 :=
  match stoi text with
  | .error _ => .error (.prefixText cidr)
  | .ok pl =>
    if pl < 0 ∨ (maxPfx family : ℤ) < pl then .error (.prefixRange pl cidr) else .ok pl.toNat.toUInt8

/-- The address and the prefix length; without a slash, the length of a host. -/
def cidrParts (cidr : String) (family : Int32) : Except RequestError (List Char × UInt8) :=
  match cidr.toList.idxOf? '/' with
  | some slashPos => do
    let prefixLen ← parsePrefixLen cidr (cidr.toList.drop (slashPos + 1)) family
    pure (cidr.toList.take slashPos, prefixLen)
  | none => .ok (cidr.toList, (maxPfx family).toUInt8)

def parseCidr (cidr : String) (family : Int32) : Except RequestError (Block UInt8 16 × UInt8) := do
  let (addrStr, prefixLen) ← cidrParts cidr family
  match inetPtonBuf libc family addrStr with
  | none => .error (.inetPton (String.ofList addrStr))
  | some buf => .ok (buf, prefixLen)

/-- The optional gateway. -/
def requestGateway (params : RouteParams) : Except RequestError (Option (Block UInt8 16)) :=
  if params.gateway = "" then .ok none
  else
    match inetPtonBuf libc params.family params.gateway.toList with
    | none => .error (.gateway params.gateway)
    | some gwAddr => .ok (some gwAddr)

/-- The optional output interface, 0 for none. -/
def requestOif (params : RouteParams) : Except RequestError UInt32 :=
  if params.interfaceName = "" then .ok 0
  else
    let idx := libc.if_nametoindex (String.ofList (cStr params.interfaceName.toList))
    if idx = 0 then .error (.ifNametoindex params.interfaceName) else .ok idx

/-- Adds an attribute, if there is one to add. -/
def putAttr (name : String) (rta : Option RtAttr) (nlh : NlMsg) : Except RequestError NlMsg :=
  match rta with
  | none => .ok nlh
  | some rta =>
    match addRtAttr nlh kNlReqSize rta with
    | none => .error (.overflow name)
    | some nlh => .ok nlh

/-- Automatically promotes scope to LINK for on-link (no-gateway) routes. -/
def requestScope (params : RouteParams) (gwAddr : Option (Block UInt8 16)) (oif : UInt32) : UInt8 :=
  if params.scope = RT_SCOPE_UNIVERSE ∧ gwAddr = none ∧ oif ≠ 0 then RT_SCOPE_LINK else params.scope

/-- The `rtmsg` of the request. -/
def requestRtm (params : RouteParams) (prefixLen scope : UInt8) : RtMsg where
  rtm_family := params.family.toUInt32.toUInt8
  rtm_dst_len := prefixLen
  rtm_src_len := 0
  rtm_tos := 0
  rtm_table := if params.table ≤ 255 then params.table.toUInt8 else RT_TABLE_COMPAT
  rtm_protocol := params.protocol
  rtm_scope := scope
  rtm_type := params.type
  rtm_flags := 0

/-- The request before its attributes. -/
def requestHeader (mySeq : UInt32) (params : RouteParams) (nlType flags : UInt16) (prefixLen scope : UInt8) :
    NlMsg where
  nlmsg_type := nlType
  nlmsg_flags := NLM_F_REQUEST ||| NLM_F_ACK ||| flags
  nlmsg_seq := mySeq
  payload := (requestRtm params prefixLen scope).bytes

def addrLen (family : Int32) : ℕ := if family = familyInt AF_INET6 then 16 else 4

/-- The message that `sendRouteRequest` hands to `send`. -/
def sendRouteRequest (mySeq : UInt32) (params : RouteParams) (nlType flags : UInt16) :
    Except RequestError NlMsg := do
  let (dstAddr, prefixLen) ← parseCidr libc params.destination params.family
  let gwAddr ← requestGateway libc params
  let oif ← requestOif libc params
  let scope := requestScope params gwAddr oif
  let nlh := requestHeader mySeq params nlType flags prefixLen scope
  let addrLen := addrLen params.family
  let nlh ← putAttr "RTA_DST" (some (addrAttr RTA_DST dstAddr addrLen)) nlh
  let nlh ← putAttr "RTA_GATEWAY" (gwAddr.map fun gwAddr => addrAttr RTA_GATEWAY gwAddr addrLen) nlh
  let nlh ← putAttr "RTA_OIF" (u32AttrIf (oif ≠ 0) RTA_OIF oif) nlh
  let nlh ← putAttr "RTA_PRIORITY" (u32AttrIf (params.metric ≠ 0) RTA_PRIORITY params.metric) nlh
  putAttr "RTA_TABLE" (u32AttrIf (255 < params.table) RTA_TABLE params.table) nlh

/-! ### The handler of `listRoutes` -/

/-- The routes that the handler pushes for the message at `nlh`. -/
def listRoutesHandler (libc : Libc) (table : UInt32) (nlh : List UInt8) : Access (List KernelRoute) := do
  let hdr ← nlmsghdr nlh
  if hdr.nlmsg_type ≠ RTM_NEWROUTE then pure []
  else do
    let msg ← rtMessage hdr nlh
    msg.listRoutes libc table

/-! ### What is built -/

/-- The message with more attributes, each padded. -/
def NlMsg.withAttrs (nlh : NlMsg) (attrs : List RtAttr) : NlMsg :=
  { nlh with payload := nlh.payload ++ attrs.flatMap RtAttr.bytes }

theorem addRtAttr_aligned {nlh : NlMsg} {maxLen : ℕ} {rta : RtAttr} (h4 : nlh.nlmsg_len % 4 = 0)
    (hroom : nlh.nlmsg_len + align4 rta.rta_len ≤ maxLen) :
    addRtAttr nlh maxLen rta = some (nlh.withAttrs [rta]) := by
  have halign : align4 nlh.nlmsg_len = nlh.nlmsg_len := by
    unfold align4
    omega
  rw [addRtAttr, halign, if_neg (Nat.not_lt.mpr hroom), Nat.sub_self]
  simp [NlMsg.withAttrs]

theorem withAttrs_append (nlh : NlMsg) (attrs attrs' : List RtAttr) :
    (nlh.withAttrs attrs).withAttrs attrs' = nlh.withAttrs (attrs ++ attrs') := by
  simp [NlMsg.withAttrs]

/-- There is room for `n` more attributes of at most 20 bytes. -/
def NlMsg.Room (n : ℕ) (nlh : NlMsg) : Prop := nlh.nlmsg_len % 4 = 0 ∧ nlh.nlmsg_len + 20 * n ≤ kNlReqSize

/-- An attribute that finds room is added, and takes the room of one. -/
theorem putAttr_room {n : ℕ} {nlh : NlMsg} (hroom : nlh.Room (n + 1)) {rta : Option RtAttr}
    (hrta : ∀ a ∈ rta, a.rta_len ≤ 20) (name : String) :
    putAttr name rta nlh = .ok (nlh.withAttrs rta.toList) ∧ (nlh.withAttrs rta.toList).Room n := by
  obtain ⟨h4, hroom⟩ := hroom
  cases rta with
  | none =>
    have hsame : nlh.withAttrs (none : Option RtAttr).toList = nlh := by simp [NlMsg.withAttrs]
    rw [hsame]
    exact ⟨rfl, h4, by omega⟩
  | some a =>
    have hlen : (nlh.withAttrs [a]).nlmsg_len = nlh.nlmsg_len + align4 a.rta_len := by
      simp [NlMsg.nlmsg_len, NlMsg.withAttrs, rta_bytes_length, Nat.add_assoc]
    have ha : align4 a.rta_len ≤ 20 ∧ align4 a.rta_len % 4 = 0 := by
      have hle := hrta a rfl
      unfold align4
      omega
    rw [putAttr, addRtAttr_aligned h4 (by omega)]
    refine ⟨rfl, ?_, ?_⟩
    · show (nlh.withAttrs [a]).nlmsg_len % 4 = 0
      omega
    · show (nlh.withAttrs [a]).nlmsg_len + _ ≤ _
      omega

theorem u32AttrIf_len (given : Prop) [Decidable given] (rta_type : UInt16) (v : UInt32) :
    ∀ a ∈ u32AttrIf given rta_type v, a.rta_len ≤ 20 := by
  intro a ha
  unfold u32AttrIf at ha
  split_ifs at ha
  · obtain rfl := Option.some.inj ha
    show 8 ≤ 20
    decide
  · cases ha

theorem addrAttr_len (rta_type : UInt16) (addr : Block UInt8 16) (alen : ℕ) :
    (addrAttr rta_type addr alen).rta_len ≤ 20 :=
  Nat.add_le_add_right ((List.length_take_le' _ _).trans addr.length_eq.le) 4

/-- The attributes of a request in the order in which they are added. -/
def requestAttrs (dst : RtAttr) (gateway : Option RtAttr) (oif metric table : UInt32) : List RtAttr :=
  [dst] ++ gateway.toList ++ (u32AttrIf (oif ≠ 0) RTA_OIF oif).toList ++
    (u32AttrIf (metric ≠ 0) RTA_PRIORITY metric).toList ++
    (u32AttrIf (255 < table) RTA_TABLE table).toList

/-- The five attributes find room. -/
theorem putAttr_requestAttrs {nlh : NlMsg} (hroom : nlh.Room 5) {dst : RtAttr} {gateway : Option RtAttr}
    (hdst : dst.rta_len ≤ 20) (hgateway : ∀ a ∈ gateway, a.rta_len ≤ 20) (oif metric table : UInt32) :
    (do
      let nlh ← putAttr "RTA_DST" (some dst) nlh
      let nlh ← putAttr "RTA_GATEWAY" gateway nlh
      let nlh ← putAttr "RTA_OIF" (u32AttrIf (oif ≠ 0) RTA_OIF oif) nlh
      let nlh ← putAttr "RTA_PRIORITY" (u32AttrIf (metric ≠ 0) RTA_PRIORITY metric) nlh
      putAttr "RTA_TABLE" (u32AttrIf (255 < table) RTA_TABLE table) nlh) =
    .ok (nlh.withAttrs (requestAttrs dst gateway oif metric table)) ∧
    (nlh.withAttrs (requestAttrs dst gateway oif metric table)).nlmsg_len ≤ kNlReqSize := by
  obtain ⟨hput, hroom⟩ := putAttr_room hroom (fun a ha => Option.some.inj ha ▸ hdst) "RTA_DST"
  rw [hput, ok_bind]
  obtain ⟨hput, hroom⟩ := putAttr_room hroom hgateway "RTA_GATEWAY"
  rw [hput, ok_bind]
  obtain ⟨hput, hroom⟩ := putAttr_room hroom (u32AttrIf_len (oif ≠ 0) RTA_OIF oif) "RTA_OIF"
  rw [hput, ok_bind]
  obtain ⟨hput, hroom⟩ := putAttr_room hroom (u32AttrIf_len (metric ≠ 0) RTA_PRIORITY metric) "RTA_PRIORITY"
  rw [hput, ok_bind]
  obtain ⟨hput, -, hfits⟩ := putAttr_room hroom (u32AttrIf_len (255 < table) RTA_TABLE table) "RTA_TABLE"
  rw [hput]
  simp only [withAttrs_append] at hfits ⊢
  exact ⟨rfl, hfits⟩

/-! ### What is read -/

/-- The message that is read from the bytes of a request. -/
def NlMsg.rtMessage (nlh : NlMsg) (rtm : RtMsg) (attrs : List RtAttr) : RtMessage where
  nlmsg_type := nlh.nlmsg_type
  nlmsg_flags := nlh.nlmsg_flags
  rtm_family := rtm.rtm_family
  rtm_dst_len := rtm.rtm_dst_len
  rtm_tos := rtm.rtm_tos
  rtm_table := rtm.rtm_table
  rtm_protocol := rtm.rtm_protocol
  rtm_scope := rtm.rtm_scope
  rtm_type := rtm.rtm_type
  rtm_flags := rtm.rtm_flags
  attrs := attrs.flatMap RtAttr.bytes

/-- The header that is read from the bytes of a request. -/
def NlMsg.hdr (nlh : NlMsg) : NlMsgHdr := ⟨nlh.nlmsg_len.toUInt32, nlh.nlmsg_type, nlh.nlmsg_flags⟩

theorem nlmsghdr_bytes (nlh : NlMsg) : nlmsghdr nlh.bytes = .ok nlh.hdr := by
  unfold NlMsg.bytes NlMsg.hdr
  generalize nlh.nlmsg_len.toUInt32 = len
  simp [hostU32, hostU16, writeBe32, writeBe16, nlmsghdr, joinBe32_write, joinBe16_write]

theorem NlMsg.bytes_length (nlh : NlMsg) : nlh.bytes.length = nlh.nlmsg_len := by
  simp [NlMsg.bytes, NlMsg.nlmsg_len, hostU32, hostU16]
  omega

theorem rtMessage_bytes {nlh : NlMsg} {rtm : RtMsg} (hbody : nlh.payload = rtm.bytes) (attrs : List RtAttr)
    (hfits : (nlh.withAttrs attrs).nlmsg_len < 2 ^ 32) :
    rtMessage (nlh.withAttrs attrs).hdr (nlh.withAttrs attrs).bytes = .ok (nlh.rtMessage rtm attrs) := by
  have hattrs : attrBytes (nlh.withAttrs attrs).hdr (nlh.withAttrs attrs).bytes 28 =
      attrs.flatMap RtAttr.bytes := by
    have hlen : (nlh.withAttrs attrs).hdr.nlmsg_len.toNat = (nlh.withAttrs attrs).bytes.length := by
      rw [NlMsg.bytes_length]
      exact UInt32.toNat_ofNat_of_lt' hfits
    rw [attrBytes, hlen, List.take_length]
    simp [NlMsg.bytes, NlMsg.withAttrs, hbody, RtMsg.bytes, hostU32, hostU16, writeBe32, writeBe16]
  rw [rtMessage, hattrs]
  simp [NlMsg.bytes, NlMsg.withAttrs, hbody, RtMsg.bytes, hostU32, hostU16, writeBe32, writeBe16, byteAt,
    u32At, joinBe32_write, NlMsg.rtMessage, NlMsg.hdr, ok_bind]

/-- A word in host order is the word that its bytes join to. -/
theorem wordU32_join (b0 b1 b2 b3 : UInt8) : wordU32 (ipv4 b0 b1 b2 b3) = joinBe32 b3 b2 b1 b0 := by
  have h16 : ∀ x : UInt32, x <<< 8 <<< 8 = x <<< 16 := fun x => by
    rw [← UInt32.shiftLeft_add (by decide) (by decide) (by decide)]
    rfl
  have h24 : ∀ x : UInt32, x <<< 16 <<< 8 = x <<< 24 := fun x => by
    rw [← UInt32.shiftLeft_add (by decide) (by decide) (by decide)]
    rfl
  simp [wordU32, ipv4, joinBe32, UInt32.shiftLeft_or, h16, h24]

theorem word_items (b : Block UInt8 4) : word b.items = .ok b := by
  obtain ⟨p, q, r, s, rfl⟩ := items_eq_ipv4 b
  rfl

theorem word_u32Attr (rta_type : UInt16) (v : UInt32) :
    wordU32 <$> word (u32Attr rta_type v).data = .ok v := by
  have hword : word (u32Attr rta_type v).data = .ok ⟨hostU32 v, rfl⟩ := word_items ⟨hostU32 v, rfl⟩
  rw [hword]
  exact congrArg Except.ok ((wordU32_join _ _ _ _).trans (joinBe32_write v))

section Handler

variable {libc : Libc}

theorem listAttr_oif (l : ListLocals) (v : UInt32) : listAttr libc l (u32Attr RTA_OIF v) =
    .ok { l with route.interfaceIndex := v, route.interfaceName := ifIndexToName libc v } := by
  show (wordU32 <$> word (u32Attr RTA_OIF v).data >>= _) = _
  rw [word_u32Attr]
  rfl

theorem listAttr_priority (l : ListLocals) (v : UInt32) :
    listAttr libc l (u32Attr RTA_PRIORITY v) = .ok { l with route.metric := v } := by
  show (wordU32 <$> word (u32Attr RTA_PRIORITY v).data >>= _) = _
  rw [word_u32Attr]
  rfl

theorem listAttr_table (l : ListLocals) (v : UInt32) :
    listAttr libc l (u32Attr RTA_TABLE v) = .ok { l with route.table := v } := by
  show (wordU32 <$> word (u32Attr RTA_TABLE v).data >>= _) = _
  rw [word_u32Attr]
  rfl

/-- A word that is left out when the locals have it already is there in any case. -/
theorem foldlM_u32AttrIf {given : Prop} [Decidable given] {rta_type : UInt16} {v : UInt32}
    {l l' : ListLocals} (hattr : given → listAttr libc l (u32Attr rta_type v) = .ok l')
    (hskip : ¬given → l = l') :
    (u32AttrIf given rta_type v).toList.foldlM (listAttr libc) l = .ok l' := by
  unfold u32AttrIf
  split_ifs with h
  · rw [Option.toList_some, List.foldlM_cons, hattr h]
    rfl
  · rw [hskip h]
    rfl

theorem foldlM_append_ok {α β : Type} {f : β → α → Access β} {as bs : List α} {s t u : β}
    (has : as.foldlM f s = .ok t) (hbs : bs.foldlM f t = .ok u) : (as ++ bs).foldlM f s = .ok u := by
  rw [List.foldlM_append, has, ok_bind, hbs]

theorem listAttr_dst (l : ListLocals) {a : RtAttr} (htype : a.rta_type = RTA_DST) {text : String}
    (htext : addrToString libc a.data l.route.family = .ok text) :
    listAttr libc l a = .ok { l with
      route.destination := text ++ "/" ++ toString l.route.prefixLen.toNat, hasDst := true } := by
  rw [listAttr, if_pos htype, htext]
  rfl

theorem listAttr_gateway (l : ListLocals) {a : RtAttr} (htype : a.rta_type = RTA_GATEWAY) {text : String}
    (htext : addrToString libc a.data l.route.family = .ok text) :
    listAttr libc l a = .ok { l with route.gateway := text } := by
  have hne : RTA_GATEWAY ≠ RTA_DST := by decide
  rw [listAttr, htype, if_neg hne, if_pos rfl, htext]
  rfl

/-- The attribute of the gateway, if it is there, fills the field. -/
theorem foldlM_gateway {l : ListLocals} {gateway : Option RtAttr} {gwText : String}
    (hgateway : ∀ a ∈ gateway, a.rta_type = RTA_GATEWAY ∧
      addrToString libc a.data l.route.family = .ok gwText)
    (hnone : gateway = none → l.route.gateway = gwText) :
    gateway.toList.foldlM (listAttr libc) l = .ok { l with route.gateway := gwText } := by
  cases gateway with
  | none =>
    have hl : l = { l with route.gateway := gwText } := by rw [← hnone rfl]
    exact congrArg Except.ok hl
  | some a =>
    obtain ⟨htype, htext⟩ := hgateway a rfl
    rw [Option.toList_some, List.foldlM_cons, listAttr_gateway l htype htext]
    rfl

/-- The locals after the attributes of a request. -/
def ListLocals.after (l : ListLocals) (libc : Libc) (dst gateway : String) (oif metric table : UInt32) :
    ListLocals where
  route := { l.route with
    destination := dst ++ "/" ++ toString l.route.prefixLen.toNat
    gateway := gateway
    interfaceIndex := oif
    interfaceName := if oif = 0 then "" else ifIndexToName libc oif
    metric := metric
    table := table }
  hasDst := true
  nexthops := l.nexthops

/-- The attributes of a request fill the locals, whichever of them are there. -/
theorem foldlM_requestAttrs {l : ListLocals} {dst : RtAttr} {gateway : Option RtAttr}
    {dstText gwText : String} {oif metric table : UInt32} (hdst : dst.rta_type = RTA_DST)
    (hdstText : addrToString libc dst.data l.route.family = .ok dstText)
    (hgateway : ∀ a ∈ gateway, a.rta_type = RTA_GATEWAY ∧
      addrToString libc a.data l.route.family = .ok gwText)
    (hnone : gateway = none → l.route.gateway = gwText) (hindex : l.route.interfaceIndex = 0)
    (hname : l.route.interfaceName = "") (hmetric : l.route.metric = 0)
    (htable : ¬255 < table → l.route.table = table) :
    (requestAttrs dst gateway oif metric table).foldlM (listAttr libc) l =
      .ok (l.after libc dstText gwText oif metric table) := by
  let l1 : ListLocals := { l with
    route.destination := dstText ++ "/" ++ toString l.route.prefixLen.toNat, hasDst := true }
  let l2 : ListLocals := { l1 with route.gateway := gwText }
  let l3 : ListLocals := { l2 with
    route.interfaceIndex := oif, route.interfaceName := if oif = 0 then "" else ifIndexToName libc oif }
  let l4 : ListLocals := { l3 with route.metric := metric }
  have h1 : [dst].foldlM (listAttr libc) l = .ok l1 := by
    rw [List.foldlM_cons, listAttr_dst l hdst hdstText]
    rfl
  have h3 : (u32AttrIf (oif ≠ 0) RTA_OIF oif).toList.foldlM (listAttr libc) l2 = .ok l3 := by
    refine foldlM_u32AttrIf (fun hoif => ?_) fun hoif => ?_
    · rw [listAttr_oif]
      simp only [l3, if_neg hoif]
    · obtain rfl := not_not.mp hoif
      simp only [l3, l2, l1, if_pos, ← hindex, ← hname]
  have h4 : (u32AttrIf (metric ≠ 0) RTA_PRIORITY metric).toList.foldlM (listAttr libc) l3 = .ok l4 := by
    refine foldlM_u32AttrIf (fun _ => listAttr_priority _ _) fun hzero => ?_
    obtain rfl := not_not.mp hzero
    simp only [l4, l3, l2, l1, ← hmetric]
  refine foldlM_append_ok (foldlM_append_ok (foldlM_append_ok (foldlM_append_ok h1
    (foldlM_gateway (l := l1) hgateway hnone)) h3) h4) ?_
  refine foldlM_u32AttrIf (fun _ => listAttr_table _ _) fun hsmall => ?_
  simp only [ListLocals.after, ← htable hsmall]
  rfl

end Handler

/-! ### The texts of addresses and names -/

/-- What the client relies on of the C library: the name of an index that a name has is that name, and
`inet_pton` reads the texts of `inet_ntop`, in which there is no slash and no zero. -/
structure NetLibc.Inverse (libc : NetLibc) : Prop where
  name : ∀ name, libc.if_nametoindex name ≠ 0 → libc.if_indextoname (libc.if_nametoindex name) = some name
  address : ∀ addr, libc.inet_pton6 (libc.inet_ntop6 addr).toList = some addr
  text : ∀ addr, '/' ∉ (libc.inet_ntop6 addr).toList ∧ Char.ofNat 0 ∉ (libc.inet_ntop6 addr).toList

variable {libc}

theorem inetPtonBuf_family {family : Int32} {src : List Char} {buf : Block UInt8 16}
    (h : inetPtonBuf libc family src = some buf) :
    family = familyInt AF_INET ∨ family = familyInt AF_INET6 := by
  unfold inetPtonBuf at h
  by_cases h4 : family = familyInt AF_INET
  · exact .inl h4
  · by_cases h6 : family = familyInt AF_INET6
    · exact .inr h6
    · rw [if_neg h4, if_neg h6] at h
      cases h

/-- What `inet_pton` has read is written as a text that it reads as the same. -/
theorem inetPtonBuf_text (hlibc : libc.Inverse) (rta_type : UInt16) {family : Int32} {src : List Char}
    {buf : Block UInt8 16} (h : inetPtonBuf libc family src = some buf) :
    ∃ text : String,
      addrToString libc.toLibc (addrAttr rta_type buf (addrLen family)).data
        family.toUInt32.toUInt8 = .ok text ∧
      inetPtonBuf libc family text.toList = some buf ∧ '/' ∉ text.toList := by
  rcases inetPtonBuf_family h with rfl | rfl
  · have hne : familyInt AF_INET ≠ familyInt AF_INET6 := by decide
    rw [inetPtonBuf, if_pos rfl] at h
    obtain ⟨addr, -, rfl⟩ := Option.map_eq_some_iff.mp h
    have hdata : (addrAttr rta_type ⟨addr.items ++ List.replicate 12 0, by simp [addr.length_eq]⟩ 4).data =
        addr.items := List.take_left' addr.length_eq
    refine ⟨inetNtop addr, ?_, ?_, slash_not_mem_inetNtop addr⟩
    · rw [addrLen, if_neg hne, hdata, addrToString, if_pos (by decide), word_items]
      rfl
    · rw [inetPtonBuf, if_pos rfl, cStr_inetNtop, inetPton_inetNtop]
      rfl
  · have hne : familyInt AF_INET6 ≠ familyInt AF_INET := by decide
    have hdata : (addrAttr rta_type buf 16).data = buf.items := List.take_of_length_le buf.length_eq.le
    refine ⟨libc.inet_ntop6 buf, ?_, ?_, (hlibc.text buf).1⟩
    · rw [addrLen, if_pos rfl, hdata, addrToString, if_neg (by decide), if_pos (by decide), Reader.block,
        dif_pos buf.length_eq.ge]
      exact congrArg (fun b => Except.ok (libc.inet_ntop6 b))
        (Block.ext_items (List.take_of_length_le buf.length_eq.le))
    · rw [inetPtonBuf, if_neg hne, if_pos rfl, cStr_eq_self (hlibc.text buf).2]
      exact hlibc.address buf

theorem maxPfx_le (family : Int32) : maxPfx family ≤ 128 := by
  unfold maxPfx
  split_ifs <;> decide

/-- The number behind the slash, with all that is skipped. -/
theorem parsePrefixLen_ok {cidr : String} {text : List Char} {family : Int32} {prefixLen : UInt8} :
    parsePrefixLen cidr text family = .ok prefixLen ↔ ∃ blanks sign ds rest,
      Numeral text blanks sign ds rest ∧ signedValue sign ds ≤ maxPfx family ∧
        (prefixLen.toNat : ℤ) = signedValue sign ds := by
  have hmax := maxPfx_le family
  unfold parsePrefixLen
  constructor
  · intro h
    split at h
    case h_1 => cases h
    case h_2 pl hread =>
      obtain ⟨blanks, sign, ds, rest, hnum, rfl, -, -⟩ := stoi_ok.mp hread
      split_ifs at h with hrange
      obtain rfl := Except.ok.inj h
      have hnat := toNat_toUInt8 (n := (signedValue sign ds).toNat) (by omega)
      exact ⟨blanks, sign, ds, rest, hnum, by omega, by omega⟩
  · rintro ⟨blanks, sign, ds, rest, hnum, hle, hvalue⟩
    have hread : stoi text = .ok (signedValue sign ds) :=
      stoi_ok.mpr ⟨blanks, sign, ds, rest, hnum, rfl, by omega, by omega⟩
    rw [hread]
    dsimp only
    rw [if_neg (by omega), ← hvalue]
    simp

/-- A text is cut at its first slash. -/
theorem cidrParts_slash {cidr : String} {a b : List Char} (hcut : cidr.toList = a ++ '/' :: b) (ha : '/' ∉ a)
    (family : Int32) :
    cidrParts cidr family = (fun prefixLen => (a, prefixLen)) <$> parsePrefixLen cidr b family := by
  rw [cidrParts, hcut, idxOf?_append ha]
  dsimp only
  rw [drop_behind, List.take_left]
  rfl

/-- `parseCidr` succeeds where both parts do. -/
theorem parseCidr_parts {cidr : String} {family : Int32} {buf : Block UInt8 16} {prefixLen : UInt8} :
    parseCidr libc cidr family = .ok (buf, prefixLen) ↔
      ∃ addrStr, cidrParts cidr family = .ok (addrStr, prefixLen) ∧
        inetPtonBuf libc family addrStr = some buf := by
  unfold parseCidr
  rw [except_bind_ok]
  constructor
  · rintro ⟨⟨addrStr, len⟩, hparts, hread⟩
    dsimp only at hread
    split at hread
    case h_1 => cases hread
    case h_2 buf' hbuf =>
      obtain ⟨rfl, rfl⟩ := Prod.mk.inj (Except.ok.inj hread)
      exact ⟨addrStr, hparts, hbuf⟩
  · rintro ⟨addrStr, hparts, hbuf⟩
    refine ⟨(addrStr, prefixLen), hparts, ?_⟩
    dsimp only
    rw [hbuf]

/-- A length that fits a byte is given by its number. -/
theorem toUInt8_maxPfx (family : Int32) (prefixLen : UInt8) :
    (maxPfx family).toUInt8 = prefixLen ↔ prefixLen.toNat = maxPfx family := by
  have hmax := maxPfx_le family
  have hnat := toNat_toUInt8 (n := maxPfx family) (by omega)
  rw [← UInt8.toNat_inj, hnat, eq_comm]

theorem parseCidr_bare {cidr : String} (h : '/' ∉ cidr.toList) {family : Int32} {buf : Block UInt8 16}
    {prefixLen : UInt8} : parseCidr libc cidr family = .ok (buf, prefixLen) ↔
      inetPtonBuf libc family cidr.toList = some buf ∧ prefixLen.toNat = maxPfx family := by
  have hparts : cidrParts cidr family = .ok (cidr.toList, (maxPfx family).toUInt8) := by
    rw [cidrParts, List.idxOf?_eq_none_iff.mpr h]
  rw [parseCidr_parts, hparts, ← toUInt8_maxPfx]
  constructor
  · rintro ⟨addrStr, hsame, hbuf⟩
    obtain ⟨rfl, rfl⟩ := Prod.mk.inj (Except.ok.inj hsame)
    exact ⟨hbuf, rfl⟩
  · rintro ⟨hbuf, rfl⟩
    exact ⟨_, rfl, hbuf⟩

theorem parseCidr_slash {cidr : String} {a b : List Char} (hcut : cidr.toList = a ++ '/' :: b) (ha : '/' ∉ a)
    {family : Int32} {buf : Block UInt8 16} {prefixLen : UInt8} :
    parseCidr libc cidr family = .ok (buf, prefixLen) ↔
      inetPtonBuf libc family a = some buf ∧ parsePrefixLen cidr b family = .ok prefixLen := by
  rw [parseCidr_parts, cidrParts_slash hcut ha]
  constructor
  · rintro ⟨addrStr, hparts, hbuf⟩
    obtain ⟨len, hlen, hsame⟩ := except_map_ok.mp hparts
    obtain ⟨rfl, rfl⟩ := Prod.mk.inj hsame
    exact ⟨hbuf, hlen⟩
  · rintro ⟨hbuf, hlen⟩
    exact ⟨a, except_map_ok.mpr ⟨prefixLen, hlen, rfl⟩, hbuf⟩

/-- What `parseCidr` has read: a length that the family has, and an address. -/
theorem parseCidr_ok {cidr : String} {family : Int32} {buf : Block UInt8 16} {prefixLen : UInt8}
    (h : parseCidr libc cidr family = .ok (buf, prefixLen)) :
    prefixLen.toNat ≤ maxPfx family ∧ ∃ src, inetPtonBuf libc family src = some buf := by
  by_cases hslash : '/' ∈ cidr.toList
  · obtain ⟨a, b, hcut, ha⟩ := List.eq_append_cons_of_mem hslash
    obtain ⟨hbuf, hlen⟩ := (parseCidr_slash hcut ha).mp h
    obtain ⟨_, sign, ds, _, -, hle, hvalue⟩ := parsePrefixLen_ok.mp hlen
    exact ⟨by omega, a, hbuf⟩
  · obtain ⟨hbuf, hlen⟩ := (parseCidr_bare hslash).mp h
    exact ⟨hlen.le, cidr.toList, hbuf⟩

/-- The text of a destination is read as that destination. -/
theorem parseCidr_text {text : String} {family : Int32} {buf : Block UInt8 16} {prefixLen : UInt8}
    (hlen : prefixLen.toNat ≤ maxPfx family) (hslash : '/' ∉ text.toList)
    (hbuf : inetPtonBuf libc family text.toList = some buf) :
    parseCidr libc (text ++ "/" ++ toString prefixLen.toNat) family = .ok (buf, prefixLen) := by
  have hcut : (text ++ "/" ++ toString prefixLen.toNat).toList =
      text.toList ++ '/' :: Nat.toDigits 10 prefixLen.toNat := by simp
  have hvalue : signedValue none (Nat.toDigits 10 prefixLen.toNat) = prefixLen.toNat := by
    rw [signedValue, if_neg (by simp), decimalValue, Nat.ofDigitChars_ten_toDigits]
  have hnum := numeral_decimal (isDecimal_toDigits prefixLen.toNat)
  exact (parseCidr_slash hcut hslash).mpr
    ⟨hbuf, parsePrefixLen_ok.mpr ⟨[], none, _, [], hnum, by omega, hvalue.symm⟩⟩

/-! ### The round trip -/

/-- The error is a buffer overflow. -/
def RequestError.Overflow (e : RequestError) : Prop := ∃ rta, e = .overflow rta

theorem parsePrefixLen_error {cidr : String} {text : List Char} {family : Int32} {e : RequestError}
    (h : parsePrefixLen cidr text family = .error e) : ¬e.Overflow := by
  rintro ⟨rta, rfl⟩
  unfold parsePrefixLen at h
  split at h
  · cases h
  · split_ifs at h
    cases h

theorem parseCidr_error {cidr : String} {family : Int32} {e : RequestError}
    (h : parseCidr libc cidr family = .error e) : ¬e.Overflow := by
  unfold parseCidr at h
  cases hparts : cidrParts cidr family with
  | error e' =>
    rw [hparts] at h
    obtain rfl := Except.error.inj h
    unfold cidrParts at hparts
    split at hparts
    case h_1 slashPos _ =>
      cases hlen : parsePrefixLen cidr (cidr.toList.drop (slashPos + 1)) family with
      | error e'' =>
        rw [hlen] at hparts
        obtain rfl := Except.error.inj hparts
        exact parsePrefixLen_error hlen
      | ok len =>
        rw [hlen] at hparts
        cases hparts
    case h_2 => cases hparts
  | ok parts =>
    obtain ⟨addrStr, prefixLen⟩ := parts
    rw [hparts, ok_bind] at h
    dsimp only at h
    rintro ⟨rta, rfl⟩
    split at h
    · cases h
    · cases h

theorem requestGateway_error {params : RouteParams} {e : RequestError}
    (h : requestGateway libc params = .error e) : ¬e.Overflow := by
  rintro ⟨rta, rfl⟩
  unfold requestGateway at h
  split_ifs at h
  split at h
  · cases h
  · cases h

theorem requestOif_error {params : RouteParams} {e : RequestError}
    (h : requestOif libc params = .error e) : ¬e.Overflow := by
  rintro ⟨rta, rfl⟩
  unfold requestOif at h
  dsimp only at h
  split_ifs at h
  cases h

/-- The message that is built from what the texts of the parameters come to. -/
def requestMessage (mySeq : UInt32) (params : RouteParams) (nlType flags : UInt16) (dstAddr : Block UInt8 16)
    (prefixLen : UInt8) (gwAddr : Option (Block UInt8 16)) (oif : UInt32) : NlMsg :=
  (requestHeader mySeq params nlType flags prefixLen (requestScope params gwAddr oif)).withAttrs
    (requestAttrs (addrAttr RTA_DST dstAddr (addrLen params.family))
      (gwAddr.map fun gwAddr => addrAttr RTA_GATEWAY gwAddr (addrLen params.family)) oif params.metric
      params.table)

variable (libc) in
/-- A request fails where one of its texts cannot be read, or it is built with all its attributes. -/
theorem sendRouteRequest_cases (mySeq : UInt32) (params : RouteParams) (nlType flags : UInt16) :
    (∃ e, ¬e.Overflow ∧ sendRouteRequest libc mySeq params nlType flags = .error e) ∨
    ∃ dstAddr prefixLen gwAddr oif,
      parseCidr libc params.destination params.family = .ok (dstAddr, prefixLen) ∧
      requestGateway libc params = .ok gwAddr ∧ requestOif libc params = .ok oif ∧
      sendRouteRequest libc mySeq params nlType flags =
        .ok (requestMessage mySeq params nlType flags dstAddr prefixLen gwAddr oif) ∧
      (requestMessage mySeq params nlType flags dstAddr prefixLen gwAddr oif).nlmsg_len ≤ kNlReqSize := by
  unfold sendRouteRequest
  cases hcidr : parseCidr libc params.destination params.family with
  | error e => exact .inl ⟨e, parseCidr_error hcidr, rfl⟩
  | ok cidr =>
    obtain ⟨dstAddr, prefixLen⟩ := cidr
    rw [ok_bind]
    cases hgw : requestGateway libc params with
    | error e => exact .inl ⟨e, requestGateway_error hgw, rfl⟩
    | ok gwAddr =>
      dsimp only
      rw [ok_bind]
      cases hoif : requestOif libc params with
      | error e => exact .inl ⟨e, requestOif_error hoif, rfl⟩
      | ok oif =>
        refine .inr ⟨dstAddr, prefixLen, gwAddr, oif, rfl, rfl, rfl, ?_⟩
        have hlen : (requestHeader mySeq params nlType flags prefixLen
            (requestScope params gwAddr oif)).nlmsg_len = 28 := rfl
        have hroom : NlMsg.Room 5 (requestHeader mySeq params nlType flags prefixLen
            (requestScope params gwAddr oif)) := by
          rw [NlMsg.Room, hlen]
          decide
        refine putAttr_requestAttrs hroom (addrAttr_len _ _ _) (fun a ha => ?_) oif params.metric params.table
        obtain ⟨gwAddr, -, rfl⟩ := Option.map_eq_some_iff.mp ha
        exact addrAttr_len _ _ _

/-- The route of the kernel is the one that the parameters ask for, in link scope for a route without
gateway. -/
structure RouteParams.AskFor (libc : NetLibc) (params : RouteParams) (route : KernelRoute) : Prop where
  family : familyInt route.family = params.family
  destination : parseCidr libc route.destination params.family =
    parseCidr libc params.destination params.family
  prefixLen : Prod.snd <$> parseCidr libc params.destination params.family = .ok route.prefixLen
  gateway : if params.gateway = "" then route.gateway = ""
    else ∃ addr, inetPtonBuf libc params.family route.gateway.toList = some addr ∧
      inetPtonBuf libc params.family params.gateway.toList = some addr
  interface : if params.interfaceName = "" then route.interfaceIndex = 0 ∧ route.interfaceName = ""
    else route.interfaceIndex ≠ 0 ∧ libc.if_nametoindex route.interfaceName = route.interfaceIndex ∧
      route.interfaceName = String.ofList (cStr params.interfaceName.toList)
  metric : route.metric = params.metric
  table : route.table = params.table
  protocol : route.protocol = params.protocol
  type : route.type = params.type
  scope : route.scope =
    if params.interfaceName ≠ "" ∧ params.gateway = "" ∧ params.scope = RT_SCOPE_UNIVERSE then RT_SCOPE_LINK
    else params.scope

/-- A route of table `own` passes the filter for `table`. -/
def filtered {ρ : Type} (table own : UInt32) (route : ρ) : List ρ :=
  if table = RT_TABLE_UNSPEC ∨ table = own then [route] else []

/-- The locals of the handler before the attributes. -/
def RtMsg.locals (rtm : RtMsg) : ListLocals where
  route := {
    destination := ""
    gateway := ""
    interfaceName := ""
    interfaceIndex := 0
    metric := 0
    prefixLen := rtm.rtm_dst_len
    protocol := rtm.rtm_protocol
    type := rtm.rtm_type
    table := rtm.rtm_table.toUInt32
    scope := rtm.rtm_scope
    family := rtm.rtm_family }
  hasDst := false
  nexthops := []

/-- The handler on a message that was built. -/
theorem listRoutesHandler_bytes {libc : Libc} {nlh : NlMsg} {rtm : RtMsg} {attrs : List RtAttr}
    {l : ListLocals} (htype : nlh.nlmsg_type = RTM_NEWROUTE) (hbody : nlh.payload = rtm.bytes)
    (hfits : (nlh.withAttrs attrs).nlmsg_len < 2 ^ 32)
    (hattrs : attrs.foldlM (listAttr libc) rtm.locals = .ok l) (table : UInt32) :
    listRoutesHandler libc table (nlh.withAttrs attrs).bytes = .ok (l.routes libc table) := by
  have hhdr : (nlh.withAttrs attrs).hdr.nlmsg_type = RTM_NEWROUTE := htype
  have hmsg : (nlh.rtMessage rtm attrs).nlmsg_type = RTM_NEWROUTE := htype
  rw [listRoutesHandler, nlmsghdr_bytes, ok_bind, if_neg (not_not.mpr hhdr),
    rtMessage_bytes hbody attrs hfits, ok_bind, RtMessage.listRoutes, if_neg (not_not.mpr hmsg)]
  show (visits rtaNext (attrs.flatMap RtAttr.bytes) >>= _) = _
  rw [visits_rtaNext, ok_bind]
  show (attrs.foldlM (listAttr libc) rtm.locals >>= _) = _
  rw [hattrs]
  rfl

theorem after_routes {libc : Libc} {l : ListLocals} (hl : l.nexthops = []) (dst gateway : String)
    (oif metric own table : UInt32) :
    (l.after libc dst gateway oif metric own).routes libc table =
      filtered table own (l.after libc dst gateway oif metric own).route := by
  rw [ListLocals.routes, filtered, ListLocals.after, hl]
  simp only [List.filter_singleton, @eq_comm _ table own]
  simp

theorem toUInt8_toUInt32 {v : UInt32} (h : v ≤ 255) : v.toUInt8.toUInt32 = v := by
  rw [UInt32.le_iff_toNat_le] at h
  have h : v.toNat ≤ 255 := h
  rw [← UInt32.toNat_inj, UInt8.toNat_toUInt32, UInt32.toNat_toUInt8]
  omega

theorem familyInt_toUInt8 {family : Int32} {src : List Char} {buf : Block UInt8 16}
    (h : inetPtonBuf libc family src = some buf) : familyInt family.toUInt32.toUInt8 = family := by
  rcases inetPtonBuf_family h with rfl | rfl
  · decide
  · decide

theorem requestGateway_ok {params : RouteParams} {gwAddr : Option (Block UInt8 16)}
    (h : requestGateway libc params = .ok gwAddr) :
    params.gateway = "" ∧ gwAddr = none ∨
      params.gateway ≠ "" ∧
        ∃ addr, gwAddr = some addr ∧ inetPtonBuf libc params.family params.gateway.toList = some addr := by
  unfold requestGateway at h
  split_ifs at h with hempty
  · exact .inl ⟨hempty, (Except.ok.inj h).symm⟩
  · split at h
    case h_1 => cases h
    case h_2 addr haddr => exact .inr ⟨hempty, addr, (Except.ok.inj h).symm, haddr⟩

theorem requestOif_ok {params : RouteParams} {oif : UInt32} (h : requestOif libc params = .ok oif) :
    params.interfaceName = "" ∧ oif = 0 ∨
      params.interfaceName ≠ "" ∧ oif ≠ 0 ∧
        libc.if_nametoindex (String.ofList (cStr params.interfaceName.toList)) = oif := by
  unfold requestOif at h
  dsimp only at h
  split_ifs at h with hempty hidx
  · exact .inl ⟨hempty, (Except.ok.inj h).symm⟩
  · obtain rfl := Except.ok.inj h
    exact .inr ⟨hempty, hidx, rfl⟩

/-- The text that a gateway is read back as, empty where there is none. -/
theorem requestGateway_text (hlibc : libc.Inverse) {params : RouteParams} {gwAddr : Option (Block UInt8 16)}
    (h : requestGateway libc params = .ok gwAddr) :
    ∃ gwText : String, (gwAddr = none → "" = gwText) ∧
      (∀ addr, gwAddr = some addr →
        addrToString libc.toLibc (addrAttr RTA_GATEWAY addr (addrLen params.family)).data
          params.family.toUInt32.toUInt8 = .ok gwText) ∧
      (if params.gateway = "" then gwText = ""
        else ∃ addr, inetPtonBuf libc params.family gwText.toList = some addr ∧
          inetPtonBuf libc params.family params.gateway.toList = some addr) := by
  rcases requestGateway_ok h with ⟨hempty, rfl⟩ | ⟨hpresent, addr, rfl, haddr⟩
  · refine ⟨"", fun _ => rfl, ?_, (if_pos hempty).mpr rfl⟩
    intro addr hsome
    cases hsome
  · obtain ⟨gwText, htext, hbuf, -⟩ := inetPtonBuf_text hlibc RTA_GATEWAY haddr
    refine ⟨gwText, ?_, ?_, (if_neg hpresent).mpr ⟨addr, hbuf, haddr⟩⟩
    · intro hnone
      cases hnone
    · intro addr' hsome
      obtain rfl := Option.some.inj hsome
      exact htext

/-- The name that an interface is read back as, empty where there is none. -/
theorem requestOif_name (hlibc : libc.Inverse) {params : RouteParams} {oif : UInt32}
    (h : requestOif libc params = .ok oif) :
    if params.interfaceName = "" then
      oif = 0 ∧ (if oif = 0 then "" else ifIndexToName libc.toLibc oif) = ""
    else oif ≠ 0 ∧
      libc.if_nametoindex (if oif = 0 then "" else ifIndexToName libc.toLibc oif) = oif ∧
      (if oif = 0 then "" else ifIndexToName libc.toLibc oif) =
        String.ofList (cStr params.interfaceName.toList) := by
  rcases requestOif_ok h with ⟨hempty, rfl⟩ | ⟨hpresent, hne, hidx⟩
  · rw [if_pos hempty]
    exact ⟨rfl, if_pos rfl⟩
  · have hback := hlibc.name _ (hidx ▸ hne)
    have hname : ifIndexToName libc.toLibc oif = String.ofList (cStr params.interfaceName.toList) := by
      rw [ifIndexToName, ← hidx, hback]
      rfl
    rw [if_neg hpresent, if_neg hne, hname]
    exact ⟨hne, hidx, rfl⟩

theorem requestScope_eq {params : RouteParams} {gwAddr : Option (Block UInt8 16)} {oif : UInt32}
    (hgw : requestGateway libc params = .ok gwAddr) (hoif : requestOif libc params = .ok oif) :
    requestScope params gwAddr oif =
      if params.interfaceName ≠ "" ∧ params.gateway = "" ∧ params.scope = RT_SCOPE_UNIVERSE then RT_SCOPE_LINK
      else params.scope := by
  have hif : oif ≠ 0 ↔ params.interfaceName ≠ "" := by
    rcases requestOif_ok hoif with ⟨hempty, rfl⟩ | ⟨hpresent, hne, -⟩
    · simp [hempty]
    · simp [hpresent, hne]
  have hgw : gwAddr = none ↔ params.gateway = "" := by
    rcases requestGateway_ok hgw with ⟨hempty, rfl⟩ | ⟨hpresent, addr, rfl, -⟩
    · simp [hempty]
    · simp [hpresent]
  refine if_congr ?_ rfl rfl
  constructor
  · rintro ⟨hscope, hnone, hindex⟩
    exact ⟨hif.mp hindex, hgw.mp hnone, hscope⟩
  · rintro ⟨hindex, hnone, hscope⟩
    exact ⟨hscope, hgw.mpr hnone, hif.mpr hindex⟩

/-- **A route that is asked for is read back.** -/
theorem listRoutesHandler_request (hlibc : libc.Inverse) {mySeq : UInt32} {params : RouteParams}
    {flags : UInt16} {msg : NlMsg} (h : sendRouteRequest libc mySeq params RTM_NEWROUTE flags = .ok msg) :
    ∃ route, params.AskFor libc route ∧
      ∀ table, listRoutesHandler libc.toLibc table msg.bytes = .ok (filtered table params.table route) := by
  rcases sendRouteRequest_cases libc mySeq params RTM_NEWROUTE flags with
    ⟨e, -, herr⟩ | ⟨dstAddr, prefixLen, gwAddr, oif, hcidr, hgw, hoif, hmsg, hfits⟩
  · rw [herr] at h
    cases h
  rw [hmsg] at h
  obtain rfl := Except.ok.inj h
  obtain ⟨hlen, src, hsrc⟩ := parseCidr_ok hcidr
  obtain ⟨dstText, hdstText, hdstBuf, hslash⟩ := inetPtonBuf_text hlibc RTA_DST hsrc
  obtain ⟨gwText, hgwNone, hgwText, hgwAsked⟩ := requestGateway_text hlibc hgw
  set rtm := requestRtm params prefixLen (requestScope params gwAddr oif) with hrtm
  have hfold : (requestAttrs (addrAttr RTA_DST dstAddr (addrLen params.family))
      (gwAddr.map fun gwAddr => addrAttr RTA_GATEWAY gwAddr (addrLen params.family)) oif params.metric
      params.table).foldlM (listAttr libc.toLibc) rtm.locals =
      .ok (rtm.locals.after libc.toLibc dstText gwText oif params.metric params.table) := by
    refine foldlM_requestAttrs rfl hdstText (fun a ha => ?_) (fun hnone => ?_) rfl rfl rfl fun hsmall => ?_
    · obtain ⟨addr, haddr, rfl⟩ := Option.map_eq_some_iff.mp ha
      exact ⟨rfl, hgwText addr haddr⟩
    · exact hgwNone (Option.map_eq_none_iff.mp hnone)
    · have hle := UInt32.not_lt.mp hsmall
      show (if params.table ≤ 255 then params.table.toUInt8 else RT_TABLE_COMPAT).toUInt32 = _
      rw [if_pos hle, toUInt8_toUInt32 hle]
  have hlt := Nat.lt_of_le_of_lt hfits (by decide : kNlReqSize < 2 ^ 32)
  refine ⟨(rtm.locals.after libc.toLibc dstText gwText oif params.metric params.table).route, ?_,
    fun table => ?_⟩
  · refine ⟨familyInt_toUInt8 hsrc, ?_, ?_, hgwAsked, requestOif_name hlibc hoif, rfl, rfl, rfl, rfl,
      requestScope_eq hgw hoif⟩
    · rw [hcidr]
      exact parseCidr_text hlen hslash hdstBuf
    · rw [hcidr]
      rfl
  · rw [requestMessage, listRoutesHandler_bytes rfl rfl hlt hfold, after_routes rfl]

end Rtsrv.Client
