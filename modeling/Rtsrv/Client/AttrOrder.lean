import Rtsrv.Client.NetlinkRoutes
import Rtsrv.Lib.OrderFree

/-!
# Rtsrv.Client.AttrOrder — route messages with their attributes in any order

The handler of `listRoutes` (`routing.cpp`) and `nl_dispatch` (`netlink.c`) write what an attribute says into
shared fields as the walk comes to it, `list_routes` (`unix_domain/lib/netlink.cpp`) looks attributes up by
their type.  With no type twice the three give the same for every order: two attributes of different types
never write to the same field, and what overrides what is decided behind the walk.
-/

namespace Rtsrv.Client

open Lib CmdProto Server

/-! ### Writes -/

/-- What an attribute writes, with its addresses as a parser has them. -/
inductive AttrWrite (addr : Type) where
  | destination (dst : addr)
  | gateway (gw : addr)
  | interface (oif : UInt32)
  | metric (prio : UInt32)
  | table (tbl : UInt32)
  | nexthops (nhs : List (String × UInt32))
  | nothing
  deriving DecidableEq, Repr

section Writes

variable {addr : Type}

/-- The type of the attributes that write so. -/
def AttrWrite.rta_type : AttrWrite addr → Option UInt16
  | .destination _ => some RTA_DST
  | .gateway _ => some RTA_GATEWAY
  | .interface _ => some RTA_OIF
  | .metric _ => some RTA_PRIORITY
  | .table _ => some RTA_TABLE
  | .nexthops _ => some RTA_MULTIPATH
  | .nothing => none

/-- The attribute writes so, or nothing. -/
def AttrWrite.Of (w : AttrWrite addr) (a : RtAttr) : Prop := ∀ t ∈ w.rta_type, t = a.rta_type

/-- The writes are not for one type. -/
def AttrWrite.Apart (w w' : AttrWrite addr) : Prop := ∀ t ∈ w.rta_type, t ∉ w'.rta_type

theorem AttrWrite.Of.apart {w w' : AttrWrite addr} {a b : RtAttr} (hw : w.Of a) (hw' : w'.Of b)
    (hne : a.rta_type ≠ b.rta_type) : w.Apart w' :=
  fun t ht ht' => hne ((hw t ht).symm.trans (hw' t ht'))

end Writes

/-! ### The handler: reading and writing -/

section Handler

variable (libc : Libc)

def ListLocals.write (l : ListLocals) : AttrWrite String → ListLocals
  | .destination dst =>
    { l with route.destination := dst ++ "/" ++ toString l.route.prefixLen.toNat, hasDst := true }
  | .gateway gw => { l with route.gateway := gw }
  | .interface oif => { l with route.interfaceIndex := oif, route.interfaceName := ifIndexToName libc oif }
  | .metric prio => { l with route.metric := prio }
  | .table tbl => { l with route.table := tbl }
  | .nexthops nhs => { l with nexthops := l.nexthops ++ nhs }
  | .nothing => l

/-- What is read of an attribute; of the locals only the family matters. -/
def listRead (family : UInt8) (a : RtAttr) : Access (AttrWrite String) :=
  if a.rta_type = RTA_DST then .destination <$> addrToString libc a.data family
  else if a.rta_type = RTA_GATEWAY then .gateway <$> addrToString libc a.data family
  else if a.rta_type = RTA_OIF then (fun b => .interface (wordU32 b)) <$> word a.data
  else if a.rta_type = RTA_PRIORITY then (fun b => .metric (wordU32 b)) <$> word a.data
  else if a.rta_type = RTA_TABLE then (fun b => .table (wordU32 b)) <$> word a.data
  else if a.rta_type = RTA_MULTIPATH then
    .nexthops <$> (visits rtnhNext a.data >>= List.mapM (listNexthop libc family))
  else pure .nothing

/-- The switch reads, then it writes. -/
theorem listAttr_eq (l : ListLocals) (a : RtAttr) :
    listAttr libc l a = l.write libc <$> listRead libc l.route.family a := by
  unfold listAttr listRead
  split_ifs
  · cases addrToString libc a.data l.route.family <;> rfl
  · cases addrToString libc a.data l.route.family <;> rfl
  · cases word a.data <;> rfl
  · cases word a.data <;> rfl
  · cases word a.data <;> rfl
  · cases visits rtnhNext a.data with
    | error e => rfl
    | ok records =>
      rw [ok_bind, ok_bind]
      cases records.mapM (listNexthop libc l.route.family) <;> rfl
  · rfl

/-- No write changes the family. -/
theorem ListLocals.write_family (l : ListLocals) (w : AttrWrite String) :
    (l.write libc w).route.family = l.route.family := by
  cases w <;> rfl

/-- Writes for different types go to different fields. -/
theorem ListLocals.write_comm (l : ListLocals) {w w' : AttrWrite String} (h : w.Apart w') :
    (l.write libc w).write libc w' = (l.write libc w').write libc w := by
  -- Only two writes for one type meet in a field.
  cases w <;> cases w'
  all_goals first
    | rfl
    | exact absurd rfl (h _ rfl)

variable {libc}

theorem listRead_of {family : UInt8} {a : RtAttr} {w : AttrWrite String}
    (h : listRead libc family a = .ok w) : w.Of a := by
  unfold listRead at h
  split_ifs at h
  case neg =>
    obtain rfl := Except.ok.inj h
    exact fun t ht => nomatch ht
  all_goals
    obtain ⟨_, -, rfl⟩ := except_map_ok.mp h
    rintro t ⟨⟩
    exact ‹a.rta_type = _›.symm

end Handler

/-! ### The descriptor: reading and writing -/

section Dispatch

variable (libc : Libc)

def NetlinkRoute32.write (route : NetlinkRoute32) : AttrWrite Ipv4Addr → NetlinkRoute32
  | .destination dst => { route with dst := dst }
  | .gateway gw => { route with gateway := gw }
  | .interface oif => { route with ifindex := oif, ifname := (libc.if_indextoname oif).getD route.ifname }
  | .metric prio => { route with metric := prio }
  | .table tbl => { route with table := tbl }
  | .nexthops _ => route
  | .nothing => route

/-- What is read of an attribute, if its payload is long enough. -/
def dispatchRead (a : RtAttr) : AttrWrite Ipv4Addr :=
  match a.value with
  | none => .nothing
  | some b =>
    if a.rta_type = RTA_DST then .destination b
    else if a.rta_type = RTA_GATEWAY then .gateway b
    else if a.rta_type = RTA_OIF then .interface (wordU32 b)
    else if a.rta_type = RTA_PRIORITY then .metric (wordU32 b)
    else if a.rta_type = RTA_TABLE then .table (wordU32 b)
    else .nothing

/-- The switch of `nl_dispatch` always comes to its end. -/
theorem dispatchAttr_eq (route : NetlinkRoute32) (a : RtAttr) :
    dispatchAttr libc route a = .ok (route.write libc (dispatchRead a)) := by
  unfold dispatchAttr dispatchRead
  simp only [dispatchWord_value]
  cases a.value with
  | none => split_ifs <;> rfl
  | some b => split_ifs <;> rfl

theorem NetlinkRoute32.write_comm (route : NetlinkRoute32) {w w' : AttrWrite Ipv4Addr} (h : w.Apart w') :
    (route.write libc w).write libc w' = (route.write libc w').write libc w := by
  cases w <;> cases w'
  all_goals first
    | rfl
    | exact absurd rfl (h _ rfl)

theorem dispatchRead_of (a : RtAttr) : (dispatchRead a).Of a := by
  unfold dispatchRead
  cases a.value with
  | none => exact fun t ht => nomatch ht
  | some b =>
    dsimp only
    split_ifs
    case neg => exact fun t ht => nomatch ht
    all_goals
      rintro t ⟨⟩
      exact ‹a.rta_type = _›.symm

end Dispatch

/-! ### Regular messages -/

/-- An address of the family is so long. -/
def AddrSize (family : UInt8) (size : ℕ) : Prop :=
  (family = AF_INET → size = 4) ∧ (family = AF_INET6 → size = 16)

/-- A record of `RTA_MULTIPATH` whose gateways are addresses of the family. -/
def RtNexthop.Regular (family : UInt8) (nh : RtNexthop) : Prop :=
  ∃ attrs : List RtAttr, nh.attrs = attrs.flatMap RtAttr.bytes ∧
    ∀ a ∈ attrs, a.rta_type = RTA_GATEWAY → AddrSize family a.data.length

/-- The payload of an attribute has the size that its type has in a message of the family. -/
structure RtAttr.Regular (family : UInt8) (a : RtAttr) : Prop where
  address : a.rta_type ∈ [RTA_DST, RTA_GATEWAY] → AddrSize family a.data.length
  word : a.rta_type ∈ [RTA_OIF, RTA_PRIORITY, RTA_TABLE] → a.data.length = 4
  records : a.rta_type = RTA_MULTIPATH →
    ∃ nhs : List RtNexthop, a.data = nhs.flatMap RtNexthop.bytes ∧ ∀ nh ∈ nhs, nh.Regular family

section Total

variable (libc : Libc)

theorem addrToString_total {family : UInt8} {addr : List UInt8} (h : AddrSize family addr.length) :
    ∃ text, addrToString libc addr family = .ok text := by
  unfold addrToString
  split_ifs with h4 h6
  · obtain ⟨b, hb⟩ := word_ok (h.1 h4).ge
    rw [hb]
    exact ⟨_, rfl⟩
  · rw [Reader.block, dif_pos (h.2 h6).ge]
    exact ⟨_, rfl⟩
  · exact ⟨_, rfl⟩

theorem listNexthop_total {family : UInt8} {nh : RtNexthop} (h : nh.Regular family) :
    ∃ entry, listNexthop libc family nh = .ok entry := by
  obtain ⟨attrs, hattrs, hgw⟩ := h
  have hfold : ∃ nhGw, attrs.foldlM (listGateway libc family) "" = .ok nhGw := by
    refine foldlM_total _ (fun _ => True) (fun nhGw a ha _ => ?_) hgw trivial
    unfold listGateway
    split_ifs with ht
    · obtain ⟨text, htext⟩ := addrToString_total libc (ha ht)
      exact ⟨text, htext, trivial⟩
    · exact ⟨nhGw, rfl, trivial⟩
  obtain ⟨nhGw, hnhGw⟩ := hfold
  rw [listNexthop, hattrs, visits_rtaNext, ok_bind, hnhGw]
  exact ⟨_, rfl⟩

/-- A regular attribute is read. -/
theorem listRead_total {family : UInt8} {a : RtAttr} (h : a.Regular family) :
    ∃ w, listRead libc family a = .ok w := by
  have haddr : a.rta_type ∈ [RTA_DST, RTA_GATEWAY] → ∀ write : String → AttrWrite String,
      ∃ w, write <$> addrToString libc a.data family = .ok w := by
    intro hmem write
    obtain ⟨text, htext⟩ := addrToString_total libc (h.address hmem)
    rw [htext]
    exact ⟨_, rfl⟩
  have hword : a.rta_type ∈ [RTA_OIF, RTA_PRIORITY, RTA_TABLE] → ∀ write : Block UInt8 4 → AttrWrite String,
      ∃ w, write <$> word a.data = .ok w := by
    intro hmem write
    obtain ⟨b, hb⟩ := word_ok (h.word hmem).ge
    rw [hb]
    exact ⟨_, rfl⟩
  unfold listRead
  split_ifs with hdst hgw hoif hprio htable hmulti
  · exact haddr (by simp [hdst]) _
  · exact haddr (by simp [hgw]) _
  · exact hword (by simp [hoif]) _
  · exact hword (by simp [hprio]) _
  · exact hword (by simp [htable]) _
  · obtain ⟨nhs, hdata, hregular⟩ := h.records hmulti
    obtain ⟨entries, hentries⟩ := mapM_total fun nh hnh => listNexthop_total libc (hregular nh hnh)
    rw [hdata, visits_rtnhNext, ok_bind, hentries]
    exact ⟨_, rfl⟩
  · exact ⟨_, rfl⟩

end Total

/-! ### Each parser for every order -/

section Orders

variable (libc : Libc) {attrs attrs' : List RtAttr} (hperm : attrs.Perm attrs')
  (hnodup : (attrs.map RtAttr.rta_type).Nodup)

include hperm hnodup

/-- The locals of the handler are the same for every order. -/
theorem foldlM_listAttr_perm {l : ListLocals} (hregular : ∀ a ∈ attrs, a.Regular l.route.family) :
    ∃ l', attrs.foldlM (listAttr libc) l = .ok l' ∧ attrs'.foldlM (listAttr libc) l = .ok l' := by
  have hstep : ∀ (s : ListLocals) (a : RtAttr), a.Regular l.route.family → s.route.family = l.route.family →
      ∃ w, listRead libc l.route.family a = .ok w ∧ listAttr libc s a = .ok (s.write libc w) := by
    intro s a ha hs
    obtain ⟨w, hw⟩ := listRead_total libc ha
    refine ⟨w, hw, ?_⟩
    rw [listAttr_eq, hs, hw]
    rfl
  refine foldlM_perm_total RtAttr.rta_type (RtAttr.Regular l.route.family)
    (fun s => s.route.family = l.route.family) (fun s a ha hs => ?_) (fun s a b ha hb hne hs => ?_) hperm
    hregular hnodup rfl
  · obtain ⟨w, -, happly⟩ := hstep s a ha hs
    exact ⟨_, happly, (s.write_family libc w).trans hs⟩
  · obtain ⟨w, hw, happly⟩ := hstep s a ha hs
    obtain ⟨w', hw', happly'⟩ := hstep s b hb hs
    obtain ⟨v, hv, hback⟩ := hstep (s.write libc w') a ha ((s.write_family libc w').trans hs)
    obtain ⟨v', hv', hback'⟩ := hstep (s.write libc w) b hb ((s.write_family libc w).trans hs)
    obtain rfl := Except.ok.inj (hw.symm.trans hv)
    obtain rfl := Except.ok.inj (hw'.symm.trans hv')
    rw [Swaps, happly, happly', ok_bind, ok_bind, hback, hback',
      s.write_comm libc ((listRead_of hw).apart (listRead_of hw') hne)]

/-- The descriptor is the same for every order. -/
theorem foldlM_dispatchAttr_perm (route : NetlinkRoute32) :
    ∃ route', attrs.foldlM (dispatchAttr libc) route = .ok route' ∧
      attrs'.foldlM (dispatchAttr libc) route = .ok route' := by
  refine foldlM_perm_total RtAttr.rta_type (fun _ => True) (fun _ => True)
    (fun s a _ _ => ⟨_, dispatchAttr_eq libc s a, trivial⟩) (fun s a b _ _ hne _ => ?_) hperm
    (fun _ _ => trivial) hnodup trivial
  rw [Swaps, dispatchAttr_eq, dispatchAttr_eq, ok_bind, ok_bind, dispatchAttr_eq, dispatchAttr_eq,
    s.write_comm libc ((dispatchRead_of a).apart (dispatchRead_of b) hne)]

/-- What `attr_data` finds is the same for every order. -/
theorem attrData_perm (type : UInt16) (expected : ℕ) :
    Netlink.attrData attrs type expected = Netlink.attrData attrs' type expected := by
  have hrev : attrs.reverse.Perm attrs'.reverse :=
    (List.reverse_perm attrs).trans (hperm.trans (List.reverse_perm attrs').symm)
  have hdistinct : (attrs.reverse.map RtAttr.rta_type).Nodup := by
    rw [List.map_reverse]
    exact List.nodup_reverse.mpr hnodup
  rw [Netlink.attrData, Netlink.attrData, find?_perm hrev hdistinct]

end Orders

/-! ### Route messages -/

/-- A message with an `rtmsg` and padded attributes: no type twice, and each payload of its size. -/
structure RegularRoute where
  nlh : NlMsg
  rtm : RtMsg
  attrs : List RtAttr
  body : nlh.payload = rtm.bytes
  distinct : (attrs.map RtAttr.rta_type).Nodup
  regular : ∀ a ∈ attrs, a.Regular rtm.rtm_family
  fits : (nlh.withAttrs attrs).nlmsg_len < 2 ^ 32

/-- The message as it is sent. -/
def RegularRoute.msg (r : RegularRoute) : NlMsg := r.nlh.withAttrs r.attrs

theorem nlmsg_len_perm {attrs attrs' : List RtAttr} (hperm : attrs.Perm attrs') (nlh : NlMsg) :
    (nlh.withAttrs attrs').nlmsg_len = (nlh.withAttrs attrs).nlmsg_len := by
  have hlen := (hperm.flatMap_right RtAttr.bytes).length_eq
  simp only [NlMsg.nlmsg_len, NlMsg.withAttrs, List.length_append, hlen]

/-- The message with its attributes in another order. -/
def RegularRoute.reorder (r : RegularRoute) {attrs' : List RtAttr} (hperm : r.attrs.Perm attrs') :
    RegularRoute where
  nlh := r.nlh
  rtm := r.rtm
  attrs := attrs'
  body := r.body
  distinct := (hperm.map RtAttr.rta_type).nodup_iff.mp r.distinct
  regular := fun a ha => r.regular a (hperm.mem_iff.mpr ha)
  fits := nlmsg_len_perm hperm r.nlh ▸ r.fits

theorem flatMap_bytes_aligned (attrs : List RtAttr) : (attrs.flatMap RtAttr.bytes).length % 4 = 0 := by
  induction attrs with
  | nil => rfl
  | cons a attrs ih =>
    have ha : a.bytes.length % 4 = 0 := by
      rw [rta_bytes_length]
      exact Nat.mul_mod_left _ 4
    rw [List.flatMap_cons, List.length_append]
    omega

theorem RegularRoute.aligned (r : RegularRoute) : r.msg.nlmsg_len % 4 = 0 := by
  have hattrs := flatMap_bytes_aligned r.attrs
  have hbody : r.rtm.bytes.length = 12 := rfl
  show (16 + (r.nlh.payload ++ r.attrs.flatMap RtAttr.bytes).length) % 4 = 0
  rw [List.length_append, r.body, hbody]
  omega

/-- What the three parsers make of a message: the routes of the handler, the entries of a dump of this
message, and what `nl_dispatch` gives its callback.  `logged` is `nl_dispatch` with its log of OSPF routes,
which may read behind the message. -/
structure RegularRoute.Gives (r : RegularRoute) (libc : Libc)
    (if_indextoname : UInt32 → Option Netlink.CString) (table : UInt32) (routes : List KernelRoute)
    (entries : List Netlink.ListedEntry) (event : Option (NetlinkEvent × NetlinkRoute32)) : Prop where
  handler : listRoutesHandler libc table r.msg.bytes = .ok routes
  library : Returns (Netlink.listStep if_indextoname table) (.start r.msg.bytes) entries
  dispatch : (rtMessage r.msg.hdr r.msg.bytes >>= RtMessage.nlDispatch libc) = .ok event
  logged : (r.rtm.rtm_protocol = RTPROT_OSPF → OspfReadable r.msg.hdr r.msg.bytes) →
    nlDispatch libc r.msg.hdr r.msg.bytes = .ok event

namespace RegularRoute

variable (r : RegularRoute)

/-- The message that is read from the bytes. -/
def rtMessage : RtMessage := r.nlh.rtMessage r.rtm r.attrs

theorem rtMessage_msg : Client.rtMessage r.msg.hdr r.msg.bytes = .ok r.rtMessage :=
  rtMessage_bytes r.body r.attrs r.fits

/-- `nl_dispatch` on the bytes, if the log of an OSPF route stays in the message. -/
theorem nlDispatch_msg (libc : Libc)
    (hlog : r.rtm.rtm_protocol = RTPROT_OSPF → OspfReadable r.msg.hdr r.msg.bytes)
    (event : Option (NetlinkEvent × NetlinkRoute32)) :
    nlDispatch libc r.msg.hdr r.msg.bytes = .ok event ↔ r.rtMessage.nlDispatch libc = .ok event := by
  have hsize : r.msg.hdr.nlmsg_len.toNat = r.msg.nlmsg_len := UInt32.toNat_ofNat_of_lt' r.fits
  have hprotocol : r.msg.bytes[21]? = some r.rtm.rtm_protocol := by
    simp [msg, NlMsg.bytes, NlMsg.withAttrs, r.body, RtMsg.bytes, hostU32, hostU16, writeBe32, writeBe16]
  have hreadable : OspfReadable r.msg.hdr r.msg.bytes := by
    by_cases hospf : r.rtm.rtm_protocol = RTPROT_OSPF
    · exact hlog hospf
    · exact ⟨_, hprotocol, fun h => absurd h hospf⟩
  have hstart : 28 ≤ r.msg.hdr.nlmsg_len := by
    have hlen : r.msg.nlmsg_len = 28 + (r.attrs.flatMap RtAttr.bytes).length := by
      show 16 + (r.nlh.payload ++ r.attrs.flatMap RtAttr.bytes).length = _
      rw [List.length_append, r.body]
      show 16 + (12 + _) = _
      omega
    rw [UInt32.le_iff_toNat_le, hsize, hlen]
    exact Nat.le_add_right 28 _
  exact nlDispatch_message (by rw [hsize, NlMsg.bytes_length]) hstart hreadable r.rtMessage_msg event

variable {attrs' : List RtAttr} (hperm : r.attrs.Perm attrs')

include hperm

theorem handler_perm (libc : Libc) (table : UInt32) :
    ∃ routes, listRoutesHandler libc table r.msg.bytes = .ok routes ∧
      listRoutesHandler libc table (r.reorder hperm).msg.bytes = .ok routes := by
  by_cases htype : r.nlh.nlmsg_type = RTM_NEWROUTE
  · obtain ⟨l, hl, hl'⟩ := foldlM_listAttr_perm libc hperm r.distinct (l := r.rtm.locals) r.regular
    exact ⟨_, listRoutesHandler_bytes htype r.body r.fits hl table,
      listRoutesHandler_bytes htype r.body (r.reorder hperm).fits hl' table⟩
  · have hother : ∀ attrs, listRoutesHandler libc table (r.nlh.withAttrs attrs).bytes = .ok [] := by
      intro attrs
      rw [listRoutesHandler, nlmsghdr_bytes, ok_bind]
      exact if_pos htype
    exact ⟨[], hother r.attrs, hother attrs'⟩

theorem library_perm (if_indextoname : UInt32 → Option Netlink.CString) (table : UInt32) :
    ∃ entries, Returns (Netlink.listStep if_indextoname table) (.start r.msg.bytes) entries ∧
      Returns (Netlink.listStep if_indextoname table) (.start (r.reorder hperm).msg.bytes) entries := by
  have hentry : Netlink.routeEntry if_indextoname (r.nlh.rtMessage r.rtm r.attrs) r.attrs =
      Netlink.routeEntry if_indextoname (r.nlh.rtMessage r.rtm attrs') attrs' := by
    simp only [Netlink.routeEntry, attrData_perm hperm r.distinct]
    rfl
  have hlisted : Netlink.listed if_indextoname table r.nlh r.rtm r.attrs =
      Netlink.listed if_indextoname table r.nlh r.rtm attrs' := by
    rw [Netlink.listed, Netlink.listed, hentry]
  refine ⟨_, Netlink.listStep_bytes r.aligned r.fits
    (Netlink.listMessage_bytes r.body r.attrs r.fits table), ?_⟩
  rw [hlisted]
  exact Netlink.listStep_bytes (r.reorder hperm).aligned (r.reorder hperm).fits
    (Netlink.listMessage_bytes r.body attrs' (r.reorder hperm).fits table)

theorem dispatch_perm (libc : Libc) :
    ∃ event, r.rtMessage.nlDispatch libc = .ok event ∧
      (r.reorder hperm).rtMessage.nlDispatch libc = .ok event := by
  have hfold : ∀ route : NetlinkRoute32,
      attrs'.foldlM (dispatchAttr libc) route = r.attrs.foldlM (dispatchAttr libc) route := by
    intro route
    obtain ⟨route', hroute, hroute'⟩ := foldlM_dispatchAttr_perm libc hperm r.distinct route
    exact hroute'.trans hroute.symm
  have hsame : (r.reorder hperm).rtMessage.nlDispatch libc = r.rtMessage.nlDispatch libc := by
    have hevent : (r.reorder hperm).rtMessage.event = r.rtMessage.event := rfl
    unfold RtMessage.nlDispatch
    rw [hevent]
    simp only [rtMessage, reorder, NlMsg.rtMessage, visits_rtaNextUnsigned, ok_bind, hfold]
  have htotal : ∃ event, r.rtMessage.nlDispatch libc = .ok event := by
    refine ite_total ⟨none, rfl⟩ (ite_total ⟨none, rfl⟩ (ite_total ⟨none, rfl⟩ ?_))
    cases r.rtMessage.event with
    | none => exact ⟨none, rfl⟩
    | some event =>
      dsimp only [rtMessage, NlMsg.rtMessage]
      obtain ⟨route', hroute, -⟩ := foldlM_dispatchAttr_perm libc hperm r.distinct _
      rw [visits_rtaNextUnsigned, ok_bind, hroute]
      exact ⟨_, rfl⟩
  obtain ⟨event, hdispatch⟩ := htotal
  exact ⟨event, hdispatch, hsame.trans hdispatch⟩

end RegularRoute

/-! ### The comparison -/

/-- **What is made of a route message does not depend on the order of its attributes**: neither the routes of
the handler, nor the entry of `list_routes`, nor the event and the descriptor of `nl_dispatch`. -/
theorem attributes_in_any_order (r : RegularRoute) {attrs' : List RtAttr} (hperm : r.attrs.Perm attrs')
    (libc : Libc) (if_indextoname : UInt32 → Option Netlink.CString) (table : UInt32) :
    ∃ routes entries event, r.Gives libc if_indextoname table routes entries event ∧
      (r.reorder hperm).Gives libc if_indextoname table routes entries event := by
  obtain ⟨routes, hroutes, hroutes'⟩ := r.handler_perm hperm libc table
  obtain ⟨entries, hentries, hentries'⟩ := r.library_perm hperm if_indextoname table
  obtain ⟨event, hevent, hevent'⟩ := r.dispatch_perm hperm libc
  refine ⟨routes, entries, event, ?_, ?_⟩
  · exact ⟨hroutes, hentries, by rw [r.rtMessage_msg, ok_bind, hevent],
      fun hlog => (r.nlDispatch_msg libc hlog event).mpr hevent⟩
  · exact ⟨hroutes', hentries', by rw [(r.reorder hperm).rtMessage_msg, ok_bind, hevent'],
      fun hlog => ((r.reorder hperm).nlDispatch_msg libc hlog event).mpr hevent'⟩

theorem wordAttr_regular {rta_type : UInt16} (h : rta_type ≠ RTA_MULTIPATH) (b : Block UInt8 4) :
    (wordAttr rta_type b).Regular AF_INET where
  address := fun _ => ⟨fun _ => b.length_eq, fun h6 => absurd h6 (by decide)⟩
  word := fun _ => b.length_eq
  records := fun hmulti => absurd hmulti h

/-- Via 10.0.0.3 on interface 2. -/
def oneHop : RtNexthop where
  rtnh_flags := 0
  rtnh_hops := 0
  rtnh_ifindex := 2
  attrs := (wordAttr RTA_GATEWAY (ipv4 10 0 0 3)).bytes
  fits := by decide

/-- The header of an IPv4 host route. -/
def hostRtm : RtMsg where
  rtm_family := AF_INET
  rtm_dst_len := 32
  rtm_src_len := 0
  rtm_tos := 0
  rtm_table := RT_TABLE_COMPAT
  rtm_protocol := 4
  rtm_scope := RT_SCOPE_UNIVERSE
  rtm_type := RTN_UNICAST
  rtm_flags := 0

/-- 10.0.0.5/32 in table 1000, with a gateway of its own that the next hop overrides. -/
def overriddenGateway : RegularRoute where
  nlh :=
    { nlmsg_type := RTM_NEWROUTE
      nlmsg_flags := 0
      nlmsg_seq := 1
      payload := hostRtm.bytes }
  rtm := hostRtm
  attrs := [wordAttr RTA_DST (ipv4 10 0 0 5), wordAttr RTA_GATEWAY (ipv4 10 0 0 9),
    wordAttr RTA_TABLE (ipv4 232 3 0 0),
    { rta_type := RTA_MULTIPATH, data := oneHop.bytes, fits := by decide }]
  body := rfl
  distinct := by decide
  regular := by
    intro a ha
    simp only [List.mem_cons, List.not_mem_nil, or_false] at ha
    rcases ha with rfl | rfl | rfl | rfl
    · exact wordAttr_regular (by decide) _
    · exact wordAttr_regular (by decide) _
    · exact wordAttr_regular (by decide) _
    · refine ⟨fun h => absurd h (by decide), fun h => absurd h (by decide), fun _ => ?_⟩
      refine ⟨[oneHop], (List.append_nil _).symm, fun nh hnh => ?_⟩
      obtain rfl := List.mem_singleton.mp hnh
      refine ⟨[wordAttr RTA_GATEWAY (ipv4 10 0 0 3)], rfl, fun a ha _ => ?_⟩
      obtain rfl := List.mem_singleton.mp ha
      exact ⟨fun _ => rfl, fun h6 => absurd h6 (by decide)⟩
  fits := by decide

/-- Forwards and backwards. -/
theorem attributes_in_any_order_reversed :
    ∃ routes entries event,
      overriddenGateway.Gives oneInterface Netlink.eth0Name RT_TABLE_UNSPEC routes entries event ∧
      (overriddenGateway.reorder (List.reverse_perm _).symm).Gives oneInterface Netlink.eth0Name
        RT_TABLE_UNSPEC routes entries event :=
  attributes_in_any_order overriddenGateway _ oneInterface Netlink.eth0Name RT_TABLE_UNSPEC

end Rtsrv.Client
