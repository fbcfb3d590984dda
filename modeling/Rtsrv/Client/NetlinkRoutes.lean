import Rtsrv.Client.RouteRequest
import Rtsrv.Wire.RouteInstall
import Rtsrv.Wire.RouteList

/-!
# Rtsrv.Client.NetlinkRoutes — the route messages of the netlink library (`unix_domain/lib/netlink.cpp`)

`send_route_new` writes the request whose effect on the kernel `sendRouteNew` models, and `list_routes` reads
a dump into `RouteEntry` values.  What is read from a request is the entry that the kernel makes of it.
-/

namespace Rtsrv.Client

/-! ### The message builder -/

/-- `NlMsg::BUF_CAP`. -/
def BUF_CAP : ℕ := 4096

def NlMsg.init (type flags : UInt16) (seq : UInt32) : NlMsg where
  nlmsg_type := type
  nlmsg_flags := NLM_F_REQUEST ||| flags
  nlmsg_seq := seq
  payload := []

/-- `NlMsg::put_body` of an `rtmsg`, which needs no padding. -/
def NlMsg.putBody (msg : NlMsg) (body : RtMsg) : NlMsg := { msg with payload := msg.payload ++ body.bytes }

/-- `NlMsg::add_attr`, which does not look whether the buffer has room. -/
def NlMsg.addAttr (msg : NlMsg) (rta : RtAttr) : NlMsg := { msg with payload := msg.payload ++ rta.bytes }

theorem NlMsg.addAttr_eq (msg : NlMsg) (rta : RtAttr) : msg.addAttr rta = msg.withAttrs [rta] := by
  simp [NlMsg.addAttr, NlMsg.withAttrs]

/-- An attribute that is added under a condition. -/
theorem NlMsg.addAttr_ite (given : Prop) [Decidable given] (msg : NlMsg) (rta : RtAttr) :
    (if given then msg.addAttr rta else msg) = msg.withAttrs (if given then some rta else none).toList := by
  split_ifs
  · exact msg.addAttr_eq rta
  · simp [NlMsg.withAttrs]

end Rtsrv.Client

namespace Rtsrv.Netlink

open Lib CmdProto Client

def RouteTable.Unspec : UInt32 := 0

/-! ### `send_route_new` -/

variable (if_nametoindex : CString → Option UInt32)

/-- `RTA_OIF`, where an interface is named. -/
def addOif (if_name : CString) (msg : NlMsg) : Except RouteError NlMsg :=
  if if_name = [] then pure msg
  else do
    let idx ← nameToIndex if_nametoindex if_name
    pure (msg.addAttr (u32Attr RTA_OIF idx))

/-- The message that `send_route_new` hands to `nl_transact`. -/
def sendRouteNewMsg (seq : UInt32) (params : RouteAddParams) (extra_flags : UInt16) :
    Except RouteError NlMsg := do
  let msg := NlMsg.init RTM_NEWROUTE (NLM_F_ACK ||| extra_flags) seq
  let rt : RtMsg := {
    rtm_family := AF_INET
    rtm_dst_len := params.prefix_len
    rtm_src_len := 0
    rtm_tos := 0
    rtm_table := if params.table ≤ 255 then params.table.toUInt8 else RouteTable.Unspec.toUInt8
    rtm_protocol := params.protocol
    rtm_scope := params.scope
    rtm_type := params.type
    rtm_flags := 0 }
  let msg := msg.putBody rt
  let msg := msg.addAttr (wordAttr RTA_DST params.dst)
  let msg := if params.has_gateway then msg.addAttr (wordAttr RTA_GATEWAY params.gateway) else msg
  let msg ← addOif if_nametoindex params.if_name msg
  let msg := if params.metric ≠ 0 then msg.addAttr (u32Attr RTA_PRIORITY params.metric) else msg
  pure (if 255 < params.table then msg.addAttr (u32Attr RTA_TABLE params.table) else msg)

/-! ### `list_routes` -/

/-- `netlink::RouteEntry`, with what the reply leaves out of it. -/
structure ListedEntry extends RouteEntry where
  if_index : Int32
  table : UInt32
  protocol : UInt8
  scope : UInt8
  type : UInt8
  deriving DecidableEq, Repr

/-- `attr_data` on the attributes that `parse_attrs` has stored, of each type the last. -/
def attrData (attrs : List RtAttr) (type : UInt16) (expected : ℕ) : Option (Block UInt8 expected) :=
  (attrs.reverse.find? fun a => a.rta_type = type).bind fun a =>
    if h : a.data.length = expected then some ⟨a.data, h⟩ else none

variable (if_indextoname : UInt32 → Option CString)

def indexToName (idx : Int32) : CString := if idx ≤ 0 then [] else (if_indextoname idx.toUInt32).getD []

/-- The entry for an `rtmsg` and its attributes. -/
def routeEntry (rtm : RtMessage) (attrs : List RtAttr) : ListedEntry :=
  let gateway := attrData attrs RTA_GATEWAY 4
  let oif := (attrData attrs RTA_OIF 4).map wordU32
  { dst := (attrData attrs RTA_DST 4).getD anyAddr
    prefix_len := rtm.rtm_dst_len
    gateway := gateway.getD anyAddr
    has_gateway := gateway.isSome
    if_name := (oif.map fun idx => indexToName if_indextoname idx.toInt32).getD []
    if_index := (oif.map UInt32.toInt32).getD 0
    metric := ((attrData attrs RTA_PRIORITY 4).map wordU32).getD 0
    -- RTA_TABLE carries a 32-bit ID; prefer it over the 8-bit field.
    table := ((attrData attrs RTA_TABLE 4).map wordU32).getD rtm.rtm_table.toUInt32
    protocol := rtm.rtm_protocol
    scope := rtm.rtm_scope
    type := rtm.rtm_type }

/-- What the message at `nlh` adds to the routes. -/
def listMessage (table : UInt32) (hdr : NlMsgHdr) (nlh : List UInt8) : Access (List ListedEntry) :=
  if hdr.nlmsg_type ≠ RTM_NEWROUTE then pure []
  else do
    let rtm_family ← byteAt nlh 16
    if rtm_family ≠ AF_INET then pure []
    else do
      let rtm ← rtMessage hdr nlh
      let attrs ← visits rtaNext rtm.attrs
      let e := routeEntry if_indextoname rtm attrs
      pure (if table ≠ RouteTable.Unspec ∧ e.table ≠ table then [] else [e])

/-- The state of the loop over the messages of a dump. -/
structure ListWalk where
  nlh : List UInt8
  remaining : ℤ
  routes : List ListedEntry

def ListWalk.start (data : List UInt8) : ListWalk := ⟨data, data.length, []⟩

/-- A round of the `for` loop of `list_routes`. -/
def listStep (table : UInt32) (w : ListWalk) : Access (Round ListWalk (List ListedEntry)) := do
  match ← nlmsgOk w.nlh w.remaining with
  | none => pure (.done w.routes)
  | some hdr => do
    let routes ← listMessage if_indextoname table hdr w.nlh
    let next := (nlmsgAlign hdr.nlmsg_len).toNat
    pure (.again ⟨w.nlh.drop next, w.remaining - next, w.routes ++ routes⟩)

/-! ### The request as it is written -/

/-- The request that the parameters come to. -/
def newRoute (params : RouteAddParams) (extra_flags : UInt16) : Except RouteError NewRoute := do
  let oif ← outputInterface if_nametoindex params.if_name
  pure {
    nlmsg_flags := NLM_F_ACK ||| extra_flags
    rtm_dst_len := params.prefix_len
    rtm_table := if params.table ≤ 255 then params.table.toUInt8 else 0
    rtm_protocol := params.protocol
    rtm_scope := params.scope
    rtm_type := params.type
    dst := params.dst
    gateway := if params.has_gateway then some params.gateway else none
    oif := oif
    priority := if params.metric = 0 then none else some params.metric
    table := if params.table ≤ 255 then none else some params.table }

def NewRoute.rtmsg (msg : NewRoute) : RtMsg where
  rtm_family := AF_INET
  rtm_dst_len := msg.rtm_dst_len
  rtm_src_len := 0
  rtm_tos := 0
  rtm_table := msg.rtm_table
  rtm_protocol := msg.rtm_protocol
  rtm_scope := msg.rtm_scope
  rtm_type := msg.rtm_type
  rtm_flags := 0

def NewRoute.attrs (msg : NewRoute) : List RtAttr :=
  [wordAttr RTA_DST msg.dst] ++ (msg.gateway.map (wordAttr RTA_GATEWAY)).toList ++
    (msg.oif.map (u32Attr RTA_OIF)).toList ++ (msg.priority.map (u32Attr RTA_PRIORITY)).toList ++
    (msg.table.map (u32Attr RTA_TABLE)).toList

/-- A request as it is written. -/
def NewRoute.message (msg : NewRoute) (seq : UInt32) : NlMsg :=
  ((NlMsg.init RTM_NEWROUTE msg.nlmsg_flags seq).putBody msg.rtmsg).withAttrs msg.attrs

/-- What `list_routes` shows of an entry of the kernel. -/
def KernelEntry.listed (e : KernelEntry) : ListedEntry where
  dst := e.dst
  prefix_len := e.prefix_len
  gateway := e.gateway.getD anyAddr
  has_gateway := e.gateway.isSome
  if_name := (e.oif.map fun idx => indexToName if_indextoname idx.toInt32).getD []
  if_index := (e.oif.map UInt32.toInt32).getD 0
  metric := e.metric
  table := e.table
  protocol := e.protocol
  scope := e.scope
  type := e.type

/-- The kernel is given the request of the parameters. -/
theorem sendRouteNew_newRoute (kernel : Kernel) (params : RouteAddParams) (extra_flags : UInt16) :
    sendRouteNew if_nametoindex kernel params extra_flags =
      newRoute if_nametoindex params extra_flags >>= nlTransact kernel := by
  unfold sendRouteNew newRoute
  cases outputInterface if_nametoindex params.if_name with
  | error e => rfl
  | ok oif => rfl

theorem addOif_eq (if_name : CString) (msg : NlMsg) : addOif if_nametoindex if_name msg =
    (fun oif : Option UInt32 => msg.withAttrs (oif.map (u32Attr RTA_OIF)).toList) <$>
      outputInterface if_nametoindex if_name := by
  unfold addOif outputInterface
  split_ifs with hempty
  · simp [NlMsg.withAttrs]
    rfl
  · cases nameToIndex if_nametoindex if_name with
    | error e => rfl
    | ok idx => exact congrArg Except.ok (msg.addAttr_eq _)

/-- What is sent is the request of the parameters. -/
theorem sendRouteNewMsg_newRoute (seq : UInt32) (params : RouteAddParams) (extra_flags : UInt16) :
    sendRouteNewMsg if_nametoindex seq params extra_flags =
      (NewRoute.message · seq) <$> newRoute if_nametoindex params extra_flags := by
  unfold sendRouteNewMsg newRoute
  dsimp only
  rw [addOif_eq]
  cases outputInterface if_nametoindex params.if_name with
  | error e => rfl
  | ok oif =>
    refine congrArg Except.ok ?_
    dsimp only
    rw [NlMsg.addAttr_ite, NlMsg.addAttr_ite, NlMsg.addAttr_ite, NlMsg.addAttr_eq]
    simp only [withAttrs_append]
    have hgateway : (if params.has_gateway then some (wordAttr RTA_GATEWAY params.gateway) else none) =
        (if params.has_gateway then some params.gateway else none).map (wordAttr RTA_GATEWAY) := by
      split_ifs <;> rfl
    have hmetric : (if params.metric ≠ 0 then some (u32Attr RTA_PRIORITY params.metric) else none) =
        (if params.metric = 0 then none else some params.metric).map (u32Attr RTA_PRIORITY) := by
      by_cases hzero : params.metric = 0 <;> simp [hzero]
    have htable : (if 255 < params.table then some (u32Attr RTA_TABLE params.table) else none) =
        (if params.table ≤ 255 then none else some params.table).map (u32Attr RTA_TABLE) := by
      by_cases hle : params.table ≤ 255
      · rw [if_neg (UInt32.not_lt.mpr hle), if_pos hle]
        rfl
      · rw [if_pos (UInt32.not_le.mp hle), if_neg hle]
        rfl
    rw [hgateway, hmetric, htable]
    rfl

/-! ### The dump of a request -/

section Dump

variable {if_indextoname}

/-- An attribute of another type does not matter. -/
theorem attrData_skip {α : Type} {f : α → RtAttr} {type : UInt16} (hf : ∀ x, (f x).rta_type ≠ type)
    (attrs : List RtAttr) (o : Option α) (n : ℕ) :
    attrData (attrs ++ (o.map f).toList) type n = attrData attrs type n := by
  cases o with
  | none => simp
  | some x => simp [attrData, hf x]

/-- The one attribute of a type is the one that is found. -/
theorem attrData_hit {attrs : List RtAttr} {type : UInt16} (hnone : attrData attrs type 4 = none)
    (o : Option (Block UInt8 4)) : attrData (attrs ++ (o.map (wordAttr type)).toList) type 4 = o := by
  cases o with
  | none => simpa using hnone
  | some b => simp [attrData, wordAttr, b.length_eq]

theorem attrData_hit_u32 {attrs : List RtAttr} {type : UInt16} (hnone : attrData attrs type 4 = none)
    (o : Option UInt32) : (attrData (attrs ++ (o.map (u32Attr type)).toList) type 4).map wordU32 = o := by
  have hmap : o.map (u32Attr type) = (o.map fun v => ⟨hostU32 v, rfl⟩).map (wordAttr type) := by
    cases o <;> rfl
  have hword : ∀ v : UInt32, wordU32 ⟨hostU32 v, rfl⟩ = v := fun v =>
    (wordU32_join _ _ _ _).trans (joinBe32_write v)
  rw [hmap, attrData_hit hnone, Option.map_map]
  cases o with
  | none => rfl
  | some v => exact congrArg some (hword v)

/-- The attributes of a request are found again. -/
theorem attrData_attrs (msg : NewRoute) :
    attrData msg.attrs RTA_DST 4 = some msg.dst ∧ attrData msg.attrs RTA_GATEWAY 4 = msg.gateway ∧
      (attrData msg.attrs RTA_OIF 4).map wordU32 = msg.oif ∧
      (attrData msg.attrs RTA_PRIORITY 4).map wordU32 = msg.priority ∧
      (attrData msg.attrs RTA_TABLE 4).map wordU32 = msg.table := by
  have hgw : ∀ {type : UInt16} (attrs : List RtAttr), RTA_GATEWAY ≠ type →
      attrData (attrs ++ (msg.gateway.map (wordAttr RTA_GATEWAY)).toList) type 4 = attrData attrs type 4 :=
    fun attrs hne => attrData_skip (fun _ => hne) attrs _ 4
  have hu32 : ∀ {type type' : UInt16} (attrs : List RtAttr) (o : Option UInt32), type ≠ type' →
      attrData (attrs ++ (o.map (u32Attr type)).toList) type' 4 = attrData attrs type' 4 :=
    fun attrs o hne => attrData_skip (fun _ => hne) attrs o 4
  have hdst : ∀ {type : UInt16}, RTA_DST ≠ type → attrData [wordAttr RTA_DST msg.dst] type 4 = none :=
    fun hne => by simp [attrData, wordAttr, hne]
  unfold NewRoute.attrs
  refine ⟨?_, ?_, ?_, ?_, ?_⟩
  · rw [hu32 _ _ (by decide), hu32 _ _ (by decide), hu32 _ _ (by decide), hgw _ (by decide)]
    have hnil : attrData [] RTA_DST 4 = none := rfl
    exact attrData_hit hnil (some msg.dst)
  · rw [hu32 _ _ (by decide), hu32 _ _ (by decide), hu32 _ _ (by decide)]
    exact attrData_hit (hdst (by decide)) msg.gateway
  · rw [hu32 _ _ (by decide), hu32 _ _ (by decide)]
    refine attrData_hit_u32 ?_ msg.oif
    rw [hgw _ (by decide), hdst (by decide)]
  · rw [hu32 _ _ (by decide)]
    refine attrData_hit_u32 ?_ msg.priority
    rw [hu32 _ _ (by decide), hgw _ (by decide), hdst (by decide)]
  · refine attrData_hit_u32 ?_ msg.table
    rw [hu32 _ _ (by decide), hu32 _ _ (by decide), hgw _ (by decide), hdst (by decide)]

theorem routeEntry_message (msg : NewRoute) (seq : UInt32) :
    routeEntry if_indextoname
        (((NlMsg.init RTM_NEWROUTE msg.nlmsg_flags seq).putBody msg.rtmsg).rtMessage msg.rtmsg msg.attrs)
        msg.attrs = msg.entry.listed if_indextoname := by
  obtain ⟨hdst, hgw, hoif, hpriority, htable⟩ := attrData_attrs msg
  simp only [routeEntry, hdst, hgw, hoif, hpriority, htable]
  rfl

theorem wordAttr_bytes_length (rta_type : UInt16) (b : Block UInt8 4) :
    (wordAttr rta_type b).bytes.length = 8 := by
  rw [rta_bytes_length]
  show align4 (b.items.length + 4) = 8
  rw [b.length_eq]
  rfl

theorem u32Attr_bytes_length (rta_type : UInt16) (v : UInt32) : (u32Attr rta_type v).bytes.length = 8 :=
  wordAttr_bytes_length rta_type _

/-- The attributes are aligned, and there are at most five. -/
theorem message_length (msg : NewRoute) (seq : UInt32) :
    (msg.message seq).nlmsg_len % 4 = 0 ∧ (msg.message seq).nlmsg_len ≤ 68 := by
  have hopt : ∀ {α : Type} {f : α → RtAttr} (o : Option α), (∀ x, (f x).bytes.length = 8) →
      ∃ n ≤ 1, ((o.map f).toList.flatMap RtAttr.bytes).length = 8 * n := by
    intro α f o hf
    cases o with
    | none => exact ⟨0, Nat.zero_le 1, rfl⟩
    | some x => exact ⟨1, le_rfl, by simp [hf x]⟩
  obtain ⟨n1, h1, hgw⟩ := hopt msg.gateway (wordAttr_bytes_length RTA_GATEWAY)
  obtain ⟨n2, h2, hoif⟩ := hopt msg.oif (u32Attr_bytes_length RTA_OIF)
  obtain ⟨n3, h3, hpriority⟩ := hopt msg.priority (u32Attr_bytes_length RTA_PRIORITY)
  obtain ⟨n4, h4, htable⟩ := hopt msg.table (u32Attr_bytes_length RTA_TABLE)
  have hlen : (msg.message seq).nlmsg_len = 28 + (msg.attrs.flatMap RtAttr.bytes).length := by
    show 16 + (([] ++ msg.rtmsg.bytes) ++ msg.attrs.flatMap RtAttr.bytes).length = _
    rw [List.length_append]
    show 16 + (12 + _) = _
    omega
  have hattrs : (msg.attrs.flatMap RtAttr.bytes).length = 8 + 8 * n1 + 8 * n2 + 8 * n3 + 8 * n4 := by
    unfold NewRoute.attrs
    rw [List.flatMap_append, List.flatMap_append, List.flatMap_append, List.flatMap_append,
      List.length_append, List.length_append, List.length_append, List.length_append, hgw, hoif, hpriority,
      htable, List.flatMap_singleton, wordAttr_bytes_length]
  omega

section Bytes

variable {nlh : NlMsg} {rtm : RtMsg}

variable (if_indextoname) in
/-- What an `rtmsg` with some attributes adds to the routes. -/
def listed (table : UInt32) (nlh : NlMsg) (rtm : RtMsg) (attrs : List RtAttr) : List ListedEntry :=
  if nlh.nlmsg_type ≠ RTM_NEWROUTE ∨ rtm.rtm_family ≠ AF_INET then []
  else
    let e := routeEntry if_indextoname (nlh.rtMessage rtm attrs) attrs
    filtered table e.table e

/-- The message adds what its attributes say. -/
theorem listMessage_bytes (hbody : nlh.payload = rtm.bytes) (attrs : List RtAttr)
    (hfits : (nlh.withAttrs attrs).nlmsg_len < 2 ^ 32) (table : UInt32) :
    listMessage if_indextoname table (nlh.withAttrs attrs).hdr (nlh.withAttrs attrs).bytes =
      .ok (listed if_indextoname table nlh rtm attrs) := by
  have hfamily : byteAt (nlh.withAttrs attrs).bytes 16 = .ok rtm.rtm_family := by
    simp [NlMsg.bytes, NlMsg.withAttrs, hbody, RtMsg.bytes, hostU32, hostU16, writeBe32, writeBe16, byteAt]
  have hread := rtMessage_bytes hbody attrs hfits
  rw [listMessage, listed]
  show (if nlh.nlmsg_type ≠ RTM_NEWROUTE then pure [] else _) = _
  by_cases htype : nlh.nlmsg_type ≠ RTM_NEWROUTE
  · rw [if_pos htype, if_pos (Or.inl htype)]
    rfl
  rw [if_neg htype, hfamily, ok_bind]
  by_cases hinet : rtm.rtm_family ≠ AF_INET
  · rw [if_pos hinet, if_pos (Or.inr hinet)]
    rfl
  rw [if_neg hinet, if_neg (not_or.mpr ⟨htype, hinet⟩), hread, ok_bind]
  show (visits rtaNext (attrs.flatMap RtAttr.bytes) >>= _) = _
  rw [visits_rtaNext, ok_bind, filtered]
  refine congrArg Except.ok ?_
  generalize routeEntry if_indextoname (nlh.rtMessage rtm attrs) attrs = e
  by_cases hpass : table = RT_TABLE_UNSPEC ∨ table = e.table
  · rw [if_pos hpass, if_neg]
    rintro ⟨hne, hother⟩
    exact hpass.elim hne fun heq => hother heq.symm
  · rw [if_neg hpass, if_pos]
    exact ⟨fun heq => hpass (.inl heq), fun heq => hpass (.inr heq.symm)⟩

/-- A dump of one aligned message lists what the message adds. -/
theorem listStep_bytes {msg : NlMsg} (h4 : msg.nlmsg_len % 4 = 0) (hfits : msg.nlmsg_len < 2 ^ 32)
    {table : UInt32} {routes : List ListedEntry}
    (hlist : listMessage if_indextoname table msg.hdr msg.bytes = .ok routes) :
    Returns (listStep if_indextoname table) (.start msg.bytes) routes := by
  have hlen := msg.bytes_length
  have hsize : msg.hdr.nlmsg_len.toNat = msg.nlmsg_len := UInt32.toNat_ofNat_of_lt' hfits
  have hlow : 16 ≤ msg.nlmsg_len := Nat.le_add_right 16 _
  have hok : nlmsgOk msg.bytes msg.bytes.length = .ok (some msg.hdr) := by
    unfold nlmsgOk
    dsimp only
    rw [if_neg (by omega), nlmsghdr_bytes, ok_bind, hsize, if_pos (by omega)]
    rfl
  have hnext : (nlmsgAlign msg.hdr.nlmsg_len).toNat = msg.bytes.length := by
    rw [nlmsgAlign_toNat (by omega), hsize, hlen]
    unfold align4
    omega
  have hstep : listStep if_indextoname table (.start msg.bytes) = .ok (.again ⟨[], 0, routes⟩) := by
    show (nlmsgOk msg.bytes msg.bytes.length >>= _) = _
    rw [hok, ok_bind]
    show (listMessage if_indextoname table msg.hdr msg.bytes >>= _) = _
    rw [hlist, ok_bind, hnext]
    simp [ListWalk.start]
    rfl
  exact .again hstep (.done rfl)

end Bytes

/-- The message of a request adds the entry that the kernel makes of it. -/
theorem listMessage_message (msg : NewRoute) (seq table : UInt32) :
    listMessage if_indextoname table (msg.message seq).hdr (msg.message seq).bytes =
      .ok (filtered table msg.entry.table (msg.entry.listed if_indextoname)) := by
  have hfits : (msg.message seq).nlmsg_len < 2 ^ 32 := by
    have hle := (message_length msg seq).2
    omega
  have hbody : ((NlMsg.init RTM_NEWROUTE msg.nlmsg_flags seq).putBody msg.rtmsg).payload =
    msg.rtmsg.bytes := rfl
  have hmine : ¬(RTM_NEWROUTE ≠ RTM_NEWROUTE ∨ AF_INET ≠ AF_INET) := by simp
  refine (listMessage_bytes hbody msg.attrs hfits table).trans (congrArg Except.ok ((if_neg hmine).trans ?_))
  dsimp only
  rw [routeEntry_message]
  rfl

variable (if_indextoname) in
/-- **A dump of one request lists the entry that the kernel makes of it.** -/
theorem listStep_message (msg : NewRoute) (seq table : UInt32) :
    Returns (listStep if_indextoname table) (.start (msg.message seq).bytes)
      (filtered table msg.entry.table (msg.entry.listed if_indextoname)) := by
  obtain ⟨h4, hle⟩ := message_length msg seq
  exact listStep_bytes h4 (by omega) (listMessage_message msg seq table)

end Dump

/-! ### The round trips -/

/-- What the library relies on of the C library: an index is a positive `int`, and the name of an index that
a name has is that name up to its first zero. -/
structure NamesInverse : Prop where
  positive : ∀ name idx, if_nametoindex name = some idx → 0 < idx.toInt32
  name : ∀ name idx, if_nametoindex name = some idx → if_indextoname idx = some (name.takeWhile (· ≠ 0))

/-- The entry is the route that the parameters ask for. -/
structure RouteAddParams.AskFor (params : RouteAddParams) (e : ListedEntry) : Prop where
  dst : e.dst = params.dst
  prefix_len : e.prefix_len = params.prefix_len
  has_gateway : e.has_gateway = params.has_gateway
  gateway : params.has_gateway = true → e.gateway = params.gateway
  interface : if params.if_name = [] then e.if_index = 0 ∧ e.if_name = []
    else ∃ idx, if_nametoindex params.if_name = some idx ∧ e.if_index = idx.toInt32 ∧
      e.if_name = params.if_name.takeWhile (· ≠ 0)
  metric : e.metric = params.metric
  table : e.table = params.table
  protocol : e.protocol = params.protocol
  type : e.type = params.type
  scope : e.scope = params.scope

variable {if_nametoindex if_indextoname}

/-- The interface that is sent is shown with its name. -/
theorem outputInterface_listed (hnames : NamesInverse if_nametoindex if_indextoname) {if_name : CString}
    {oif : Option UInt32} (h : outputInterface if_nametoindex if_name = .ok oif) :
    if if_name = [] then oif = none
    else ∃ idx, oif = some idx ∧ if_nametoindex if_name = some idx ∧
      indexToName if_indextoname idx.toInt32 = if_name.takeWhile (· ≠ 0) := by
  unfold outputInterface nameToIndex at h
  by_cases hempty : if_name = []
  · rw [if_pos hempty] at h ⊢
    exact (Except.ok.inj h).symm
  · rw [if_neg hempty, if_neg hempty] at h
    rw [if_neg hempty]
    cases hidx : if_nametoindex if_name with
    | none =>
      rw [hidx] at h
      cases h
    | some idx =>
      rw [hidx] at h
      obtain rfl := Except.ok.inj h
      have hpos : ¬idx.toInt32 ≤ 0 := Int32.not_le.mpr (hnames.positive _ _ hidx)
      refine ⟨idx, rfl, rfl, ?_⟩
      rw [indexToName, if_neg hpos]
      show (if_indextoname idx).getD [] = _
      rw [hnames.name _ _ hidx]
      rfl

theorem newRoute_asked (hnames : NamesInverse if_nametoindex if_indextoname) {params : RouteAddParams}
    {extra_flags : UInt16} {msg : NewRoute} (h : newRoute if_nametoindex params extra_flags = .ok msg) :
    params.AskFor if_nametoindex (msg.entry.listed if_indextoname) := by
  obtain ⟨oif, hoif, hmsg⟩ := except_bind_ok.mp h
  obtain rfl := Except.ok.inj hmsg
  have hlisted := outputInterface_listed hnames hoif
  constructor
  case dst => rfl
  case prefix_len => rfl
  case protocol => rfl
  case type => rfl
  case scope => rfl
  case has_gateway =>
    show (if params.has_gateway then some params.gateway else none).isSome = _
    cases params.has_gateway <;> rfl
  case gateway =>
    intro hgw
    show (if params.has_gateway then some params.gateway else none).getD anyAddr = _
    rw [if_pos hgw]
    rfl
  case interface =>
    by_cases hempty : params.if_name = []
    · rw [if_pos hempty] at hlisted ⊢
      subst hlisted
      exact ⟨rfl, rfl⟩
    · rw [if_neg hempty] at hlisted ⊢
      obtain ⟨idx, rfl, hidx, hname⟩ := hlisted
      exact ⟨idx, hidx, rfl, hname⟩
  case metric =>
    show (if params.metric = 0 then none else some params.metric).getD 0 = _
    split_ifs with hzero
    · exact hzero.symm
    · rfl
  case table =>
    show (if params.table ≤ 255 then none else some params.table).getD
      (if params.table ≤ 255 then params.table.toUInt8 else 0).toUInt32 = _
    split_ifs with hle
    · exact toUInt8_toUInt32 hle
    · rfl

/-- **Route messages are read back as they were asked for.**  `sendRouteRequest` never runs out of its
buffer; what it sends is one route for `listRoutes`, in link scope where an interface is given and no
gateway.  What `send_route_new` sends fits its buffer and is one route for `list_routes`, in the scope that
was asked for. -/
theorem route_messages_read_back {libc : NetLibc} (hlibc : libc.Inverse)
    (hnames : NamesInverse if_nametoindex if_indextoname) :
    (∀ mySeq params nlType flags e,
      sendRouteRequest libc mySeq params nlType flags = .error e → ¬e.Overflow) ∧
    (∀ mySeq params flags msg, sendRouteRequest libc mySeq params RTM_NEWROUTE flags = .ok msg →
      ∃ route, params.AskFor libc route ∧
        ∀ table, listRoutesHandler libc.toLibc table msg.bytes = .ok (filtered table params.table route)) ∧
    ∀ seq params extra_flags msg, sendRouteNewMsg if_nametoindex seq params extra_flags = .ok msg →
      msg.bytes.length ≤ BUF_CAP ∧ ∃ e, params.AskFor if_nametoindex e ∧
        ∀ table, Returns (listStep if_indextoname table) (.start msg.bytes)
          (filtered table params.table e) := by
  refine ⟨fun mySeq params nlType flags e herr => ?_, fun mySeq params flags msg hmsg =>
    listRoutesHandler_request hlibc hmsg, fun seq params extra_flags msg hmsg => ?_⟩
  · rcases sendRouteRequest_cases libc mySeq params nlType flags with
      ⟨e', hno, herr'⟩ | ⟨_, _, _, _, -, -, -, hok, -⟩
    · rw [herr'] at herr
      obtain rfl := Except.error.inj herr
      exact hno
    · rw [hok] at herr
      cases herr
  · rw [sendRouteNewMsg_newRoute, except_map_ok] at hmsg
    obtain ⟨new, hnew, rfl⟩ := hmsg
    have hasked := newRoute_asked hnames hnew
    refine ⟨?_, new.entry.listed if_indextoname, hasked, fun table => ?_⟩
    · rw [NlMsg.bytes_length]
      exact (message_length new seq).2.trans (by decide)
    · rw [← hasked.table]
      exact listStep_message if_indextoname new seq table

/-! ### A route on an interface -/

/-- `eth0`. -/
def eth0 : CString := [101, 116, 104, 48]

/-- Interface 2 is `eth0`. -/
def oneInterfaceLibc : NetLibc where
  if_indextoname index := if index = 2 then some "eth0" else none
  inet_ntop6 := inetNtop6
  if_nametoindex name := if name = "eth0" then 2 else 0
  inet_pton6 := inetPton6

theorem oneInterfaceLibc_inverse : oneInterfaceLibc.Inverse where
  name := by
    intro name hname
    by_cases heq : name = "eth0"
    · subst heq
      rfl
    · exact absurd (if_neg heq) hname
  address := inetPton6_inetNtop6
  text := fun _ => ⟨fun h => absurd (mem_inetNtop6 h) (by decide), fun h => absurd (mem_inetNtop6 h) (by decide)⟩

def eth0Index (name : CString) : Option UInt32 := if name = eth0 then some 2 else none

def eth0Name (index : UInt32) : Option CString := if index = 2 then some eth0 else none

theorem eth0_inverse : NamesInverse eth0Index eth0Name := by
  have hone : ∀ name idx, eth0Index name = some idx → name = eth0 ∧ idx = 2 := by
    intro name idx hidx
    unfold eth0Index at hidx
    split_ifs at hidx with heq
    exact ⟨heq, (Option.some.inj hidx).symm⟩
  constructor
  case positive =>
    intro name idx hidx
    obtain ⟨-, rfl⟩ := hone name idx hidx
    decide
  case name =>
    intro name idx hidx
    obtain ⟨rfl, rfl⟩ := hone name idx hidx
    rfl

/-- 10.0.0.0/8 on `eth0`, without gateway. -/
def onLink : RouteAddParams where
  dst := ipv4 10 0 0 0
  prefix_len := 8
  gateway := anyAddr
  has_gateway := false
  if_name := eth0
  metric := 0
  table := RouteTable.Main
  protocol := RouteProtocol.Static
  scope := RouteScope.Universe
  type := RouteType.Unicast

/-- The same for the client. -/
def onLinkParams : RouteParams where
  destination := "10.0.0.0/8"
  gateway := ""
  interfaceName := "eth0"
  metric := 0
  protocol := 4
  type := RTN_UNICAST
  table := 1000
  family := familyInt AF_INET
  scope := RT_SCOPE_UNIVERSE

/-- The client's route comes back in link scope, the library's as it was asked for. -/
theorem route_messages_read_back_onLink :
    (∃ msg route, sendRouteRequest oneInterfaceLibc 1 onLinkParams RTM_NEWROUTE 0 = .ok msg ∧
      listRoutesHandler oneInterfaceLibc.toLibc 1000 msg.bytes = .ok [route] ∧ route.scope = RT_SCOPE_LINK) ∧
    ∃ msg e, sendRouteNewMsg eth0Index 1 onLink 0 = .ok msg ∧
      Returns (listStep eth0Name RouteTable.Main) (.start msg.bytes) [e] ∧ e.scope = RouteScope.Universe := by
  obtain ⟨-, hclient, hlibrary⟩ := route_messages_read_back oneInterfaceLibc_inverse eth0_inverse
  have hok : (sendRouteRequest oneInterfaceLibc 1 onLinkParams RTM_NEWROUTE 0).isOk = true := by
    decide +kernel
  obtain ⟨msg, hmsg⟩ := except_isOk.mp hok
  constructor
  · obtain ⟨route, hasked, hread⟩ := hclient 1 onLinkParams 0 msg hmsg
    exact ⟨msg, route, hmsg, hread 1000, hasked.scope⟩
  · obtain ⟨-, e, hasked, hread⟩ := hlibrary 1 onLink 0 _ rfl
    exact ⟨_, e, rfl, hread RouteTable.Main, hasked.scope⟩

/-- The library does not raise the scope of a route on an interface without gateway. -/
theorem library_scope_not_raised :
    ¬ ∀ (if_nametoindex : CString → Option UInt32) (if_indextoname : UInt32 → Option CString),
      NamesInverse if_nametoindex if_indextoname →
        ∀ seq params extra_flags msg, sendRouteNewMsg if_nametoindex seq params extra_flags = .ok msg →
          ∃ e, (∀ table, Returns (listStep if_indextoname table) (.start msg.bytes)
            (filtered table params.table e)) ∧
            e.scope = if params.if_name ≠ [] ∧ params.has_gateway = false ∧ params.scope = RouteScope.Universe
              then RT_SCOPE_LINK else params.scope := by
  intro h
  obtain ⟨msg, hmsg⟩ : ∃ msg, sendRouteNewMsg eth0Index 1 onLink 0 = .ok msg := ⟨_, rfl⟩
  obtain ⟨e, hread, hscope⟩ := h eth0Index eth0Name eth0_inverse 1 onLink 0 msg hmsg
  rw [sendRouteNewMsg_newRoute, except_map_ok] at hmsg
  obtain ⟨new, hnew, rfl⟩ := hmsg
  have hasked := newRoute_asked eth0_inverse hnew
  have hlisted := listStep_message eth0Name new 1 RouteTable.Unspec
  obtain rfl : e = new.entry.listed eth0Name := by
    simpa [filtered, RouteTable.Unspec, RT_TABLE_UNSPEC] using
      returns_unique (hread RouteTable.Unspec) hlisted
  rw [hasked.scope] at hscope
  exact absurd hscope (by decide)

end Rtsrv.Netlink
