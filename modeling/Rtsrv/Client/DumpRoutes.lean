import Rtsrv.Client.AttrOrder
import Rtsrv.Client.NlDump

/-!
# Rtsrv.Client.DumpRoutes — the two listings of routes (`unix_domain/lib/netlink.cpp`, `routing.cpp`)

`list_routes` walks over what `nl_dump` has collected, `RoutingManager::listRoutes` is a handler of `recvAll`.
Both list the routes of the messages in the order in which these come, and of regular messages they make the
same routes, once as words and once as texts.
-/

namespace Rtsrv.Client

open Lib CmdProto

def RTM_GETROUTE : UInt16 := 26

/-! ### The two listings of routes -/

/-- The request of `list_routes`. -/
def listRoutesRequest (seq : UInt32) : NlMsg :=
  (NlMsg.init RTM_GETROUTE NLM_F_DUMP seq).putBody
    { rtm_family := AF_INET
      rtm_dst_len := 0
      rtm_src_len := 0
      rtm_tos := 0
      rtm_table := 0
      rtm_protocol := 0
      rtm_scope := 0
      rtm_type := 0
      rtm_flags := 0 }

/-- What `netlink::list_routes` returns, on a socket that is open. -/
inductive ListRoutes (if_indextoname : UInt32 → Option Netlink.CString) (table seq : UInt32)
    (send : List UInt8 → Bool) (recvs : List Recv) : Except TransactError (List Netlink.ListedEntry) → Prop
  | failed {e : TransactError}
      (h : Returns (NlDump.step (send (listRoutesRequest seq).bytes)) (.sending recvs)
        (.returned (.error e))) : ListRoutes if_indextoname table seq send recvs (.error e)
  | listed {data : List UInt8} {routes : List Netlink.ListedEntry}
      (h : Returns (NlDump.step (send (listRoutesRequest seq).bytes)) (.sending recvs) (.returned (.ok data)))
      (hwalk : Returns (Netlink.listStep if_indextoname table) (.start data) routes) :
      ListRoutes if_indextoname table seq send recvs (.ok routes)

/-- The handler of `RoutingManager::listRoutes`, with the routes that it has pushed. -/
def pushRoutes (libc : Libc) (table : UInt32) (routes : Access (List KernelRoute)) (nlh : List UInt8) :
    Access (List KernelRoute) := do
  let routes ← routes
  let more ← listRoutesHandler libc table nlh
  pure (routes ++ more)

/-- The request of `RoutingManager::listRoutes`. -/
def getRouteRequest (mySeq : UInt32) (family : Int32) : NlMsg where
  nlmsg_type := RTM_GETROUTE
  nlmsg_flags := NLM_F_REQUEST ||| NLM_F_DUMP
  nlmsg_seq := mySeq
  payload := family.toUInt32.toUInt8 :: List.replicate 11 0

inductive DumpError where
  | send (request : String) (errno : ℕ)
  | recvAll (e : RecvError)
  deriving DecidableEq, Repr

def DumpError.message (strerror : ℤ → String) : DumpError → String
  | .send request errno => request ++ " send: " ++ strerror errno
  | .recvAll e => e.message strerror

/-- What a dump of `RoutingManager` comes to: a request that is sent, and a handler for the answer.  Where
`send` fails it gives the `errno`. -/
inductive ManagerDump {α : Type} (request : String) (req : NlMsg) (handler : α → List UInt8 → α)
    (send : List UInt8 → Except ℕ Unit) (recvs : List Recv) (acc : α) : Except DumpError α → Prop
  | unsent {errno : ℕ} (h : send req.bytes = .error errno) :
      ManagerDump request req handler send recvs acc (.error (.send request errno))
  | failed {e : RecvError} (h : send req.bytes = .ok ())
      (hr : Returns (RecvAll.step req.nlmsg_seq handler) (.start recvs acc) (.failed e)) :
      ManagerDump request req handler send recvs acc (.error (.recvAll e))
  | success {acc' : α} (h : send req.bytes = .ok ())
      (hr : Returns (RecvAll.step req.nlmsg_seq handler) (.start recvs acc) (.success acc')) :
      ManagerDump request req handler send recvs acc (.ok acc')

/-- `RoutingManager::listRoutes` as one such dump. -/
abbrev ManagerRoutes (libc : Libc) (table mySeq : UInt32) (family : Int32)
    (send : List UInt8 → Except ℕ Unit) (recvs : List Recv) :
    Except DumpError (Access (List KernelRoute)) → Prop :=
  ManagerDump "RTM_GETROUTE" (getRouteRequest mySeq family) (pushRoutes libc table) send recvs (.ok [])

/-! ### The routes of a message -/

section Append

variable {nlh : List UInt8} {hdr : NlMsgHdr}

theorem rtMessage_append (hlen : hdr.nlmsg_len.toNat ≤ nlh.length) {msg : RtMessage}
    (h : rtMessage hdr nlh = .ok msg) (rest : List UInt8) : rtMessage hdr (nlh ++ rest) = .ok msg := by
  unfold rtMessage at h ⊢
  obtain ⟨family, hfamily, h⟩ := except_bind_ok.mp h
  obtain ⟨dst_len, hdst_len, h⟩ := except_bind_ok.mp h
  obtain ⟨tos, htos, h⟩ := except_bind_ok.mp h
  obtain ⟨table, htable, h⟩ := except_bind_ok.mp h
  obtain ⟨protocol, hprotocol, h⟩ := except_bind_ok.mp h
  obtain ⟨scope, hscope, h⟩ := except_bind_ok.mp h
  obtain ⟨type, htype, h⟩ := except_bind_ok.mp h
  obtain ⟨flags, hflags, h⟩ := except_bind_ok.mp h
  rw [byteAt_append hfamily, ok_bind, byteAt_append hdst_len, ok_bind, byteAt_append htos, ok_bind,
    byteAt_append htable, ok_bind, byteAt_append hprotocol, ok_bind, byteAt_append hscope, ok_bind,
    byteAt_append htype, ok_bind, u32At_append hflags, ok_bind, attrBytes_append hlen]
  exact h

variable {if_indextoname : UInt32 → Option Netlink.CString} {libc : Libc} {table : UInt32}

theorem listMessage_append (hlen : hdr.nlmsg_len.toNat ≤ nlh.length) {routes : List Netlink.ListedEntry}
    (h : Netlink.listMessage if_indextoname table hdr nlh = .ok routes) (rest : List UInt8) :
    Netlink.listMessage if_indextoname table hdr (nlh ++ rest) = .ok routes := by
  unfold Netlink.listMessage at h ⊢
  split_ifs at h ⊢
  · exact h
  obtain ⟨family, hfamily, h⟩ := except_bind_ok.mp h
  rw [byteAt_append hfamily, ok_bind]
  split_ifs at h ⊢
  · exact h
  obtain ⟨rtm, hrtm, h⟩ := except_bind_ok.mp h
  rw [rtMessage_append hlen hrtm, ok_bind]
  exact h

theorem listRoutesHandler_append (hheader : nlmsghdr nlh = .ok hdr) (hlen : hdr.nlmsg_len.toNat ≤ nlh.length)
    {routes : List KernelRoute} (h : listRoutesHandler libc table nlh = .ok routes) (rest : List UInt8) :
    listRoutesHandler libc table (nlh ++ rest) = .ok routes := by
  unfold listRoutesHandler at h ⊢
  rw [hheader, ok_bind] at h
  rw [nlmsghdr_append hheader, ok_bind]
  split_ifs at h ⊢
  · exact h
  obtain ⟨msg, hmsg, h⟩ := except_bind_ok.mp h
  rw [rtMessage_append hlen hmsg, ok_bind]
  exact h

end Append

/-- A route message is as long as its header. -/
def PaddedMsg.HasRtmsg (m : PaddedMsg) : Prop := m.hdr.nlmsg_type = RTM_NEWROUTE → 28 ≤ m.hdr.nlmsg_len.toNat

instance (m : PaddedMsg) : Decidable m.HasRtmsg := inferInstanceAs (Decidable (_ → _))

/-- What `list_routes` makes of a message. -/
def PaddedMsg.entries (if_indextoname : UInt32 → Option Netlink.CString) (table : UInt32) (m : PaddedMsg) :
    List Netlink.ListedEntry :=
  (Netlink.listMessage if_indextoname table m.hdr m.bytes).toOption.getD []

/-- What the handler of `RoutingManager::listRoutes` makes of a message. -/
def PaddedMsg.kernelRoutes (libc : Libc) (table : UInt32) (m : PaddedMsg) : List KernelRoute :=
  (listRoutesHandler libc table m.bytes).toOption.getD []

section Library

variable {if_indextoname : UInt32 → Option Netlink.CString} {table : UInt32}

theorem rtMessage_total (hdr : NlMsgHdr) {nlh : List UInt8} (h : 28 ≤ nlh.length) :
    ∃ msg, rtMessage hdr nlh = .ok msg := by
  obtain ⟨family, hfamily⟩ := byteAt_ok nlh (i := 16) (by omega)
  obtain ⟨dst_len, hdst_len⟩ := byteAt_ok nlh (i := 17) (by omega)
  obtain ⟨tos, htos⟩ := byteAt_ok nlh (i := 19) (by omega)
  obtain ⟨tbl, htbl⟩ := byteAt_ok nlh (i := 20) (by omega)
  obtain ⟨protocol, hprotocol⟩ := byteAt_ok nlh (i := 21) (by omega)
  obtain ⟨scope, hscope⟩ := byteAt_ok nlh (i := 22) (by omega)
  obtain ⟨type, htype⟩ := byteAt_ok nlh (i := 23) (by omega)
  obtain ⟨flags, hflags⟩ := u32At_ok nlh (i := 24) (by omega)
  rw [rtMessage, hfamily, ok_bind, hdst_len, ok_bind, htos, ok_bind, htbl, ok_bind, hprotocol, ok_bind, hscope,
    ok_bind, htype, ok_bind, hflags, ok_bind]
  exact ⟨_, rfl⟩

/-- The library reads every message that has its header, and nothing behind it. -/
theorem listMessage_entries {m : PaddedMsg} (h : m.HasRtmsg) (rest : List UInt8) :
    Netlink.listMessage if_indextoname table m.hdr (m.bytes ++ rest) =
      .ok (m.entries if_indextoname table) := by
  have htotal : ∃ routes, Netlink.listMessage if_indextoname table m.hdr m.bytes = .ok routes := by
    unfold Netlink.listMessage
    split_ifs with htype
    · exact ⟨[], rfl⟩
    have hlen := (h (not_not.mp htype)).trans m.length_le
    obtain ⟨family, hfamily⟩ := byteAt_ok m.bytes (i := 16) (by omega)
    rw [hfamily, ok_bind]
    split_ifs
    · exact ⟨[], rfl⟩
    obtain ⟨rtm, hrtm⟩ := rtMessage_total m.hdr hlen
    obtain ⟨attrs, hattrs⟩ := visits_rtaNext_total rtm.attrs
    rw [hrtm, ok_bind, hattrs]
    exact ⟨_, rfl⟩
  obtain ⟨routes, hroutes⟩ := htotal
  rw [PaddedMsg.entries, hroutes]
  exact listMessage_append m.length_le hroutes rest

/-- The walk over the collected messages lists what each of them adds. -/
theorem listStep_wire {msgs : List PaddedMsg} :
    ∀ {routes : List Netlink.ListedEntry}, (∀ m ∈ msgs, m.HasRtmsg) → (wire msgs).length < 2 ^ 32 →
      Returns (Netlink.listStep if_indextoname table) ⟨wire msgs, (wire msgs).length, routes⟩
        (routes ++ msgs.flatMap (PaddedMsg.entries if_indextoname table)) := by
  induction msgs with
  | nil =>
    rintro routes - -
    refine .done ?_
    rw [List.flatMap_nil, List.append_nil]
    rfl
  | cons m msgs ih =>
    intro routes hhas hlen
    obtain ⟨hm, hmsgs⟩ := List.forall_mem_cons.mp hhas
    have hwire : wire (m :: msgs) = m.bytes ++ wire msgs := List.flatMap_cons
    rw [hwire] at hlen ⊢
    have hlen' := hlen
    rw [List.length_append] at hlen'
    have hnext : ((m.bytes ++ wire msgs).length : ℤ) - m.bytes.length = (wire msgs).length := by
      rw [List.length_append]
      omega
    have hstep : Netlink.listStep if_indextoname table
        ⟨m.bytes ++ wire msgs, (m.bytes ++ wire msgs).length, routes⟩ =
          .ok (.again ⟨wire msgs, (wire msgs).length, routes ++ m.entries if_indextoname table⟩) := by
      rw [Netlink.listStep]
      dsimp only
      rw [m.nlmsgOk _ hlen, ok_bind]
      dsimp only
      rw [listMessage_entries hm, ok_bind, m.next_eq, List.drop_left, hnext]
      rfl
    rw [returns_again hstep, List.flatMap_cons, ← List.append_assoc]
    exact ih hmsgs (by omega)

end Library

/-! ### The listing of an answer -/

/-- The handler reads the message without leaving an attribute. -/
def PaddedMsg.HandlerReads (libc : Libc) (table : UInt32) (m : PaddedMsg) : Prop :=
  (listRoutesHandler libc table m.bytes).isOk = true

instance (libc : Libc) (table : UInt32) (m : PaddedMsg) : Decidable (m.HandlerReads libc table) :=
  inferInstanceAs (Decidable (_ = _))

/-- What the handler has pushed behind a message. -/
def pushed (libc : Libc) (table : UInt32) (routes : Access (List KernelRoute)) (m : PaddedMsg) :
    Access (List KernelRoute) :=
  (· ++ m.kernelRoutes libc table) <$> routes

theorem pushRoutes_handles {libc : Libc} {table : UInt32} {m : PaddedMsg} (h : m.HandlerReads libc table) :
    Handles (pushRoutes libc table) (pushed libc table) m := by
  intro acc tail
  obtain ⟨routes, hroutes⟩ := except_isOk.mp h
  have htail := listRoutesHandler_append m.header m.length_le hroutes tail
  cases acc with
  | error e => rfl
  | ok acc =>
    rw [pushRoutes, ok_bind, htail, ok_bind, pushed, PaddedMsg.kernelRoutes, hroutes]
    rfl

theorem foldl_pushed (libc : Libc) (table : UInt32) (msgs : List PaddedMsg) :
    ∀ routes : List KernelRoute, msgs.foldl (pushed libc table) (.ok routes) =
      .ok (routes ++ msgs.flatMap (PaddedMsg.kernelRoutes libc table)) := by
  induction msgs with
  | nil =>
    intro routes
    rw [List.flatMap_nil, List.append_nil]
    rfl
  | cons m msgs ih =>
    intro routes
    rw [List.flatMap_cons, ← List.append_assoc]
    exact ih _

section Answers

variable {a : PartedAnswer} {table seq : UInt32}

/-- `list_routes` on an answer. -/
theorem listRoutes_answer {if_indextoname : UInt32 → Option Netlink.CString} {ps : List DumpPart}
    {send : List UInt8 → Bool} (hsend : send (listRoutesRequest seq).bytes = true)
    (hparts : a.before = ps.map .part) (hmsgs : ∀ m ∈ a.msgs, m.Plain ∧ m.HasRtmsg)
    (hlen : (wire a.msgs).length < 2 ^ 32) : ListRoutes if_indextoname table seq send a.recvs
      (if a.error ≠ 0 then .error (.system (-a.error.toInt32))
        else .ok (a.msgs.flatMap (PaddedMsg.entries if_indextoname table))) := by
  have hdump := nlDump_collects a hparts fun m hm => (hmsgs m hm).1
  rw [NlDump.ending, ← hsend] at hdump
  split_ifs at hdump ⊢ with herror
  · exact .failed hdump
  · refine .listed hdump ?_
    rw [← List.nil_append (a.msgs.flatMap _)]
    exact listStep_wire (fun m hm => (hmsgs m hm).2) hlen

/-- `RoutingManager::listRoutes` on an answer. -/
theorem managerRoutes_answer {libc : Libc} {family : Int32} {send : List UInt8 → Except ℕ Unit}
    (hsend : send (getRouteRequest seq family).bytes = .ok ()) (hseq : a.mark.seq = seq)
    (hmulti : ∀ p, .part p ∈ a.before → p.Multi)
    (hmsgs : ∀ m ∈ a.own seq, m.Plain ∧ m.HandlerReads libc table) :
    ManagerRoutes libc table seq family send a.recvs
      (if a.error ≠ 0 then .error (.recvAll (.netlink (-a.error.toInt32)))
        else .ok (.ok ((a.own seq).flatMap (PaddedMsg.kernelRoutes libc table)))) := by
  have hall := recvAll_handles a hseq hmulti
    (fun m hm => ⟨(hmsgs m hm).1, pushRoutes_handles (hmsgs m hm).2⟩) (.ok [])
  rw [RecvAll.ending, foldl_pushed, List.nil_append] at hall
  split_ifs at hall ⊢ with herror
  · exact .failed hsend hall
  · exact .success hsend hall

end Answers

/-! ### Regular routes -/

/-- An IPv4 route with one next hop; only the default route comes without `RTA_DST`. -/
structure RegularRoute.SinglePath (r : RegularRoute) : Prop where
  family : r.rtm.rtm_family = AF_INET
  single : RTA_MULTIPATH ∉ r.attrs.map RtAttr.rta_type
  dst : RTA_DST ∈ r.attrs.map RtAttr.rta_type ∨ r.rtm.rtm_dst_len = 0

/-- The entry with its words as texts. -/
def listedKernelRoute (text : Netlink.CString → String) (e : Netlink.ListedEntry) : KernelRoute where
  destination := prefixText e.dst e.prefix_len
  gateway := if e.has_gateway then inetNtop e.gateway else ""
  interfaceName := text e.if_name
  interfaceIndex := e.if_index.toUInt32
  metric := e.metric
  prefixLen := e.prefix_len
  protocol := e.protocol
  type := e.type
  table := e.table
  scope := e.scope
  family := AF_INET

/-- Both programs ask one C library, which names no index that is not a positive `int`. -/
structure SameNames (libc : Libc) (if_indextoname : UInt32 → Option Netlink.CString)
    (text : Netlink.CString → String) : Prop where
  name : ∀ idx, libc.if_indextoname idx = (if_indextoname idx).map text
  positive : ∀ idx name, if_indextoname idx = some name → 0 < idx.toInt32
  empty : text [] = ""

theorem SameNames.index {libc : Libc} {if_indextoname : UInt32 → Option Netlink.CString}
    {text : Netlink.CString → String} (h : SameNames libc if_indextoname text) (idx : UInt32) :
    ifIndexToName libc idx = text (Netlink.indexToName if_indextoname idx.toInt32) := by
  rw [ifIndexToName, h.name]
  unfold Netlink.indexToName
  cases hname : if_indextoname idx with
  | none =>
    have hempty : text [] = "" := h.empty
    split_ifs
    · exact hempty.symm
    · show "" = text ((if_indextoname idx).getD [])
      rw [hname]
      exact hempty.symm
  | some name =>
    rw [if_neg (Int32.not_le.mpr (h.positive idx name hname))]
    show text name = text ((if_indextoname idx).getD [])
    rw [hname]
    rfl

/-! ### Attributes by their type -/

/-- The last attribute of a type is the one that is found. -/
theorem attrData_concat (attrs : List RtAttr) (a : RtAttr) (type : UInt16) :
    Netlink.attrData (attrs ++ [a]) type 4 =
      if a.rta_type = type then
        if h : a.data.length = 4 then some ⟨a.data, h⟩ else none
      else Netlink.attrData attrs type 4 := by
  by_cases htype : a.rta_type = type
  · simp [Netlink.attrData, htype]
  · simp [Netlink.attrData, htype]

theorem value_of_length {a : RtAttr} (h : a.data.length = 4) : a.value = some ⟨a.data, h⟩ :=
  value_of_word (word_items ⟨a.data, h⟩)

/-- What is found by type is what the message says. -/
structure FoundBy (attrs : List RtAttr) (m : RouteMessage) : Prop where
  dst : Netlink.attrData attrs RTA_DST 4 = m.dst
  gateway : Netlink.attrData attrs RTA_GATEWAY 4 = m.gateway
  oif : (Netlink.attrData attrs RTA_OIF 4).map wordU32 = m.oif
  priority : (Netlink.attrData attrs RTA_PRIORITY 4).map wordU32 = m.priority
  table : (Netlink.attrData attrs RTA_TABLE 4).map wordU32 = m.table
  single : m.multipath = []

theorem FoundBy.concat {attrs : List RtAttr} {m : RouteMessage} (h : FoundBy attrs m) {a : RtAttr}
    (hsize : a.rta_type ∈ [RTA_DST, RTA_OIF, RTA_GATEWAY, RTA_PRIORITY, RTA_TABLE] → a.data.length = 4)
    (hsingle : a.rta_type ≠ RTA_MULTIPATH) : FoundBy (attrs ++ [a]) (m.addAttr a) := by
  have hown : ∀ type, a.rta_type = type →
      type ∈ [RTA_DST, RTA_OIF, RTA_GATEWAY, RTA_PRIORITY, RTA_TABLE] →
        Netlink.attrData (attrs ++ [a]) type 4 = a.value := by
    rintro type rfl hmem
    rw [attrData_concat, if_pos rfl, dif_pos (hsize hmem), value_of_length (hsize hmem)]
  have hother : ∀ type, a.rta_type ≠ type →
      Netlink.attrData (attrs ++ [a]) type 4 = Netlink.attrData attrs type 4 := by
    intro type htype
    rw [attrData_concat, if_neg htype]
  have hword : ∀ type, a.rta_type ≠ type → (Netlink.attrData (attrs ++ [a]) type 4).map wordU32 =
      (Netlink.attrData attrs type 4).map wordU32 := fun type htype => congrArg _ (hother type htype)
  unfold RouteMessage.addAttr
  split_ifs with hdst hgw hoif hprio htable
  · refine ⟨hown _ hdst (by decide), (hother _ ?_).trans h.gateway, (hword _ ?_).trans h.oif,
      (hword _ ?_).trans h.priority, (hword _ ?_).trans h.table, h.single⟩
    all_goals rw [hdst]; decide
  · refine ⟨(hother _ ?_).trans h.dst, hown _ hgw (by decide), (hword _ ?_).trans h.oif,
      (hword _ ?_).trans h.priority, (hword _ ?_).trans h.table, h.single⟩
    all_goals rw [hgw]; decide
  · refine ⟨(hother _ ?_).trans h.dst, (hother _ ?_).trans h.gateway,
      congrArg _ (hown _ hoif (by decide)), (hword _ ?_).trans h.priority, (hword _ ?_).trans h.table, h.single⟩
    all_goals rw [hoif]; decide
  · refine ⟨(hother _ ?_).trans h.dst, (hother _ ?_).trans h.gateway, (hword _ ?_).trans h.oif,
      congrArg _ (hown _ hprio (by decide)), (hword _ ?_).trans h.table, h.single⟩
    all_goals rw [hprio]; decide
  · refine ⟨(hother _ ?_).trans h.dst, (hother _ ?_).trans h.gateway, (hword _ ?_).trans h.oif,
      (hword _ ?_).trans h.priority, congrArg _ (hown _ htable (by decide)), h.single⟩
    all_goals rw [htable]; decide
  · exact ⟨(hother _ hdst).trans h.dst, (hother _ hgw).trans h.gateway, (hword _ hoif).trans h.oif,
      (hword _ hprio).trans h.priority, (hword _ htable).trans h.table, h.single⟩

theorem foundBy_foldl {m : RouteMessage} (hbare : FoundBy [] m) (attrs : List RtAttr) :
    (∀ a ∈ attrs, a.rta_type ∈ [RTA_DST, RTA_OIF, RTA_GATEWAY, RTA_PRIORITY, RTA_TABLE] → a.data.length = 4) →
      (∀ a ∈ attrs, a.rta_type ≠ RTA_MULTIPATH) → FoundBy attrs (attrs.foldl RouteMessage.addAttr m) := by
  induction attrs using List.reverseRecOn with
  | nil => exact fun _ _ => hbare
  | append_singleton attrs a ih =>
    intro hsize hsingle
    obtain ⟨hsizes, ha⟩ := List.forall_mem_append.mp hsize
    obtain ⟨hsingles, ha'⟩ := List.forall_mem_append.mp hsingle
    rw [List.foldl_append]
    exact (ih hsizes hsingles).concat (ha a (List.mem_singleton_self a)) (ha' a (List.mem_singleton_self a))

/-- The attributes leave what the header says. -/
theorem foldl_addAttr_fixed (attrs : List RtAttr) : ∀ m : RouteMessage,
    (attrs.foldl RouteMessage.addAttr m).dst_len = m.dst_len ∧
      (attrs.foldl RouteMessage.addAttr m).table8 = m.table8 ∧
      (attrs.foldl RouteMessage.addAttr m).protocol = m.protocol ∧
      (attrs.foldl RouteMessage.addAttr m).scope = m.scope ∧
      (attrs.foldl RouteMessage.addAttr m).type = m.type := by
  induction attrs with
  | nil => exact fun m => ⟨rfl, rfl, rfl, rfl, rfl⟩
  | cons a attrs ih =>
    intro m
    have hone : (m.addAttr a).dst_len = m.dst_len ∧ (m.addAttr a).table8 = m.table8 ∧
        (m.addAttr a).protocol = m.protocol ∧ (m.addAttr a).scope = m.scope ∧
        (m.addAttr a).type = m.type := by
      unfold RouteMessage.addAttr
      split_ifs <;> exact ⟨rfl, rfl, rfl, rfl, rfl⟩
    obtain ⟨hlen, htable, hprotocol, hscope, htype⟩ := hone
    have hrest := ih (m.addAttr a)
    rw [hlen, htable, hprotocol, hscope, htype] at hrest
    exact hrest

namespace RegularRoute

variable {r : RegularRoute}

theorem SinglePath.size (h : r.SinglePath) {a : RtAttr} (ha : a ∈ r.attrs)
    (htype : a.rta_type ∈ [RTA_DST, RTA_OIF, RTA_GATEWAY, RTA_PRIORITY, RTA_TABLE]) : a.data.length = 4 := by
  have hregular := r.regular a ha
  by_cases haddr : a.rta_type ∈ [RTA_DST, RTA_GATEWAY]
  · exact (hregular.address haddr).1 h.family
  · refine hregular.word ?_
    simp only [List.mem_cons, List.not_mem_nil, or_false] at htype haddr ⊢
    tauto

theorem SinglePath.foundBy (h : r.SinglePath) :
    FoundBy r.attrs (r.attrs.foldl RouteMessage.addAttr r.rtMessage.header) :=
  foundBy_foldl ⟨rfl, rfl, rfl, rfl, rfl, rfl⟩ r.attrs (fun _ ha => h.size ha)
    fun _ ha htype => h.single (List.mem_map.mpr ⟨_, ha, htype⟩)

/-- The handler on a route message with one next hop. -/
theorem SinglePath.handler (h : r.SinglePath) (libc : Libc) (table : UInt32)
    (htype : r.nlh.nlmsg_type = RTM_NEWROUTE) :
    listRoutesHandler libc table r.msg.bytes = .ok ((ListLocals.of libc
      (r.attrs.foldl RouteMessage.addAttr r.rtMessage.header)).routes libc table) := by
  refine listRoutesHandler_bytes htype r.body r.fits ?_ table
  have hlocals : r.rtm.locals = ListLocals.of libc r.rtMessage.header := by
    rw [RtMsg.locals, h.family]
    rfl
  have hwell : ∀ a ∈ r.attrs, a.WellFormed := fun a ha =>
    ⟨fun hword => (h.size ha hword).ge, fun hmulti => absurd (List.mem_map.mpr ⟨a, ha, hmulti⟩) h.single⟩
  rw [hlocals]
  refine foldlM_refines (listAttr libc) RouteMessage.addAttr (ListLocals.of libc)
    (fun rest _ => ∀ a ∈ rest, a.WellFormed) (fun a rest m hrest => ?_) r.attrs r.rtMessage.header hwell
  obtain ⟨ha, hrest⟩ := List.forall_mem_cons.mp hrest
  exact ⟨listAttr_of libc ha m, hrest⟩

/-- A destination that is there is found. -/
theorem SinglePath.found_dst (h : r.SinglePath) :
    (∃ dst, Netlink.attrData r.attrs RTA_DST 4 = some dst) ∨ r.rtm.rtm_dst_len = 0 := by
  refine h.dst.imp_left fun hmem => ?_
  obtain ⟨a, ha, htype⟩ := List.mem_map.mp hmem
  have hsome : (r.attrs.reverse.find? fun a => a.rta_type = RTA_DST).isSome := by
    rw [List.find?_isSome]
    exact ⟨a, List.mem_reverse.mpr ha, decide_eq_true htype⟩
  obtain ⟨b, hb⟩ := Option.isSome_iff_exists.mp hsome
  have hlen : b.data.length = 4 := by
    refine h.size (List.mem_reverse.mp (List.mem_of_find?_eq_some hb)) ?_
    have hbtype : b.rta_type = RTA_DST := by simpa using List.find?_some hb
    rw [hbtype]
    exact List.mem_cons_self
  exact ⟨⟨b.data, hlen⟩, by rw [Netlink.attrData, hb, Option.bind_some, dif_pos hlen]⟩

/-- **Of a route with one next hop both parsers make the same route**, if the table passes. -/
theorem SinglePath.same (h : r.SinglePath) {libc : Libc} {if_indextoname : UInt32 → Option Netlink.CString}
    {text : Netlink.CString → String} (hnames : SameNames libc if_indextoname text) (table : UInt32) :
    listRoutesHandler libc table r.msg.bytes =
      .ok ((Netlink.listed if_indextoname table r.nlh r.rtm r.attrs).map (listedKernelRoute text)) := by
  by_cases htype : r.nlh.nlmsg_type = RTM_NEWROUTE
  swap
  · rw [Netlink.listed, if_pos (.inl htype), listRoutesHandler, msg, nlmsghdr_bytes, ok_bind]
    exact if_pos htype
  have hmine : ¬(r.nlh.nlmsg_type ≠ RTM_NEWROUTE ∨ r.rtm.rtm_family ≠ AF_INET) := by
    simp [htype, h.family]
  have hfound := h.foundBy
  have hheader := foldl_addAttr_fixed r.attrs r.rtMessage.header
  rw [h.handler libc table htype, Netlink.listed, if_neg hmine]
  generalize r.attrs.foldl RouteMessage.addAttr r.rtMessage.header = m at hfound hheader
  obtain ⟨hlen, htable8, hprotocol, hscope, hroutetype⟩ := hheader
  have hdst : (if m.dst.isSome then (m.dst.map fun dst => prefixText dst m.dst_len).getD "" else "0.0.0.0/0") =
      prefixText (m.dst.getD anyAddr) m.dst_len := by
    cases hd : m.dst with
    | some dst => rfl
    | none =>
      have hzero : m.dst_len = 0 := by
        refine hlen.trans (h.found_dst.resolve_left ?_)
        rintro ⟨dst, hsome⟩
        rw [hfound.dst, hd] at hsome
        cases hsome
      rw [hzero]
      rfl
  have hgateway : gatewayString m.gateway =
      if m.gateway.isSome then inetNtop (m.gateway.getD anyAddr) else "" := by
    cases m.gateway with
    | none => rfl
    | some gateway => rfl
  have hname : m.ifnameText (ifIndexToName libc) =
      text ((m.oif.map fun idx => Netlink.indexToName if_indextoname idx.toInt32).getD []) := by
    unfold RouteMessage.ifnameText
    cases m.oif with
    | none => exact hnames.empty.symm
    | some idx => exact hnames.index idx
  have hindex : m.oif.getD 0 = ((m.oif.map UInt32.toInt32).getD 0).toUInt32 := by
    cases m.oif with
    | none => rfl
    | some idx => rfl
  have hroute : (if m.dst.isSome then (ListLocals.of libc m).route
      else { (ListLocals.of libc m).route with destination := "0.0.0.0/0" }) =
      listedKernelRoute text (Netlink.routeEntry if_indextoname (r.nlh.rtMessage r.rtm r.attrs) r.attrs) := by
    unfold listedKernelRoute Netlink.routeEntry
    simp only [hfound.dst, hfound.gateway, hfound.oif, hfound.priority, hfound.table, ← hgateway, ← hname,
      ← hindex]
    change _ = ({ destination := prefixText (m.dst.getD anyAddr) r.rtMessage.header.dst_len, .. } : KernelRoute)
    rw [← hlen, ← hdst]
    split_ifs
    · simp only [ListLocals.of, KernelRoute.mk.injEq, true_and]
      exact ⟨hlen, hprotocol, hroutetype, by rw [htable8]; rfl, hscope, trivial⟩
    · simp only [ListLocals.of, KernelRoute.mk.injEq, true_and]
      exact ⟨hlen, hprotocol, hroutetype, by rw [htable8]; rfl, hscope, trivial⟩
  have hpass : (ListLocals.of libc m).routes libc table =
      filtered table (Netlink.routeEntry if_indextoname (r.nlh.rtMessage r.rtm r.attrs) r.attrs).table
        (listedKernelRoute text (Netlink.routeEntry if_indextoname (r.nlh.rtMessage r.rtm r.attrs) r.attrs)) := by
    have hhops : (ListLocals.of libc m).nexthops = [] := by rw [ListLocals.of, hfound.single, List.map_nil]
    rw [ListLocals.routes, hhops]
    refine (congrArg (List.filter _) (congrArg (· :: []) hroute)).trans ?_
    rw [List.filter_cons, List.filter_nil, filtered]
    generalize Netlink.routeEntry if_indextoname (r.nlh.rtMessage r.rtm r.attrs) r.attrs = e
    have hiff : (decide (table = RT_TABLE_UNSPEC) || decide (e.table = table)) = true ↔
        table = RT_TABLE_UNSPEC ∨ table = e.table := by
      rw [Bool.or_eq_true, decide_eq_true_eq, decide_eq_true_eq, @eq_comm _ e.table]
    exact if_congr hiff rfl rfl
  rw [hpass, filtered, filtered]
  split_ifs
  · rfl
  · rfl

end RegularRoute

/-! ### One dump for both -/

/-- A route of the kernel as a message that a dump can hold. -/
structure DumpedRoute extends RegularRoute where
  new : nlh.nlmsg_type = RTM_NEWROUTE
  path : toRegularRoute.SinglePath
  short : toRegularRoute.msg.nlmsg_len + 3 < 2 ^ 32

theorem NlMsg.toPadded_seq {nlh : NlMsg} (h : nlh.nlmsg_len + 3 < 2 ^ 32) :
    (nlh.toPadded h).seq = nlh.nlmsg_seq := by
  have hread : u32At (nlh.toPadded h).bytes 8 = .ok nlh.nlmsg_seq := by
    refine u32At_append ?_ _
    simp [NlMsg.bytes, hostU32, hostU16, writeBe32, writeBe16, u32At, byteAt, ok_bind, joinBe32_write]
  rw [PaddedMsg.seq, hread]
  rfl

theorem NlMsg.toPadded_length {nlh : NlMsg} (h : nlh.nlmsg_len + 3 < 2 ^ 32) :
    (nlh.toPadded h).bytes.length = align4 nlh.nlmsg_len := by
  rw [(nlh.toPadded h).padded]
  exact congrArg align4 (NlMsg.hdr_len h)

namespace DumpedRoute

variable (r : DumpedRoute) (seq : UInt32)

/-- The route in an answer to the request `seq`. -/
def answer : RegularRoute where
  nlh := { r.nlh with nlmsg_seq := seq }
  rtm := r.rtm
  attrs := r.attrs
  body := r.body
  distinct := r.distinct
  regular := r.regular
  fits := r.fits

def message : PaddedMsg := (r.answer seq).msg.toPadded r.short

/-- The entry that the library makes of the route. -/
def entry (if_indextoname : UInt32 → Option Netlink.CString) : Netlink.ListedEntry :=
  Netlink.routeEntry if_indextoname r.rtMessage r.attrs

theorem answer_len : (r.answer seq).msg.hdr.nlmsg_len.toNat = (r.answer seq).msg.bytes.length := by
  rw [NlMsg.bytes_length]
  exact NlMsg.hdr_len r.short

theorem message_seq : (r.message seq).seq = seq :=
  @NlMsg.toPadded_seq (r.answer seq).msg r.short

theorem message_length : (r.message seq).bytes.length = align4 r.msg.nlmsg_len :=
  @NlMsg.toPadded_length (r.answer seq).msg r.short

theorem message_plain : (r.message seq).Plain := by
  have htype : (r.message seq).hdr.nlmsg_type = RTM_NEWROUTE := r.new
  rw [PaddedMsg.Plain, htype]
  decide

theorem message_hasRtmsg : (r.message seq).HasRtmsg := by
  intro _
  have hlen : (r.message seq).hdr.nlmsg_len.toNat = (r.answer seq).msg.nlmsg_len := NlMsg.hdr_len r.short
  have hbody : r.nlh.payload.length = 12 := by
    rw [r.body]
    rfl
  rw [hlen]
  show 28 ≤ 16 + (r.nlh.payload ++ r.attrs.flatMap RtAttr.bytes).length
  rw [List.length_append, hbody]
  omega

variable {libc : Libc} {if_indextoname : UInt32 → Option Netlink.CString} {text : Netlink.CString → String}

theorem listed_answer (table : UInt32) : Netlink.listed if_indextoname table (r.answer seq).nlh r.rtm r.attrs =
    filtered table (r.entry if_indextoname).table (r.entry if_indextoname) := by
  have hmine : ¬(r.nlh.nlmsg_type ≠ RTM_NEWROUTE ∨ r.rtm.rtm_family ≠ AF_INET) := by
    simp [r.new, r.path.family]
  exact if_neg hmine

theorem message_entries (table : UInt32) : (r.message seq).entries if_indextoname table =
    filtered table (r.entry if_indextoname).table (r.entry if_indextoname) := by
  have hlen := (r.answer_len seq).le
  have hmsg : Netlink.listMessage if_indextoname table (r.answer seq).msg.hdr (r.answer seq).msg.bytes = _ :=
    Netlink.listMessage_bytes (r.answer seq).body r.attrs (r.answer seq).fits table
  have hread := listMessage_append hlen hmsg
    (List.replicate (align4 (r.answer seq).msg.nlmsg_len - (r.answer seq).msg.nlmsg_len) 0)
  rw [← r.listed_answer seq table, PaddedMsg.entries]
  exact congrArg (fun x => (Except.toOption x).getD []) hread

theorem message_handler (hnames : SameNames libc if_indextoname text) (table : UInt32) :
    listRoutesHandler libc table (r.message seq).bytes =
      .ok ((filtered table (r.entry if_indextoname).table (r.entry if_indextoname)).map
        (listedKernelRoute text)) := by
  have hlen := (r.answer_len seq).le
  have hpath : (r.answer seq).SinglePath := ⟨r.path.family, r.path.single, r.path.dst⟩
  rw [← r.listed_answer seq table]
  exact listRoutesHandler_append (nlmsghdr_bytes _) hlen (hpath.same hnames table) _

end DumpedRoute

/-- An answer with these routes as `nl_dump` can get it, which no interruption may disturb. -/
structure PartedAnswer.ToLibrary (a : PartedAnswer) (rs : List DumpedRoute) (seq : UInt32) : Prop where
  parts : ∃ ps : List DumpPart, a.before = ps.map .part
  msgs : a.msgs = rs.map (·.message seq)
  short : (wire a.msgs).length < 2 ^ 32
  success : a.error = 0

/-- An answer with these routes as `recvAll` can get it, among interruptions and answers to other requests. -/
structure PartedAnswer.ToManager (a : PartedAnswer) (rs : List DumpedRoute) (seq : UInt32) : Prop where
  multi : ∀ p, .part p ∈ a.before → p.Multi
  own : a.own seq = rs.map (·.message seq)
  mark : a.mark.seq = seq
  success : a.error = 0

/-! ### A dump of one route -/

/-- 10.0.0.0/8 via 10.0.0.1 on interface 2. -/
def viaEth0 : DumpedRoute where
  nlh := ⟨RTM_NEWROUTE, NLM_F_MULTI, 0, [2, 8, 0, 0, 254, 4, 0, 1, 0, 0, 0, 0]⟩
  rtm :=
    { rtm_family := AF_INET
      rtm_dst_len := 8
      rtm_src_len := 0
      rtm_tos := 0
      rtm_table := 254
      rtm_protocol := 4
      rtm_scope := 0
      rtm_type := 1
      rtm_flags := 0 }
  attrs := [wordAttr RTA_DST (ipv4 10 0 0 0), wordAttr RTA_GATEWAY (ipv4 10 0 0 1), u32Attr RTA_OIF 2]
  body := rfl
  distinct := by decide
  regular := by
    refine List.forall_mem_cons.mpr ⟨wordAttr_regular (by decide) _, List.forall_mem_cons.mpr
      ⟨wordAttr_regular (by decide) _, List.forall_mem_singleton.mpr (wordAttr_regular (by decide) _)⟩⟩
  fits := by decide
  new := rfl
  path := ⟨rfl, by decide, .inl (by decide)⟩
  short := by decide

/-- The end of an answer. -/
def dumpDone (seq : UInt32) : NlMsg := { doneMsg with nlmsg_seq := seq }

theorem dumpDone_short (seq : UInt32) : (dumpDone seq).nlmsg_len + 3 < 2 ^ 32 := by
  show 20 + 3 < 2 ^ 32
  decide

def doneAnswer (seq : UInt32) : PaddedMsg := (dumpDone seq).toPadded (dumpDone_short seq)

theorem doneAnswer_seq (seq : UInt32) : (doneAnswer seq).seq = seq :=
  NlMsg.toPadded_seq (dumpDone_short seq)

/-- The route takes 52 bytes. -/
theorem viaEth0_length (seq : UInt32) : (viaEth0.message seq).bytes.length = 52 :=
  (viaEth0.message_length seq).trans (by decide)

theorem doneAnswer_length (seq : UInt32) : (doneAnswer seq).bytes.length = 20 :=
  (NlMsg.toPadded_length (dumpDone_short seq)).trans (show align4 20 = 20 from rfl)

/-- The route and the mark in one datagram, behind these. -/
def oneRouteAnswer (before : List PartArrival) (seq : UInt32) : PartedAnswer where
  before := before
  last :=
    { msgs := [viaEth0.message seq, doneAnswer seq]
      nonempty := by simp
      fits := by simp [wire, viaEth0_length, doneAnswer_length, kNlBufSize] }
  pre := [viaEth0.message seq]
  mark := doneAnswer seq
  lost := []
  split := rfl
  error := 0
  ends := .done rfl
  after := []

/-- The route in an answer to request 1, which nobody has read. -/
def staleRoute : DumpPart where
  msgs := [viaEth0.message 1]
  nonempty := by simp
  fits := by simp [wire, viaEth0_length, kNlBufSize]

theorem staleRoute_multi : staleRoute.Multi := by
  intro m hm
  obtain rfl := Option.some.inj hm
  exact (by decide : NLM_F_MULTI &&& NLM_F_MULTI ≠ 0)

theorem oneRoute_library : (oneRouteAnswer [] 1).ToLibrary [viaEth0] 1 where
  parts := ⟨[], rfl⟩
  msgs := rfl
  short := by simp [PartedAnswer.msgs, oneRouteAnswer, wire, viaEth0_length]
  success := rfl

theorem oneRoute_manager :
    (oneRouteAnswer [.interrupted, .part staleRoute] 2).ToManager [viaEth0] 2 where
  multi p hp := by
    have heq : p = staleRoute := by simpa [oneRouteAnswer] using hp
    rw [heq]
    exact staleRoute_multi
  own := by
    simp [PartedAnswer.own, PartedAnswer.msgs, oneRouteAnswer, PartArrival.msgs, staleRoute,
      DumpedRoute.message_seq]
  mark := doneAnswer_seq 2
  success := rfl

/-- A name as text. -/
def nameText (name : Netlink.CString) : String := String.ofList (name.map fun b => Char.ofNat b.toNat)

theorem eth0_sameNames : SameNames oneInterface Netlink.eth0Name nameText where
  name idx := by
    show (if idx = 2 then some "eth0" else none) = (if idx = 2 then some Netlink.eth0 else none).map nameText
    split_ifs
    · rfl
    · rfl
  positive idx name h := by
    unfold Netlink.eth0Name at h
    split_ifs at h with heq
    rw [heq]
    decide
  empty := rfl

/-! ### The listings side by side -/

/-- `list_routes` returns the entries of the routes in their order. -/
theorem listRoutes_dumped {if_indextoname : UInt32 → Option Netlink.CString} {rs : List DumpedRoute}
    {a : PartedAnswer} {seq : UInt32} (ha : a.ToLibrary rs seq) {send : List UInt8 → Bool}
    (hsend : send (listRoutesRequest seq).bytes = true) (table : UInt32) :
    ListRoutes if_indextoname table seq send a.recvs (.ok (rs.flatMap fun r =>
      filtered table (r.entry if_indextoname).table (r.entry if_indextoname))) := by
  obtain ⟨ps, hps⟩ := ha.parts
  have hmsgs : ∀ m ∈ a.msgs, m.Plain ∧ m.HasRtmsg := by
    rw [ha.msgs]
    exact List.forall_mem_map.mpr fun r _ => ⟨r.message_plain seq, r.message_hasRtmsg seq⟩
  have hlist := @listRoutes_answer a table seq if_indextoname ps send hsend hps hmsgs ha.short
  rw [if_neg (not_not.mpr ha.success), ha.msgs, List.flatMap_map] at hlist
  simpa only [DumpedRoute.message_entries] using hlist

/-- **The two listings agree**: where the kernel answers both with the same IPv4 routes of one next hop each, in
whatever datagrams, `list_routes` returns their entries in this order, and `RoutingManager::listRoutes` the
same routes with their words as texts. -/
theorem route_listings_agree {libc : Libc} {if_indextoname : UInt32 → Option Netlink.CString}
    {text : Netlink.CString → String} (hnames : SameNames libc if_indextoname text) {rs : List DumpedRoute}
    {a a' : PartedAnswer} {seq mySeq : UInt32} (ha : a.ToLibrary rs seq) (ha' : a'.ToManager rs mySeq)
    {send : List UInt8 → Bool} (hsend : send (listRoutesRequest seq).bytes = true) {family : Int32}
    {send' : List UInt8 → Except ℕ Unit} (hsend' : send' (getRouteRequest mySeq family).bytes = .ok ())
    (table : UInt32) :
    ∃ entries, entries = rs.flatMap (fun r =>
        filtered table (r.entry if_indextoname).table (r.entry if_indextoname)) ∧
      ListRoutes if_indextoname table seq send a.recvs (.ok entries) ∧
      ManagerRoutes libc table mySeq family send' a'.recvs (.ok (.ok (entries.map (listedKernelRoute text)))) := by
  refine ⟨_, rfl, listRoutes_dumped ha hsend table, ?_⟩
  have hmsgs : ∀ m ∈ a'.own mySeq, m.Plain ∧ m.HandlerReads libc table := by
    rw [ha'.own]
    refine List.forall_mem_map.mpr fun r _ => ⟨r.message_plain mySeq, ?_⟩
    rw [PaddedMsg.HandlerReads, r.message_handler mySeq hnames table]
    rfl
  have hlist := managerRoutes_answer hsend' ha'.mark ha'.multi hmsgs
  rw [if_neg (not_not.mpr ha'.success), ha'.own, List.flatMap_map] at hlist
  have hroutes : ∀ r : DumpedRoute, (r.message mySeq).kernelRoutes libc table =
      (filtered table (r.entry if_indextoname).table (r.entry if_indextoname)).map
        (listedKernelRoute text) := by
    intro r
    rw [PaddedMsg.kernelRoutes, r.message_handler mySeq hnames table]
    rfl
  rw [List.map_flatMap]
  simpa only [hroutes] using hlist

/-- The library asks on a socket of its own, the client on one with a stale answer. -/
theorem route_listings_agree_oneRoute :
    ∃ entries, entries = [viaEth0.entry Netlink.eth0Name] ∧
      ListRoutes Netlink.eth0Name RT_TABLE_UNSPEC 1 (fun _ => true) (oneRouteAnswer [] 1).recvs (.ok entries) ∧
      ManagerRoutes oneInterface RT_TABLE_UNSPEC 2 (familyInt AF_INET) (fun _ => .ok ())
        (oneRouteAnswer [.interrupted, .part staleRoute] 2).recvs
        (.ok (.ok (entries.map (listedKernelRoute nameText)))) :=
  route_listings_agree eth0_sameNames oneRoute_library oneRoute_manager rfl rfl RT_TABLE_UNSPEC

end Rtsrv.Client
