import Rtsrv.Client.LinkMessages
import Rtsrv.Lib.Join

/-!
# Rtsrv.Client.Interfaces — the two listings of interfaces (`routing.cpp`, `unix_domain/lib/netlink.cpp`)

`RoutingManager::listInterfaces` makes two dumps: the second hands each address to the first interface with its
index.  The library dumps interfaces and addresses apart.  What the client lists is what the library lists,
joined on the index.
-/

namespace Rtsrv.Client

open Lib CmdProto

def AF_UNSPEC : UInt8 := 0

def RTM_GETLINK : UInt16 := 18
def RTM_GETADDR : UInt16 := 22

/-! ### `RoutingManager` -/

/-- The request of `dumpLinks` and of `dumpAddrs`, with an `rtgenmsg`. -/
def rtgenRequest (nlmsg_type : UInt16) (mySeq : UInt32) : NlMsg :=
  ⟨nlmsg_type, NLM_F_REQUEST ||| NLM_F_DUMP, mySeq, [AF_UNSPEC]⟩

/-- The handler of `dumpLinks`, with the interfaces that it has pushed. -/
def pushLinks (ifaces : Access (List NetworkInterface)) (nlh : List UInt8) : Access (List NetworkInterface) := do
  let ifaces ← ifaces
  let more ← dumpLinksHandler nlh
  pure (ifaces ++ more)

/-- Addresses are looked up by the index of their interface. -/
def addressJoin : Join (UInt32 × InterfaceAddress) NetworkInterface UInt32 where
  keyOf := Prod.fst
  key := NetworkInterface.index
  push iface addr := { iface with addresses := iface.addresses ++ [addr.2] }
  key_push _ _ := rfl

/-- The handler of `dumpAddrs`, with the interfaces. -/
def pushAddrs (libc : Libc) (ifaces : Access (List NetworkInterface)) (nlh : List UInt8) :
    Access (List NetworkInterface) := do
  let ifaces ← ifaces
  match ← dumpAddrsHandler libc nlh with
  | none => pure ifaces
  | some addr => pure (addressJoin.attach addr ifaces)

/-- What `send` and the calls of `recv` come to in a dump. -/
structure Exchange where
  send : List UInt8 → Except ℕ Unit
  recvs : List Recv

abbrev DumpLinks (mySeq : UInt32) (x : Exchange) : Except DumpError (Access (List NetworkInterface)) → Prop :=
  ManagerDump "RTM_GETLINK" (rtgenRequest RTM_GETLINK mySeq) pushLinks x.send x.recvs (.ok [])

abbrev DumpAddrs (libc : Libc) (mySeq : UInt32) (x : Exchange) (ifaces : Access (List NetworkInterface)) :
    Except DumpError (Access (List NetworkInterface)) → Prop :=
  ManagerDump "RTM_GETADDR" (rtgenRequest RTM_GETADDR mySeq) (pushAddrs libc) x.send x.recvs ifaces

/-- What `listInterfaces` returns, with the next sequence number and its two dumps. -/
inductive ListInterfaces (libc : Libc) (seq_ : UInt32) (links addrs : Exchange) :
    Except DumpError (Access (List NetworkInterface)) → Prop
  | noLinks {e : DumpError} (h : DumpLinks seq_ links (.error e)) : ListInterfaces libc seq_ links addrs (.error e)
  | noAddrs {ifaces : Access (List NetworkInterface)} {e : DumpError} (h : DumpLinks seq_ links (.ok ifaces))
      (haddrs : DumpAddrs libc (seq_ + 1) addrs ifaces (.error e)) :
      ListInterfaces libc seq_ links addrs (.error e)
  | listed {ifaces ifaces' : Access (List NetworkInterface)} (h : DumpLinks seq_ links (.ok ifaces))
      (haddrs : DumpAddrs libc (seq_ + 1) addrs ifaces (.ok ifaces')) :
      ListInterfaces libc seq_ links addrs (.ok ifaces')

inductive InterfaceError where
  | dump (e : DumpError)
  | notFound (name : Netlink.CString)
  deriving DecidableEq, Repr

def InterfaceError.message (strerror : ℤ → String) (text : Netlink.CString → String) : InterfaceError → String
  | .dump e => e.message strerror
  | .notFound name => "interface '" ++ text name ++ "' not found"

/-- `getInterface`, on what `listInterfaces` returns. -/
def getInterface (name : Netlink.CString) (ifaces : Except DumpError (List NetworkInterface)) :
    Except InterfaceError NetworkInterface :=
  match ifaces with
  | .error e => .error (.dump e)
  | .ok ifaces =>
    match ifaces.find? fun iface => iface.name = name with
    | none => .error (.notFound name)
    | some iface => .ok iface

def isInterfaceUp (name : Netlink.CString) (ifaces : Except DumpError (List NetworkInterface)) :
    Except InterfaceError Bool :=
  NetworkInterface.isUp <$> getInterface name ifaces

end Rtsrv.Client

namespace Rtsrv.Netlink

open Lib CmdProto Client

/-! ### The library -/

/-- The state of a loop over the messages that `nl_dump` has collected. -/
structure DumpWalk (α : Type) where
  nlh : List UInt8
  remaining : ℤ
  found : List α

def DumpWalk.start {α : Type} (data : List UInt8) : DumpWalk α := ⟨data, data.length, []⟩

/-- A round of such a loop, with what it adds for a message. -/
def walkStep {α : Type} (message : NlMsgHdr → List UInt8 → Access (List α)) (w : DumpWalk α) :
    Access (Round (DumpWalk α) (List α)) := do
  match ← nlmsgOk w.nlh w.remaining with
  | none => pure (.done w.found)
  | some hdr => do
    let more ← message hdr w.nlh
    let next := (nlmsgAlign hdr.nlmsg_len).toNat
    pure (.again ⟨w.nlh.drop next, w.remaining - next, w.found ++ more⟩)

/-- The request of `list_interfaces`. -/
def listInterfacesRequest (seq : UInt32) : NlMsg :=
  { NlMsg.init RTM_GETLINK NLM_F_DUMP seq with
    payload := IfInfoMsg.bytes
      { ifi_family := AF_UNSPEC
        ifi_type := 0
        ifi_index := 0
        ifi_flags := 0
        ifi_change := 0 } }

/-- The request of `list_interface_addresses`. -/
def listAddressesRequest (seq : UInt32) : NlMsg :=
  { NlMsg.init RTM_GETADDR NLM_F_DUMP seq with
    payload := IfAddrMsg.bytes
      { ifa_family := AF_INET
        ifa_prefixlen := 0
        ifa_flags := 0
        ifa_scope := 0
        ifa_index := 0 } }

/-- What `list_interfaces` returns, on a socket that is open. -/
inductive ListInterfaces (seq : UInt32) (send : List UInt8 → Bool) (recvs : List Recv) :
    Except TransactError (List InterfaceInfo) → Prop
  | failed {e : TransactError} (h : Returns (NlDump.step (send (listInterfacesRequest seq).bytes))
      (.sending recvs) (.returned (.error e))) : ListInterfaces seq send recvs (.error e)
  | listed {data : List UInt8} {ifaces : List InterfaceInfo}
      (h : Returns (NlDump.step (send (listInterfacesRequest seq).bytes)) (.sending recvs) (.returned (.ok data)))
      (hwalk : Returns (walkStep linkMessage) (.start data) ifaces) : ListInterfaces seq send recvs (.ok ifaces)

inductive InterfaceError where
  | dump (e : TransactError)
  | InterfaceNotFound
  deriving DecidableEq, Repr

/-- `get_interface`, on what `list_interfaces` returns. -/
def getInterface (name : CString) (ifaces : Except TransactError (List InterfaceInfo)) :
    Except InterfaceError InterfaceInfo :=
  match ifaces with
  | .error e => .error (.dump e)
  | .ok ifaces =>
    match ifaces.find? fun iface => iface.name = name with
    | none => .error .InterfaceNotFound
    | some iface => .ok iface

/-- What `list_interface_addresses` returns, on a socket that is open: the name is looked up behind the dump. -/
inductive ListAddresses (if_nametoindex : CString → Option UInt32) (if_indextoname : UInt32 → Option CString)
    (if_name : CString) (seq : UInt32) (send : List UInt8 → Bool) (recvs : List Recv) :
    Except InterfaceError (List IfAddrEntry) → Prop
  | failed {e : TransactError} (h : Returns (NlDump.step (send (listAddressesRequest seq).bytes))
      (.sending recvs) (.returned (.error e))) :
      ListAddresses if_nametoindex if_indextoname if_name seq send recvs (.error (.dump e))
  | unknown {data : List UInt8} {e : RouteError} (h : Returns (NlDump.step (send (listAddressesRequest seq).bytes))
      (.sending recvs) (.returned (.ok data))) (hname : nameToIndex if_nametoindex if_name = .error e) :
      ListAddresses if_nametoindex if_indextoname if_name seq send recvs (.error .InterfaceNotFound)
  | listed {data : List UInt8} {idx : UInt32} {addrs : List IfAddrEntry}
      (h : Returns (NlDump.step (send (listAddressesRequest seq).bytes)) (.sending recvs) (.returned (.ok data)))
      (hname : nameToIndex if_nametoindex if_name = .ok idx)
      (hwalk : Returns (walkStep (addrMessage if_indextoname idx.toInt32)) (.start data) addrs) :
      ListAddresses if_nametoindex if_indextoname if_name seq send recvs (.ok addrs)

end Rtsrv.Netlink

namespace Rtsrv.Client

open Lib CmdProto

/-! ### The walk of the library -/

/-- The walk adds what every message comes to. -/
theorem walkStep_wire {ι α : Type} {message : NlMsgHdr → List UInt8 → Access (List α)} {msg : ι → PaddedMsg}
    {found : ι → List α} {xs : List ι} : ∀ {acc : List α},
      (∀ x ∈ xs, ∀ tail, message (msg x).hdr ((msg x).bytes ++ tail) = .ok (found x)) →
      (wire (xs.map msg)).length < 2 ^ 32 →
        Returns (Netlink.walkStep message) ⟨wire (xs.map msg), (wire (xs.map msg)).length, acc⟩
          (acc ++ xs.flatMap found) := by
  induction xs with
  | nil =>
    rintro acc - -
    refine .done ?_
    rw [List.flatMap_nil, List.append_nil]
    rfl
  | cons x xs ih =>
    intro acc hread hlen
    obtain ⟨hx, hxs⟩ := List.forall_mem_cons.mp hread
    have hwire : wire ((x :: xs).map msg) = (msg x).bytes ++ wire (xs.map msg) := List.flatMap_cons
    rw [hwire] at hlen ⊢
    have hlen' := hlen
    rw [List.length_append] at hlen'
    have hnext : (((msg x).bytes ++ wire (xs.map msg)).length : ℤ) - (msg x).bytes.length =
        (wire (xs.map msg)).length := by
      rw [List.length_append]
      omega
    have hstep : Netlink.walkStep message
        ⟨(msg x).bytes ++ wire (xs.map msg), ((msg x).bytes ++ wire (xs.map msg)).length, acc⟩ =
          .ok (.again ⟨wire (xs.map msg), (wire (xs.map msg)).length, acc ++ found x⟩) := by
      rw [Netlink.walkStep]
      dsimp only
      rw [(msg x).nlmsgOk _ hlen, ok_bind]
      dsimp only
      rw [hx, ok_bind, (msg x).next_eq, List.drop_left, hnext]
      rfl
    rw [returns_again hstep, List.flatMap_cons, ← List.append_assoc]
    exact ih hxs (by omega)

/-! ### What the handlers of the client read -/

section Append

variable {nlh : List UInt8} {hdr : NlMsgHdr}

theorem dumpLinksHandler_append (hheader : nlmsghdr nlh = .ok hdr) (hlen : hdr.nlmsg_len.toNat ≤ nlh.length)
    {ifaces : List NetworkInterface} (h : dumpLinksHandler nlh = .ok ifaces) (rest : List UInt8) :
    dumpLinksHandler (nlh ++ rest) = .ok ifaces := by
  unfold dumpLinksHandler at h ⊢
  rw [hheader, ok_bind] at h
  rw [nlmsghdr_append hheader, ok_bind]
  split_ifs at h ⊢
  · exact h
  obtain ⟨index, hindex, h⟩ := except_bind_ok.mp h
  obtain ⟨flags, hflags, h⟩ := except_bind_ok.mp h
  rw [u32At_append hindex, ok_bind, u32At_append hflags, ok_bind, attrBytes_append hlen]
  exact h

theorem dumpAddrsHandler_append {libc : Libc} (hheader : nlmsghdr nlh = .ok hdr)
    (hlen : hdr.nlmsg_len.toNat ≤ nlh.length) {addr : Option (UInt32 × InterfaceAddress)}
    (h : dumpAddrsHandler libc nlh = .ok addr) (rest : List UInt8) :
    dumpAddrsHandler libc (nlh ++ rest) = .ok addr := by
  unfold dumpAddrsHandler at h ⊢
  rw [hheader, ok_bind] at h
  rw [nlmsghdr_append hheader, ok_bind]
  split_ifs at h ⊢
  · exact h
  obtain ⟨family, hfamily, h⟩ := except_bind_ok.mp h
  rw [byteAt_append hfamily, ok_bind]
  split_ifs at h ⊢
  · exact h
  obtain ⟨attrs, hattrs, h⟩ := except_bind_ok.mp h
  obtain ⟨l, hl, h⟩ := except_bind_ok.mp h
  rw [attrBytes_append hlen, hattrs, ok_bind, hl, ok_bind]
  split_ifs at h ⊢
  · exact h
  obtain ⟨index, hindex, h⟩ := except_bind_ok.mp h
  obtain ⟨prefixlen, hprefixlen, h⟩ := except_bind_ok.mp h
  rw [u32At_append hindex, ok_bind, byteAt_append hprefixlen]
  exact h

end Append

namespace PaddedMsg

variable (m : PaddedMsg) (libc : Libc)

/-- The interface of a message, if it has one with a name. -/
def links : List NetworkInterface := (dumpLinksHandler m.bytes).toOption.getD []

/-- The address of a message, with the index of its interface. -/
def address : Option (UInt32 × InterfaceAddress) := (dumpAddrsHandler libc m.bytes).toOption.join

/-- The handlers read the message without leaving an attribute. -/
def LinkReads : Prop := (dumpLinksHandler m.bytes).isOk = true

def AddrReads : Prop := (dumpAddrsHandler libc m.bytes).isOk = true

instance : Decidable m.LinkReads := inferInstanceAs (Decidable (_ = _))

instance : Decidable (m.AddrReads libc) := inferInstanceAs (Decidable (_ = _))

variable {m libc}

theorem LinkReads.handles (h : m.LinkReads) :
    Handles pushLinks (fun ifaces m => (· ++ m.links) <$> ifaces) m := by
  intro acc tail
  obtain ⟨ifaces, hifaces⟩ := except_isOk.mp h
  have htail := dumpLinksHandler_append m.header m.length_le hifaces tail
  cases acc with
  | error e => rfl
  | ok acc =>
    have hlinks : m.links = ifaces := by
      rw [links, hifaces]
      rfl
    rw [pushLinks, ok_bind, htail, ok_bind, ← hlinks]
    rfl

theorem AddrReads.handles (h : m.AddrReads libc) : Handles (pushAddrs libc) (fun ifaces m =>
    (fun ifaces => (m.address libc).elim ifaces fun addr => addressJoin.attach addr ifaces) <$> ifaces) m := by
  intro acc tail
  obtain ⟨addr, haddr⟩ := except_isOk.mp h
  have htail := dumpAddrsHandler_append m.header m.length_le haddr tail
  cases acc with
  | error e => rfl
  | ok acc =>
    have haddress : m.address libc = addr := by
      rw [address, haddr]
      rfl
    rw [pushAddrs, ok_bind, htail, ok_bind, ← haddress]
    dsimp only
    cases m.address libc with
    | none => rfl
    | some addr => rfl

end PaddedMsg

/-- Handlers that work on what has been read without a fault. -/
theorem foldl_ok {α : Type} (f : α → PaddedMsg → α) (msgs : List PaddedMsg) :
    ∀ acc : α, msgs.foldl (fun acc m => (f · m) <$> acc) (.ok acc : Access α) = .ok (msgs.foldl f acc) := by
  induction msgs with
  | nil => exact fun _ => rfl
  | cons m msgs ih => exact fun acc => ih (f acc m)

theorem foldl_links (msgs : List PaddedMsg) (acc : List NetworkInterface) :
    msgs.foldl (fun ifaces m => ifaces ++ m.links) acc = acc ++ msgs.flatMap PaddedMsg.links := by
  induction msgs generalizing acc with
  | nil => rw [List.flatMap_nil, List.append_nil, List.foldl_nil]
  | cons m msgs ih => rw [List.foldl_cons, ih, List.flatMap_cons, List.append_assoc]

theorem foldl_addresses (libc : Libc) (msgs : List PaddedMsg) (ifaces : List NetworkInterface) :
    msgs.foldl (fun ifaces m => (m.address libc).elim ifaces fun addr => addressJoin.attach addr ifaces) ifaces =
      addressJoin.join ifaces (msgs.filterMap (·.address libc)) := by
  rw [← Join.foldl_attach, List.foldl_filterMap]
  refine congrArg (fun f => msgs.foldl f ifaces) (funext fun ifaces => funext fun m => ?_)
  cases m.address libc with
  | none => rfl
  | some addr => rfl

/-! ### The join -/

/-- The answer to a request, as `recvAll` can get it among interruptions and answers to other requests. -/
structure PartedAnswer.To (a : PartedAnswer) (req : NlMsg) (x : Exchange) : Prop where
  sent : x.send req.bytes = .ok ()
  recvs : x.recvs = a.recvs
  multi : ∀ p, .part p ∈ a.before → p.Multi
  mark : a.mark.seq = req.nlmsg_seq

/-- What a dump of the client comes to. -/
theorem managerDump_answer {α : Type} {request : String} {req : NlMsg} {handler : α → List UInt8 → α}
    {apply : α → PaddedMsg → α} {a : PartedAnswer} {x : Exchange} (h : a.To req x)
    (hmsgs : ∀ m ∈ a.own req.nlmsg_seq, m.Plain ∧ Handles handler apply m) (acc : α) :
    ManagerDump request req handler x.send x.recvs acc
      (if a.error ≠ 0 then .error (.recvAll (.netlink (-a.error.toInt32)))
        else .ok ((a.own req.nlmsg_seq).foldl apply acc)) := by
  have hall := recvAll_handles a h.mark h.multi hmsgs acc
  rw [← h.recvs, RecvAll.ending] at hall
  split_ifs at hall ⊢ with herror
  · exact .failed h.sent hall
  · exact .success h.sent hall

theorem linkAttr_addresses {iface iface' : NetworkInterface} {a : RtAttr} (h : linkAttr iface a = .ok iface') :
    iface'.addresses = iface.addresses := by
  unfold linkAttr at h
  split_ifs at h
  · obtain ⟨name, -, h⟩ := except_bind_ok.mp h
    exact (Except.ok.inj h) ▸ rfl
  · obtain ⟨mtu, -, h⟩ := except_bind_ok.mp h
    exact (Except.ok.inj h) ▸ rfl
  · exact (Except.ok.inj h) ▸ rfl
  · exact (Except.ok.inj h) ▸ rfl

theorem foldlM_linkAttr_addresses (attrs : List RtAttr) : ∀ {iface iface' : NetworkInterface},
    attrs.foldlM linkAttr iface = .ok iface' → iface'.addresses = iface.addresses := by
  induction attrs with
  | nil => exact fun h => (Except.ok.inj h) ▸ rfl
  | cons a attrs ih =>
    intro iface iface' h
    rw [List.foldlM_cons] at h
    obtain ⟨iface₁, ha, h⟩ := except_bind_ok.mp h
    exact (ih h).trans (linkAttr_addresses ha)

/-- No interface has an address before the second dump. -/
theorem addresses_of_mem_links {m : PaddedMsg} {iface : NetworkInterface} (h : iface ∈ m.links) :
    iface.addresses = [] := by
  unfold PaddedMsg.links at h
  cases hread : dumpLinksHandler m.bytes with
  | error e =>
    rw [hread] at h
    exact absurd h List.not_mem_nil
  | ok ifaces =>
    rw [hread] at h
    unfold dumpLinksHandler at hread
    obtain ⟨hdr, -, hread⟩ := except_bind_ok.mp hread
    split_ifs at hread
    · rw [← Except.ok.inj hread] at h
      exact absurd h List.not_mem_nil
    obtain ⟨index, -, hread⟩ := except_bind_ok.mp hread
    obtain ⟨flags, -, hread⟩ := except_bind_ok.mp hread
    obtain ⟨attrs, -, hread⟩ := except_bind_ok.mp hread
    obtain ⟨iface', hfold, hread⟩ := except_bind_ok.mp hread
    rw [← Except.ok.inj hread] at h
    split_ifs at h
    · exact absurd h List.not_mem_nil
    · obtain rfl := List.mem_singleton.mp h
      exact foldlM_linkAttr_addresses attrs hfold

theorem foldl_push_addresses (addrs : List (UInt32 × InterfaceAddress)) : ∀ iface : NetworkInterface,
    addrs.foldl addressJoin.push iface = { iface with addresses := iface.addresses ++ addrs.map Prod.snd } := by
  induction addrs with
  | nil =>
    intro iface
    rw [List.map_nil, List.append_nil]
    rfl
  | cons addr addrs ih =>
    intro iface
    rw [List.foldl_cons, ih, List.map_cons, List.append_cons]
    rfl

/-- With indices that are distinct, each interface has the addresses of its index. -/
theorem addressJoin_of_nodup {ifaces : List NetworkInterface} {addrs : List (UInt32 × InterfaceAddress)}
    (hbare : ∀ iface ∈ ifaces, iface.addresses = []) (hnodup : (ifaces.map NetworkInterface.index).Nodup) :
    addressJoin.join ifaces addrs = ifaces.map fun iface =>
      { iface with addresses := (addrs.filter fun addr => addr.1 = iface.index).map Prod.snd } := by
  rw [addressJoin.join_of_nodup hnodup]
  refine List.map_congr_left fun iface hiface => ?_
  rw [foldl_push_addresses, hbare iface hiface, List.nil_append]
  rfl

section Manager

variable {libc : Libc} {seq_ : UInt32} {a b : PartedAnswer} {links addrs : Exchange}

/-- `listInterfaces` on two answers. -/
theorem listInterfaces_answer (ha : a.To (rtgenRequest RTM_GETLINK seq_) links)
    (hlinks : ∀ m ∈ a.own seq_, m.Plain ∧ m.LinkReads)
    (hb : a.error = 0 → b.To (rtgenRequest RTM_GETADDR (seq_ + 1)) addrs)
    (haddrs : ∀ m ∈ b.own (seq_ + 1), m.Plain ∧ m.AddrReads libc) : ListInterfaces libc seq_ links addrs
      (if a.error ≠ 0 then .error (.recvAll (.netlink (-a.error.toInt32)))
        else if b.error ≠ 0 then .error (.recvAll (.netlink (-b.error.toInt32)))
        else .ok (.ok (addressJoin.join ((a.own seq_).flatMap PaddedMsg.links)
          ((b.own (seq_ + 1)).filterMap (·.address libc))))) := by
  have hdump : DumpLinks seq_ links _ :=
    managerDump_answer ha (fun m hm => ⟨(hlinks m hm).1, (hlinks m hm).2.handles⟩) (.ok [])
  rw [foldl_ok, foldl_links, List.nil_append] at hdump
  by_cases herror : a.error = 0
  swap
  · rw [if_pos herror] at hdump ⊢
    exact .noLinks hdump
  rw [if_neg (not_not.mpr herror)] at hdump ⊢
  have hdump' : DumpAddrs libc (seq_ + 1) addrs _ _ := managerDump_answer (hb herror)
    (fun m hm => ⟨(haddrs m hm).1, (haddrs m hm).2.handles⟩) (.ok ((a.own seq_).flatMap PaddedMsg.links))
  rw [foldl_ok, foldl_addresses] at hdump'
  by_cases herror' : b.error = 0
  · rw [if_neg (not_not.mpr herror')] at hdump' ⊢
    exact .listed hdump hdump'
  · rw [if_pos herror'] at hdump' ⊢
    exact .noAddrs hdump hdump'

end Manager

/-! ### The two listings -/

/-- The interface without its addresses. -/
def NetworkInterface.bare (iface : NetworkInterface) : NetworkInterface := { iface with addresses := [] }

/-- The interface with its IPv4 addresses. -/
def NetworkInterface.inet (iface : NetworkInterface) : NetworkInterface :=
  { iface with addresses := iface.addresses.filter fun addr => addr.family = AF_INET }

/-- The library has no addresses in an interface. -/
theorem map_shown {view : NetworkInterface → NetworkInterface}
    (h : ∀ i, view (shownInterface i) = shownInterface i) (infos : List Netlink.InterfaceInfo) :
    (infos.map shownInterface).map view = infos.map shownInterface := by
  rw [List.map_map]
  exact List.map_congr_left fun i _ => h i

theorem bare_join (ifaces : List NetworkInterface) (addrs : List (UInt32 × InterfaceAddress)) :
    (addressJoin.join ifaces addrs).map NetworkInterface.bare = ifaces.map NetworkInterface.bare := by
  have hview : (addressJoin.join ifaces addrs).map NetworkInterface.bare =
      addressJoin.join (ifaces.map NetworkInterface.bare) (addrs.filter fun _ => false) := by
    refine Join.map_join ?_ ?_ ?_ ifaces addrs
    · rfl
    · exact fun _ => rfl
    · exact fun _ _ => rfl
  rw [hview, List.filter_false, Join.join_nil]

theorem inet_join (ifaces : List NetworkInterface) (addrs : List (UInt32 × InterfaceAddress)) :
    (addressJoin.join ifaces addrs).map NetworkInterface.inet =
      addressJoin.join (ifaces.map NetworkInterface.inet) (addrs.filter fun addr => addr.2.family = AF_INET) := by
  refine Join.map_join ?_ ?_ ?_ ifaces addrs
  · rfl
  · exact fun _ => rfl
  · intro iface addr
    by_cases hinet : addr.2.family = AF_INET
    · simp [NetworkInterface.inet, addressJoin, hinet]
    · simp [NetworkInterface.inet, addressJoin, hinet]

section Messages

variable {ls : List DumpedLink} {rs : List DumpedAddr} {libc : Libc} {seq : UInt32}

theorem links_message (l : DumpedLink) (seq : UInt32) : (l.kernelMsg.message seq).LinkReads ∧
    (l.kernelMsg.message seq).links = if l.info.name = [] then [] else [shownInterface l.info] := by
  have hread := l.dumpLinksHandler_message seq []
  rw [List.append_nil] at hread
  rw [PaddedMsg.LinkReads, PaddedMsg.links, hread]
  exact ⟨rfl, rfl⟩

/-- The client has the interfaces of the library that have a name. -/
theorem links_messages (ls : List DumpedLink) (seq : UInt32) :
    (ls.map fun l => l.kernelMsg.message seq).flatMap PaddedMsg.links =
      ((ls.map DumpedLink.info).filter fun i => i.name ≠ []).map shownInterface := by
  induction ls with
  | nil => rfl
  | cons l ls ih =>
    rw [List.map_cons, List.flatMap_cons, ih, (links_message l seq).2, List.map_cons]
    by_cases hname : l.info.name = []
    · rw [if_pos hname, List.filter_cons_of_neg (by simpa using hname), List.nil_append]
    · rw [if_neg hname, List.filter_cons_of_pos (by simpa using hname)]
      rfl

theorem address_message (r : DumpedAddr) : (r.kernelMsg.message seq).AddrReads libc ∧
    (r.kernelMsg.message seq).address libc = r.found libc := by
  have hread := r.dumpAddrsHandler_message seq [] libc
  rw [List.append_nil] at hread
  rw [PaddedMsg.AddrReads, PaddedMsg.address, hread]
  exact ⟨rfl, rfl⟩

/-- The IPv4 addresses that the client finds are those of the library. -/
theorem addresses_messages (rs : List DumpedAddr) (if_indextoname : UInt32 → Option Netlink.CString) :
    ((rs.map fun r => r.kernelMsg.message seq).filterMap (·.address libc)).filter
        (fun addr => addr.2.family = AF_INET) =
      ((rs.filter fun r => r.ifa.ifa_family = AF_INET).map (·.entry if_indextoname)).map shownAddress := by
  rw [List.filter_filterMap, List.filterMap_map, List.map_map, ← List.filterMap_eq_map', List.filterMap_filter]
  refine congrArg (fun f => rs.filterMap f) (funext fun r => ?_)
  have hfound := r.found_inet libc if_indextoname
  rw [← (address_message r).2] at hfound
  refine hfound.trans ?_
  by_cases hinet : r.ifa.ifa_family = AF_INET
  · rw [if_pos hinet, if_pos (decide_eq_true hinet)]
    rfl
  · rw [if_neg hinet, if_neg (by simpa using hinet)]

end Messages

/-- These messages as an answer that `nl_dump` can get. -/
structure PartedAnswer.Collects (a : PartedAnswer) (msgs : List PaddedMsg) : Prop where
  parts : ∃ ps : List DumpPart, a.before = ps.map .part
  collected : a.msgs = msgs
  short : (wire msgs).length < 2 ^ 32
  success : a.error = 0

/-- These messages as an answer to a request of the client. -/
structure PartedAnswer.Lists (a : PartedAnswer) (req : NlMsg) (x : Exchange) (msgs : List PaddedMsg) : Prop
    extends a.To req x where
  own : a.own req.nlmsg_seq = msgs
  success : a.error = 0

section Kernel

variable {a : PartedAnswer} {x : Exchange} {seq_ : UInt32}

/-- The handlers of the client read what the kernel sends. -/
theorem PartedAnswer.Lists.links_read {ls : List DumpedLink}
    (h : a.Lists (rtgenRequest RTM_GETLINK seq_) x (ls.map fun l => l.kernelMsg.message seq_)) :
    ∀ m ∈ a.own seq_, m.Plain ∧ m.LinkReads := by
  have hown : a.own seq_ = ls.map fun l => l.kernelMsg.message seq_ := h.own
  rw [hown]
  exact List.forall_mem_map.mpr fun l _ => ⟨l.kernelMsg.message_plain seq_, (links_message l seq_).1⟩

theorem PartedAnswer.Lists.addrs_read {rs : List DumpedAddr} {libc : Libc}
    (h : a.Lists (rtgenRequest RTM_GETADDR seq_) x (rs.map fun r => r.kernelMsg.message seq_)) :
    ∀ m ∈ a.own seq_, m.Plain ∧ m.AddrReads libc := by
  have hown : a.own seq_ = rs.map fun r => r.kernelMsg.message seq_ := h.own
  rw [hown]
  exact List.forall_mem_map.mpr fun r _ => ⟨r.kernelMsg.message_plain seq_, (address_message r).1⟩

end Kernel

section Library

variable {a : PartedAnswer} {seq : UInt32} {send : List UInt8 → Bool}

theorem nlDump_collected {msgs : List PaddedMsg} (h : a.Collects msgs) (hplain : ∀ m ∈ msgs, m.Plain)
    {req : List UInt8} (hsend : send req = true) :
    Returns (NlDump.step (send req)) (.sending a.recvs) (.returned (.ok (wire msgs))) := by
  obtain ⟨ps, hps⟩ := h.parts
  have hdump := nlDump_collects a hps (h.collected.symm ▸ hplain)
  rw [NlDump.ending, if_neg (not_not.mpr h.success), h.collected] at hdump
  exact hsend.symm ▸ hdump

/-- `list_interfaces` lists every interface. -/
theorem listInterfaces_collected {ls : List DumpedLink} (h : a.Collects (ls.map fun l => l.kernelMsg.message seq))
    (hsend : send (Netlink.listInterfacesRequest seq).bytes = true) :
    Netlink.ListInterfaces seq send a.recvs (.ok (ls.map DumpedLink.info)) := by
  refine .listed (nlDump_collected h (List.forall_mem_map.mpr fun l _ => l.kernelMsg.message_plain seq) hsend) ?_
  have hinfos : ls.map DumpedLink.info = [] ++ ls.flatMap fun l => [l.info] := List.map_eq_flatMap
  rw [hinfos]
  exact walkStep_wire (fun l _ tail => l.linkMessage_message seq tail) h.short

/-- What the filter of the library leaves, address by address. -/
theorem entries_flatMap {rs : List DumpedAddr} (if_indextoname : UInt32 → Option Netlink.CString)
    (hinet : ∀ r ∈ rs, r.ifa.ifa_family = AF_INET) (filter_idx : Int32) :
    (rs.map (·.entry if_indextoname)).filter (fun e => filter_idx = 0 ∨ e.if_index = filter_idx) =
      rs.flatMap fun r => if r.ifa.ifa_family = AF_INET ∧
        (filter_idx = 0 ∨ (r.entry if_indextoname).if_index = filter_idx) then [r.entry if_indextoname]
        else [] := by
  rw [List.map_eq_flatMap, List.filter_flatMap]
  refine List.flatMap_congr fun r hr => ?_
  by_cases hpass : filter_idx = 0 ∨ (r.entry if_indextoname).if_index = filter_idx
  · rw [if_pos ⟨hinet r hr, hpass⟩, List.filter_cons, if_pos (by simpa using hpass), List.filter_nil]
  · rw [if_neg fun h => hpass h.2, List.filter_cons, if_neg (by simpa using hpass), List.filter_nil]

/-- `list_interface_addresses` lists the addresses, all or those of one interface. -/
theorem listAddresses_collected {rs : List DumpedAddr} (h : a.Collects (rs.map fun r => r.kernelMsg.message seq))
    (hinet : ∀ r ∈ rs, r.ifa.ifa_family = AF_INET) {if_nametoindex : Netlink.CString → Option UInt32}
    {if_indextoname : UInt32 → Option Netlink.CString} {if_name : Netlink.CString} {idx : UInt32}
    (hname : Netlink.nameToIndex if_nametoindex if_name = .ok idx)
    (hsend : send (Netlink.listAddressesRequest seq).bytes = true) :
    Netlink.ListAddresses if_nametoindex if_indextoname if_name seq send a.recvs
      (.ok ((rs.map (·.entry if_indextoname)).filter fun e => idx.toInt32 = 0 ∨ e.if_index = idx.toInt32)) := by
  refine .listed (nlDump_collected h (List.forall_mem_map.mpr fun r _ => r.kernelMsg.message_plain seq) hsend)
    hname ?_
  rw [entries_flatMap if_indextoname hinet idx.toInt32, ← List.nil_append (rs.flatMap _)]
  exact walkStep_wire (fun r _ tail => r.addrMessage_message seq tail if_indextoname idx.toInt32) h.short

end Library

/-- Under a name both find the interface that came first with it. -/
theorem find_named {name : Netlink.CString} (hname : name ≠ []) {ifaces : List NetworkInterface}
    {infos : List Netlink.InterfaceInfo} (h : ifaces.map NetworkInterface.bare =
      (infos.filter fun i => i.name ≠ []).map shownInterface) :
    (ifaces.find? fun iface => iface.name = name).map NetworkInterface.bare =
      (infos.find? fun i => i.name = name).map shownInterface := by
  have hbare : (ifaces.find? fun iface => iface.name = name).map NetworkInterface.bare =
      (ifaces.map NetworkInterface.bare).find? fun iface => iface.name = name := by
    rw [List.find?_map]
    rfl
  rw [hbare, h, List.find?_map, List.find?_filter]
  refine congrArg (fun p => (infos.find? p).map shownInterface) (funext fun i => ?_)
  by_cases heq : i.name = name
  · simp [shownInterface, heq, hname]
  · simp [shownInterface, heq]

theorem getInterface_toOption (name : Netlink.CString) (ifaces : List NetworkInterface) :
    (getInterface name (.ok ifaces)).toOption = ifaces.find? fun iface => iface.name = name := by
  rw [getInterface]
  cases ifaces.find? fun iface => iface.name = name with
  | none => rfl
  | some iface => rfl

theorem library_getInterface_toOption (name : Netlink.CString) (infos : List Netlink.InterfaceInfo) :
    (Netlink.getInterface name (.ok infos)).toOption = infos.find? fun i => i.name = name := by
  rw [Netlink.getInterface]
  cases infos.find? fun i => i.name = name with
  | none => rfl
  | some i => rfl

/-- The addresses do not matter for whether an interface is up. -/
theorem isInterfaceUp_bare (name : Netlink.CString) (ifaces : List NetworkInterface) :
    (isInterfaceUp name (.ok ifaces)).toOption =
      ((getInterface name (.ok ifaces)).toOption.map NetworkInterface.bare).map NetworkInterface.isUp := by
  rw [isInterfaceUp, Option.map_map]
  cases getInterface name (.ok ifaces) with
  | error e => rfl
  | ok iface => rfl

/-! ### One interface -/

def rtAttr (rta_type : UInt16) (data : List UInt8) (fits : data.length + 4 < 2 ^ 16) : RtAttr :=
  ⟨rta_type, data, fits⟩

/-- `eth0`, index 2, up. -/
def eth0Link : DumpedLink where
  nlmsg_flags := NLM_F_MULTI
  ifi :=
    { ifi_family := AF_UNSPEC
      ifi_type := 1
      ifi_index := 2
      ifi_flags := IFF_UP
      ifi_change := 0 }
  attrs := [rtAttr IFLA_IFNAME (Netlink.eth0 ++ [0]) (by decide), rtAttr IFLA_MTU [220, 5, 0, 0] (by decide),
    rtAttr IFLA_ADDRESS [2, 0, 0, 0, 0, 1] (by decide)]
  name := by decide
  mtu := by decide
  short := by decide

theorem eth0Local_fits : [(10 : UInt8), 0, 0, 1].length + 4 < 2 ^ 16 := by decide

def eth0Local : RtAttr := rtAttr IFA_LOCAL [10, 0, 0, 1] eth0Local_fits

def eth0IfAddr : IfAddrMsg where
  ifa_family := AF_INET
  ifa_prefixlen := 8
  ifa_flags := 0
  ifa_scope := 0
  ifa_index := 2

theorem eth0Local_inet (_ : eth0IfAddr.ifa_family = AF_INET) :
    (∀ a ∈ [eth0Local], a.rta_type ∈ [IFA_LOCAL, IFA_ADDRESS] → a.data.length = 4) ∧
      ∃ a ∈ [eth0Local], a.rta_type ∈ [IFA_LOCAL, IFA_ADDRESS] := by
  constructor <;> decide

theorem eth0Local_inet6 (h : eth0IfAddr.ifa_family = AF_INET6) :
    ∀ a ∈ [eth0Local], a.rta_type ∈ [IFA_LOCAL, IFA_ADDRESS] → a.data.length = 16 := by
  have hne : eth0IfAddr.ifa_family ≠ AF_INET6 := by decide
  exact absurd h hne

theorem eth0Local_short :
    16 + (eth0IfAddr.bytes ++ [eth0Local].flatMap RtAttr.bytes).length + 3 < 2 ^ 32 := by
  decide

/-- 10.0.0.1/8 on `eth0`. -/
def eth0Addr : DumpedAddr where
  nlmsg_flags := NLM_F_MULTI
  ifa := eth0IfAddr
  attrs := [eth0Local]
  inet := eth0Local_inet
  inet6 := eth0Local_inet6
  short := eth0Local_short

theorem oneMessage_fits {m : PaddedMsg} {seq : UInt32} (hfits : m.bytes.length + 20 ≤ kNlBufSize) :
    (wire [m, doneAnswer seq]).length ≤ kNlBufSize := by
  simpa [wire, doneAnswer_length] using hfits

/-- A message and the mark as one datagram. -/
def onePart (m : PaddedMsg) (seq : UInt32) (hfits : m.bytes.length + 20 ≤ kNlBufSize) : DumpPart :=
  ⟨[m, doneAnswer seq], List.cons_ne_nil _ _, oneMessage_fits hfits⟩

theorem onePart_split (m : PaddedMsg) (seq : UInt32) (hfits : m.bytes.length + 20 ≤ kNlBufSize) :
    (onePart m seq hfits).msgs = [m] ++ doneAnswer seq :: [] := rfl

theorem doneAnswer_ends (seq : UInt32) : (doneAnswer seq).Ends 0 := .done rfl

/-- An answer in that datagram. -/
def oneMessage (m : PaddedMsg) (seq : UInt32) (hfits : m.bytes.length + 20 ≤ kNlBufSize) : PartedAnswer where
  before := []
  last := onePart m seq hfits
  pre := [m]
  mark := doneAnswer seq
  lost := []
  split := onePart_split m seq hfits
  error := 0
  ends := doneAnswer_ends seq
  after := []

theorem linkAnswer_fits (seq : UInt32) : (eth0Link.kernelMsg.message seq).bytes.length + 20 ≤ kNlBufSize := by
  rw [eth0Link.kernelMsg.message_length]
  decide

theorem addrAnswer_fits (seq : UInt32) : (eth0Addr.kernelMsg.message seq).bytes.length + 20 ≤ kNlBufSize := by
  rw [eth0Addr.kernelMsg.message_length]
  decide

def linkAnswer (seq : UInt32) : PartedAnswer :=
  oneMessage (eth0Link.kernelMsg.message seq) seq (linkAnswer_fits seq)

def addrAnswer (seq : UInt32) : PartedAnswer :=
  oneMessage (eth0Addr.kernelMsg.message seq) seq (addrAnswer_fits seq)

theorem oneMessage_lists {m : PaddedMsg} {seq : UInt32} (hfits : m.bytes.length + 20 ≤ kNlBufSize)
    (hseq : m.seq = seq) (type : UInt16) : (oneMessage m seq hfits).Lists (rtgenRequest type seq)
      ⟨fun _ => .ok (), (oneMessage m seq hfits).recvs⟩ [m] where
  sent := rfl
  recvs := rfl
  multi _ hp := absurd hp List.not_mem_nil
  mark := doneAnswer_seq seq
  own := by
    show [m].filter (fun m => m.seq = seq) = [m]
    simp [hseq]
  success := rfl

theorem oneMessage_collects {m : PaddedMsg} {seq : UInt32} (hfits : m.bytes.length + 20 ≤ kNlBufSize) :
    (oneMessage m seq hfits).Collects [m] where
  parts := ⟨[], rfl⟩
  collected := rfl
  short := by
    have hwire : wire [m] = m.bytes := List.flatMap_singleton _ _
    rw [hwire]
    unfold kNlBufSize at hfits
    omega
  success := rfl

theorem linkAnswer_lists (seq : UInt32) : (linkAnswer seq).Lists (rtgenRequest RTM_GETLINK seq)
    ⟨fun _ => .ok (), (linkAnswer seq).recvs⟩ [eth0Link.kernelMsg.message seq] :=
  oneMessage_lists _ (eth0Link.kernelMsg.message_seq seq) RTM_GETLINK

theorem addrAnswer_lists (seq : UInt32) : (addrAnswer seq).Lists (rtgenRequest RTM_GETADDR seq)
    ⟨fun _ => .ok (), (addrAnswer seq).recvs⟩ [eth0Addr.kernelMsg.message seq] :=
  oneMessage_lists _ (eth0Addr.kernelMsg.message_seq seq) RTM_GETADDR

/-! ### The listings side by side -/

/-- **The client lists what the library lists, joined on the index**: where the kernel answers with the same
interfaces and addresses, the interfaces of `listInterfaces` with their IPv4 addresses are those of
`list_interfaces` that have a name, with the addresses of `list_interface_addresses`.  Under a name both find
the same interface, up or not. -/
theorem interface_listings_agree (libc : Libc) (if_nametoindex : Netlink.CString → Option UInt32)
    (if_indextoname : UInt32 → Option Netlink.CString) {ls : List DumpedLink} {rs : List DumpedAddr}
    {a b a' b' : PartedAnswer} {seq seq' seq_ : UInt32} {send : List UInt8 → Bool} {links addrs : Exchange}
    (ha : a.Collects (ls.map fun l => l.kernelMsg.message seq))
    (hsend : send (Netlink.listInterfacesRequest seq).bytes = true)
    (hb : b.Collects ((rs.filter fun r => r.ifa.ifa_family = AF_INET).map fun r => r.kernelMsg.message seq'))
    (hsend' : send (Netlink.listAddressesRequest seq').bytes = true)
    (ha' : a'.Lists (rtgenRequest RTM_GETLINK seq_) links (ls.map fun l => l.kernelMsg.message seq_))
    (hb' : b'.Lists (rtgenRequest RTM_GETADDR (seq_ + 1)) addrs
      (rs.map fun r => r.kernelMsg.message (seq_ + 1))) :
    ∃ (infos : List Netlink.InterfaceInfo) (entries : List Netlink.IfAddrEntry)
      (ifaces : List NetworkInterface), Netlink.ListInterfaces seq send a.recvs (.ok infos) ∧
      (∀ if_name idx, Netlink.nameToIndex if_nametoindex if_name = .ok idx →
        Netlink.ListAddresses if_nametoindex if_indextoname if_name seq' send b.recvs
          (.ok (entries.filter fun e => idx.toInt32 = 0 ∨ e.if_index = idx.toInt32))) ∧
      ListInterfaces libc seq_ links addrs (.ok (.ok ifaces)) ∧
      ifaces.map NetworkInterface.inet = addressJoin.join
        ((infos.filter fun i => i.name ≠ []).map shownInterface) (entries.map shownAddress) ∧
      ∀ name ≠ [], (getInterface name (.ok ifaces)).toOption.map NetworkInterface.bare =
          (Netlink.getInterface name (.ok infos)).toOption.map shownInterface ∧
        (isInterfaceUp name (.ok ifaces)).toOption =
          (Netlink.getInterface name (.ok infos)).toOption.map fun i => decide (i.flags &&& IFF_UP ≠ 0) := by
  have hinet : ∀ r ∈ rs.filter fun r => r.ifa.ifa_family = AF_INET, r.ifa.ifa_family = AF_INET := fun r hr =>
    of_decide_eq_true (List.mem_filter.mp hr).2
  have hown : a'.own seq_ = ls.map fun l => l.kernelMsg.message seq_ := ha'.own
  have hown' : b'.own (seq_ + 1) = rs.map fun r => r.kernelMsg.message (seq_ + 1) := hb'.own
  have hlist := listInterfaces_answer ha'.toTo ha'.links_read (fun _ => hb'.toTo)
    (@PartedAnswer.Lists.addrs_read b' addrs (seq_ + 1) rs libc hb')
  rw [if_neg (not_not.mpr ha'.success), if_neg (not_not.mpr hb'.success), hown, hown', links_messages] at hlist
  refine ⟨_, _, _, listInterfaces_collected ha hsend,
    fun if_name idx hname => listAddresses_collected hb hinet hname hsend', hlist, ?_, fun name hname => ?_⟩
  · rw [inet_join, map_shown fun _ => rfl, addresses_messages]
  · have hbare := bare_join (((ls.map DumpedLink.info).filter fun i => i.name ≠ []).map shownInterface)
      ((rs.map fun r => r.kernelMsg.message (seq_ + 1)).filterMap (·.address libc))
    have hfind := find_named hname (hbare.trans (map_shown (fun _ => rfl) _))
    rw [isInterfaceUp_bare, getInterface_toOption, library_getInterface_toOption, hfind, Option.map_map]
    exact ⟨rfl, rfl⟩

/-- The interface of both, under its name. -/
theorem interface_listings_agree_eth0 :
    ∃ (infos : List Netlink.InterfaceInfo) (entries : List Netlink.IfAddrEntry) (ifaces : List NetworkInterface),
      Netlink.ListInterfaces 1 (fun _ => true) (linkAnswer 1).recvs (.ok infos) ∧
      Netlink.ListAddresses Netlink.eth0Index Netlink.eth0Name Netlink.eth0 2 (fun _ => true) (addrAnswer 2).recvs
        (.ok (entries.filter fun e => e.if_index = 2)) ∧
      ListInterfaces oneInterface 7 ⟨fun _ => .ok (), (linkAnswer 7).recvs⟩
        ⟨fun _ => .ok (), (addrAnswer 8).recvs⟩ (.ok (.ok ifaces)) ∧
      ifaces.map NetworkInterface.inet = addressJoin.join
        ((infos.filter fun i => i.name ≠ []).map shownInterface) (entries.map shownAddress) ∧
      (getInterface Netlink.eth0 (.ok ifaces)).toOption.map NetworkInterface.bare =
        (Netlink.getInterface Netlink.eth0 (.ok infos)).toOption.map shownInterface := by
  have ha : (linkAnswer 1).Collects ([eth0Link].map fun l => l.kernelMsg.message 1) :=
    oneMessage_collects (linkAnswer_fits 1)
  have hb : (addrAnswer 2).Collects (([eth0Addr].filter fun r => r.ifa.ifa_family = AF_INET).map
      fun r => r.kernelMsg.message 2) := oneMessage_collects (addrAnswer_fits 2)
  obtain ⟨infos, entries, ifaces, hinfos, hentries, hifaces, hjoin, hnamed⟩ := @interface_listings_agree oneInterface
    Netlink.eth0Index Netlink.eth0Name [eth0Link] [eth0Addr] (linkAnswer 1) (addrAnswer 2) (linkAnswer 7)
    (addrAnswer 8) 1 2 7 (fun _ => true) _ _ ha rfl hb rfl (linkAnswer_lists 7) (addrAnswer_lists 8)
  have heth0 := hentries Netlink.eth0 2 (by decide)
  simp only [show ¬(2 : UInt32).toInt32 = 0 by decide, false_or] at heth0
  exact ⟨infos, entries, ifaces, hinfos, heth0, hifaces, hjoin, (hnamed Netlink.eth0 (by decide)).1⟩

end Rtsrv.Client
