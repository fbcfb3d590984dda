import Rtsrv.Client.NlDispatch
import Rtsrv.Lib.Run

/-!
# Rtsrv.Client.NeighTable — the neighbor table and the neighbors (`netlink_neigh.c`, `client/src/main.cpp`)

The table has one row for each `family|ifindex|address text`.  That tells IP neighbors apart.  A forwarding
entry of a bridge has no address: its MAC address and its VLAN are not in the key, and the entries of one
interface take each other's row.
-/

namespace Rtsrv.Client

open Lib CmdProto

/-! ### Messages -/

/-- What is read of `ndmsg`. -/
structure NdMsg where
  ndm_family : UInt8
  ndm_ifindex : UInt32
  ndm_state : UInt16
  ndm_flags : UInt8
  ndm_type : UInt8
  deriving DecidableEq, Repr

/-- The message has this `ndmsg` behind its header. -/
def NdMsg.At (ndm : NdMsg) (nlh : List UInt8) : Prop :=
  byteAt nlh 16 = .ok ndm.ndm_family ∧ u32At nlh 20 = .ok ndm.ndm_ifindex ∧
    u16At nlh 24 = .ok ndm.ndm_state ∧ byteAt nlh 26 = .ok ndm.ndm_flags ∧ byteAt nlh 27 = .ok ndm.ndm_type

/-- The type without the nested and byte-order flags. -/
def RtAttr.rtype (a : RtAttr) : UInt16 := a.rta_type &&& 0x00ff

/-- The attribute of a type. -/
def attrOf (attrs : List RtAttr) (type : UInt16) : Option RtAttr := attrs.find? fun a => a.rtype = type

/-- What is read from the attribute of a type, where there is one with the bytes. -/
def attrValue {β : Type} (attrs : List RtAttr) (type : UInt16) (n : ℕ) (read : RtAttr → Access β)
    (absent : β) : β :=
  match attrOf attrs type with
  | some a => if n ≤ a.data.length then (read a).toOption.getD absent else absent
  | none => absent

/-- What identifies a neighbor.  VLAN 0 is none; a family of its own kind has its `NDA_DST` bytes. -/
inductive NeighId
  | inet (ifindex : UInt32) (addr : Ipv4Addr)
  | inet6 (ifindex : UInt32) (addr : Block UInt8 16)
  | bridge (ifindex : UInt32) (mac : Block UInt8 6) (vlan : UInt16)
  | other (family : UInt8) (ifindex : UInt32) (addr : List UInt8)
  deriving DecidableEq, Repr

/-- The header and the attributes name the neighbor. -/
def NeighId.Named (ndm : NdMsg) (attrs : List RtAttr) : NeighId → Prop
  | .inet ifindex addr => ndm.ndm_family = AF_INET ∧ ndm.ndm_ifindex = ifindex ∧
      (attrOf attrs NDA_DST).map RtAttr.data = some addr.items
  | .inet6 ifindex addr => ndm.ndm_family = AF_INET6 ∧ ndm.ndm_ifindex = ifindex ∧
      (attrOf attrs NDA_DST).map RtAttr.data = some addr.items
  | .bridge ifindex mac vlan => ndm.ndm_family = AF_BRIDGE ∧ ndm.ndm_ifindex = ifindex ∧
      attrOf attrs NDA_DST = none ∧ (attrOf attrs NDA_LLADDR).map RtAttr.data = some mac.items ∧
      attrValue attrs NDA_VLAN 2 (fun a => u16At a.data 0) 0 = vlan
  | .other family ifindex addr => family ∉ [AF_INET, AF_INET6, AF_BRIDGE] ∧ ndm.ndm_family = family ∧
      ndm.ndm_ifindex = ifindex ∧ (attrOf attrs NDA_DST).map RtAttr.data = some addr

/-- An `RTM_NEWNEIGH` or `RTM_DELNEIGH` message: received as long as it says, its attributes padded, each
type once, with what names its neighbor among them. -/
structure NeighMessage where
  hdr : NlMsgHdr
  nlh : List UInt8
  ndm : NdMsg
  attrs : List RtAttr
  id : NeighId
  type : hdr.nlmsg_type = RTM_NEWNEIGH ∨ hdr.nlmsg_type = RTM_DELNEIGH
  received : hdr.nlmsg_len.toNat ≤ nlh.length
  header : 28 ≤ hdr.nlmsg_len
  ndmsg : ndm.At nlh
  attributes : attrBytes hdr nlh 28 = attrs.flatMap RtAttr.bytes
  once : (attrs.map RtAttr.rtype).Nodup
  named : id.Named ndm attrs

variable (libc : Libc)

/-- The descriptor of a header and its attributes, field by field. -/
def NdMsg.neigh (ndm : NdMsg) (attrs : List RtAttr) : NetlinkNeigh where
  family := ndm.ndm_family
  ifindex := ndm.ndm_ifindex.toInt32
  ifname := if 0 < ndm.ndm_ifindex.toInt32 then (libc.if_indextoname ndm.ndm_ifindex).getD "" else ""
  state := ndm.ndm_state
  flags := ndm.ndm_flags
  type := ndm.ndm_type
  dst := attrValue attrs NDA_DST 0 (dispatchAddr libc ndm.ndm_family · "") ""
  lladdr := attrValue attrs NDA_LLADDR 0 (fun a => pure (a.data.take NETLINK_NEIGH_LLADDR_MAX)) []
  confirmed_ms := attrValue attrs NDA_CACHEINFO 16 (fun a => u32At a.data 0) 0
  used_ms := attrValue attrs NDA_CACHEINFO 16 (fun a => u32At a.data 4) 0
  updated_ms := attrValue attrs NDA_CACHEINFO 16 (fun a => u32At a.data 8) 0
  refcnt := attrValue attrs NDA_CACHEINFO 16 (fun a => u32At a.data 12) 0
  probes := attrValue attrs NDA_PROBES 4 (fun a => u32At a.data 0) 0
  vlan := attrValue attrs NDA_VLAN 2 (fun a => u16At a.data 0) 0
  master := attrValue attrs NDA_MASTER 4 (fun a => u32At a.data 0) 0
  master_name := attrValue attrs NDA_MASTER 4 (fun a => (nameOf libc · "") <$> u32At a.data 0) ""
  nh_ifindex := attrValue attrs NDA_IFINDEX 4 (fun a => u32At a.data 0) 0
  protocol := attrValue attrs NDA_PROTOCOL 1 (fun a => byteAt a.data 0) 0

/-- The row with the attributes of the message. -/
def NeighMessage.row (m : NeighMessage) : NeighEntry := (m.ndm.neigh libc m.attrs).entry

/-! ### The walk over the attributes of a message -/

section Walk

variable {libc} {ndm : NdMsg} {attrs : List RtAttr} {a : RtAttr} {β : Type} {type : UInt16} {n : ℕ}
  {read : RtAttr → Access β} {absent : β}

theorem attrValue_concat_ne (h : a.rtype ≠ type) :
    attrValue (attrs ++ [a]) type n read absent = attrValue attrs type n read absent := by
  have hfind : attrOf (attrs ++ [a]) type = attrOf attrs type := by
    rw [attrOf, List.find?_append, List.find?_cons_of_neg (by simpa using h), List.find?_nil, Option.or_none]
    rfl
  rw [attrValue, hfind]
  rfl

theorem attrOf_absent (h : ∀ b ∈ attrs, b.rtype ≠ type) : attrOf attrs type = none :=
  List.find?_eq_none.mpr fun b hb => by simpa using h b hb

theorem attrValue_absent (h : ∀ b ∈ attrs, b.rtype ≠ type) :
    attrValue attrs type n read absent = absent := by
  rw [attrValue, attrOf_absent h]

theorem attrValue_concat (h : ∀ b ∈ attrs, b.rtype ≠ type) (ha : a.rtype = type) :
    attrValue (attrs ++ [a]) type n read absent =
      if n ≤ a.data.length then (read a).toOption.getD absent else absent := by
  have hfind : attrOf (attrs ++ [a]) type = some a := by
    have hnone := attrOf_absent h
    rw [attrOf] at hnone ⊢
    rw [List.find?_append, hnone, Option.none_or, List.find?_cons_of_pos (by simpa using ha)]
  rw [attrValue, hfind]

/-- A branch of the switch that reads one field: it sets the value that the field has with the attribute. -/
theorem withPayload_neigh {copy : List UInt8 → Access β} (absent : β) (set : β → NetlinkNeigh)
    (h : ∀ b ∈ attrs, b.rtype ≠ type) (ha : a.rtype = type)
    (hset : set absent = ndm.neigh libc attrs)
    (hread : set (attrValue (attrs ++ [a]) type n (fun a => copy a.data) absent) =
      ndm.neigh libc (attrs ++ [a]))
    (hcopy : n ≤ a.data.length → ∃ v, copy a.data = .ok v) :
    withPayload n a (ndm.neigh libc attrs) (fun data => copy data >>= fun v => pure (set v)) =
      .ok (ndm.neigh libc (attrs ++ [a])) := by
  rw [← hread, attrValue_concat h ha]
  unfold withPayload
  by_cases hlen : n ≤ a.data.length
  · obtain ⟨v, hv⟩ := hcopy hlen
    rw [if_pos hlen, if_pos hlen]
    show (copy a.data >>= _) = _
    rw [hv]
    rfl
  · rw [if_neg hlen, if_neg hlen, hset]
    rfl

/-- The switch adds the attribute, if it is the first of its type. -/
theorem neighAttr_neigh (h : ∀ b ∈ attrs, b.rtype ≠ a.rtype) :
    neighAttr libc (ndm.neigh libc attrs) a = .ok (ndm.neigh libc (attrs ++ [a])) := by
  simp only [neighAttr, show a.rta_type &&& 0x00ff = a.rtype from rfl]
  by_cases hdst : a.rtype = NDA_DST
  · rw [hdst] at h
    obtain ⟨text, htext⟩ := dispatchAddr_ok libc ndm.ndm_family a ""
    have hempty : (ndm.neigh libc attrs).dst = "" := attrValue_absent h
    rw [if_pos hdst, hempty]
    show (dispatchAddr libc ndm.ndm_family a "" >>= _) = _
    rw [htext, ok_bind]
    simp (disch := (rw [hdst]; decide)) only [NdMsg.neigh, attrValue_concat_ne]
    rw [attrValue_concat h hdst, if_pos (Nat.zero_le _), htext]
    rfl
  rw [if_neg hdst]
  by_cases hlladdr : a.rtype = NDA_LLADDR
  · rw [hlladdr] at h
    rw [if_pos hlladdr]
    simp (disch := (rw [hlladdr]; decide)) only [NdMsg.neigh, attrValue_concat_ne]
    rw [attrValue_concat h hlladdr, if_pos (Nat.zero_le _)]
    rfl
  rw [if_neg hlladdr]
  by_cases hcache : a.rtype = NDA_CACHEINFO
  · rw [hcache] at h
    rw [if_pos hcache]
    simp (disch := (rw [hcache]; decide)) only [NdMsg.neigh, attrValue_concat_ne]
    simp only [attrValue_concat h hcache, attrValue_absent h]
    by_cases hlen : 16 ≤ a.data.length
    · obtain ⟨confirmed, h0⟩ := u32At_ok a.data (i := 0) (by omega)
      obtain ⟨used, h4⟩ := u32At_ok a.data (i := 4) (by omega)
      obtain ⟨updated, h8⟩ := u32At_ok a.data (i := 8) (by omega)
      obtain ⟨refcnt, h12⟩ := u32At_ok a.data (i := 12) (by omega)
      simp only [withPayload, if_pos hlen, h0, h4, h8, h12, ok_bind]
      rfl
    · simp only [withPayload, if_neg hlen]
      rfl
  rw [if_neg hcache]
  by_cases hprobes : a.rtype = NDA_PROBES
  · rw [hprobes] at h
    rw [if_pos hprobes]
    refine withPayload_neigh 0 (fun v => { ndm.neigh libc attrs with probes := v }) h hprobes ?_ ?_
      (u32At_ok a.data)
    · simp only [NdMsg.neigh, attrValue_absent h]
    · simp (disch := (rw [hprobes]; decide)) only [NdMsg.neigh, attrValue_concat_ne]
  rw [if_neg hprobes]
  by_cases hvlan : a.rtype = NDA_VLAN
  · rw [hvlan] at h
    rw [if_pos hvlan]
    refine withPayload_neigh 0 (fun v => { ndm.neigh libc attrs with vlan := v }) h hvlan ?_ ?_
      (u16At_ok a.data)
    · simp only [NdMsg.neigh, attrValue_absent h]
    · simp (disch := (rw [hvlan]; decide)) only [NdMsg.neigh, attrValue_concat_ne]
  rw [if_neg hvlan]
  by_cases hmaster : a.rtype = NDA_MASTER
  · rw [hmaster] at h
    rw [if_pos hmaster]
    simp (disch := (rw [hmaster]; decide)) only [NdMsg.neigh, attrValue_concat_ne]
    simp only [attrValue_concat h hmaster, attrValue_absent h]
    by_cases hlen : 4 ≤ a.data.length
    · obtain ⟨master, hword⟩ := u32At_ok a.data (i := 0) (by omega)
      simp only [withPayload, if_pos hlen, hword, ok_bind]
      rfl
    · simp only [withPayload, if_neg hlen]
      rfl
  rw [if_neg hmaster]
  by_cases hindex : a.rtype = NDA_IFINDEX
  · rw [hindex] at h
    rw [if_pos hindex]
    refine withPayload_neigh 0 (fun v => { ndm.neigh libc attrs with nh_ifindex := v }) h hindex ?_ ?_
      (u32At_ok a.data)
    · simp only [NdMsg.neigh, attrValue_absent h]
    · simp (disch := (rw [hindex]; decide)) only [NdMsg.neigh, attrValue_concat_ne]
  rw [if_neg hindex]
  by_cases hprotocol : a.rtype = NDA_PROTOCOL
  · rw [hprotocol] at h
    rw [if_pos hprotocol]
    refine withPayload_neigh 0 (fun v => { ndm.neigh libc attrs with protocol := v }) h hprotocol ?_ ?_
      (byteAt_ok a.data)
    · simp only [NdMsg.neigh, attrValue_absent h]
    · simp (disch := (rw [hprotocol]; decide)) only [NdMsg.neigh, attrValue_concat_ne]
  rw [if_neg hprotocol]
  simp (disch := assumption) only [NdMsg.neigh, attrValue_concat_ne]
  rfl

/-- The walk collects the attributes. -/
theorem foldlM_neigh (libc : Libc) (ndm : NdMsg) (attrs : List RtAttr) (h : (attrs.map RtAttr.rtype).Nodup) :
    attrs.foldlM (neighAttr libc) (ndm.neigh libc []) = .ok (ndm.neigh libc attrs) := by
  induction attrs using List.reverseRecOn with
  | nil => rfl
  | append_singleton attrs a ih =>
    rw [List.map_append, List.map_singleton, List.nodup_append] at h
    obtain ⟨hattrs, -, hnew⟩ := h
    rw [List.foldlM_append, ih hattrs, ok_bind, List.foldlM_cons,
      neighAttr_neigh fun b hb => hnew _ (List.mem_map_of_mem hb) _ (List.mem_singleton_self _)]
    rfl

end Walk

/-- The event of a message. -/
def NeighMessage.event (m : NeighMessage) : NetlinkEvent :=
  if m.hdr.nlmsg_type = RTM_NEWNEIGH then
    if m.hdr.nlmsg_flags &&& NLM_F_REPLACE ≠ 0 then .CHANGED else .ADDED
  else .REMOVED

theorem NeighMessage.hdr_event (m : NeighMessage) : m.hdr.event RTM_NEWNEIGH RTM_DELNEIGH = some m.event := by
  rw [NlMsgHdr.event, NeighMessage.event]
  by_cases hnew : m.hdr.nlmsg_type = RTM_NEWNEIGH
  · rw [if_pos hnew, if_pos hnew]
  · rw [if_neg hnew, if_neg hnew, if_pos (m.type.resolve_left hnew)]

/-- **The callback is called with the event and with what the header and the attributes describe.** -/
theorem nlNeighDispatch_message (m : NeighMessage) :
    nlNeighDispatch libc m.hdr m.nlh = .ok (some (m.event, m.ndm.neigh libc m.attrs)) := by
  obtain ⟨hfamily, hifindex, hstate, hflags, htype⟩ := m.ndmsg
  have hwalk : attrWalk (fun n _ a => neighAttr libc n a) (attrBytes m.hdr m.nlh 28) (m.hdr.nlmsg_len - 28)
      (m.ndm.neigh libc []) = .ok (m.ndm.neigh libc m.attrs) := by
    refine (attrWalk_visits (attrlen_message m.received m.header)).mpr ?_
    show (visits rtaNextUnsigned (attrBytes m.hdr m.nlh 28) >>= _) = _
    rw [m.attributes, visits_rtaNextUnsigned, ok_bind, foldlM_neigh libc m.ndm m.attrs m.once]
  rw [nlNeighDispatch, if_neg (UInt32.not_lt.mpr m.header), m.hdr_event, hfamily, hifindex, hstate, hflags,
    htype]
  show (attrWalk _ _ _ (m.ndm.neigh libc []) >>= _) = _
  rw [hwalk]
  rfl

/-! ### Keys -/

theorem natText_injective : Function.Injective fun n : ℕ => toString n := by
  intro m n h
  have hdigits : Nat.toDigits 10 m = Nat.toDigits 10 n := by simpa using congrArg String.toList h
  rw [← Nat.ofDigitChars_ten_toDigits (n := m), hdigits, Nat.ofDigitChars_ten_toDigits]

/-- A text with another character than digits is no number. -/
theorem natText_ne {s : String} {c : Char} (hc : c ∈ s.toList) (hdigit : c.isDigit = false) (n : ℕ) :
    toString n ≠ s := by
  rintro rfl
  have hmem : c ∈ Nat.toDigits 10 n := by simpa using hc
  rw [Nat.isDigit_of_mem_toDigits (by decide) (by decide) hmem] at hdigit
  exact Bool.noConfusion hdigit

theorem intText_injective : Function.Injective fun i : ℤ => toString i := by
  intro i j h
  have hsign : ∀ m n : ℕ, toString m ≠ "-" ++ toString n := by
    intro m n
    refine natText_ne (c := '-') ?_ (by decide) m
    rw [String.toList_append]
    exact List.mem_append_left _ (by decide)
  rcases i with m | m <;> rcases j with n | n
  · exact congrArg Int.ofNat (natText_injective h)
  · exact absurd h (hsign m (n + 1))
  · exact absurd h.symm (hsign n (m + 1))
  · exact congrArg Int.negSucc (Nat.succ.inj (natText_injective ((String.append_right_inj "-").mp h)))

theorem unbarred_int (i : ℤ) : Unbarred (toString i) := by
  rcases i with n | n
  · exact unbarred_nat n
  · exact Unbarred.append (s := "-") (by decide) (unbarred_nat (n + 1))

theorem unbarred_familyLabel (family : UInt8) : Unbarred (familyLabel family) := by
  unfold familyLabel
  split_ifs
  · decide
  · decide
  · decide
  · exact unbarred_nat family.toNat

theorem familyLabel_injective : Function.Injective familyLabel := by
  intro f g h
  -- each of the three names has an `e`, which no number has
  have hname : ∀ (family : UInt8) {s : String}, 'e' ∈ s.toList → toString family.toNat ≠ s :=
    fun family _ he => natText_ne he (by decide) family.toNat
  unfold familyLabel at h
  split_ifs at h with hf hg hg hg hf hg hg hg hf hg hg hg hg hg hg
  all_goals first
    | exact hf.trans hg.symm
    | exact absurd h (by decide)
    | exact absurd h (hname f (by decide))
    | exact absurd h.symm (hname g (by decide))
    | exact UInt8.toNat_inj.mp (natText_injective h)

/-- What stands for the address in a key. -/
def keyDst (dst : String) : String := if dst = "" then "(none)" else dst

theorem neighKey_inj {family family' : UInt8} {ifindex ifindex' : Int32} {dst dst' : String} :
    neighKey family ifindex dst = neighKey family' ifindex' dst' ↔
      family = family' ∧ ifindex = ifindex' ∧ keyDst dst = keyDst dst' := by
  have hkey : ∀ (f : UInt8) (i : Int32) (d : String),
      neighKey f i d = familyLabel f ++ "|" ++ (toString i.toInt ++ "|" ++ keyDst d) := by
    intro f i d
    simp only [neighKey, keyDst, String.append_assoc]
    rfl
  rw [hkey, hkey, append_bar_inj (unbarred_familyLabel _) (unbarred_familyLabel _),
    append_bar_inj (unbarred_int _) (unbarred_int _), familyLabel_injective.eq_iff]
  refine and_congr_right fun _ => and_congr_left fun _ => ?_
  exact ⟨fun h => Int32.toInt_inj.mp (intText_injective h), fun h => by rw [h]⟩

namespace NeighId

def family : NeighId → UInt8
  | inet _ _ => AF_INET
  | inet6 _ _ => AF_INET6
  | bridge _ _ _ => AF_BRIDGE
  | other family _ _ => family

def ifindex : NeighId → UInt32
  | inet ifindex _ => ifindex
  | inet6 ifindex _ => ifindex
  | bridge ifindex _ _ => ifindex
  | other _ ifindex _ => ifindex

/-- The text of the address, of IP neighbors. -/
def dst : NeighId → String
  | inet _ addr => inetNtop addr
  | inet6 _ addr => libc.inet_ntop6 addr
  | bridge _ _ _ => ""
  | other _ _ _ => ""

/-- It has an address that `inet_ntop` knows. -/
def Ip : NeighId → Prop
  | inet _ _ => True
  | inet6 _ _ => True
  | bridge _ _ _ => False
  | other _ _ _ => False

instance : DecidablePred Ip
  | inet _ _ => .isTrue trivial
  | inet6 _ _ => .isTrue trivial
  | bridge _ _ _ => .isFalse id
  | other _ _ _ => .isFalse id

variable {libc} {ndm : NdMsg} {attrs : List RtAttr}

/-- The text of the address, where the attribute has these bytes. -/
theorem neigh_dst {family : UInt8} {bytes : List UInt8} {text : String} (hfamily : ndm.ndm_family = family)
    (h : (attrOf attrs NDA_DST).map RtAttr.data = some bytes)
    (htext : ∀ a : RtAttr, a.data = bytes → dispatchAddr libc family a "" = .ok text) :
    (ndm.neigh libc attrs).dst = text := by
  obtain ⟨a, ha, hdata⟩ := Option.map_eq_some_iff.mp h
  show attrValue attrs NDA_DST 0 (dispatchAddr libc ndm.ndm_family · "") "" = text
  rw [hfamily, attrValue, ha]
  show (if 0 ≤ _ then (dispatchAddr libc family a "").toOption.getD "" else "") = text
  rw [if_pos (Nat.zero_le _), htext a hdata]
  rfl

variable (libc) in
/-- What the descriptor has of the neighbor that the message names. -/
theorem Named.neigh {id : NeighId} (h : id.Named ndm attrs) :
    (ndm.neigh libc attrs).family = id.family ∧ (ndm.neigh libc attrs).ifindex = id.ifindex.toInt32 ∧
      (ndm.neigh libc attrs).dst = id.dst libc := by
  have hblock : ∀ {n : ℕ} {a : RtAttr} {addr : Block UInt8 n}, a.data = addr.items →
      n ≤ a.data.length ∧ Reader.block n a.data = (.ok (addr, []) : Except (Fault Empty) _) := by
    intro n a addr hdata
    refine ⟨by rw [hdata, addr.length_eq], Reader.block_ok.mpr ?_⟩
    rw [hdata, List.append_nil]
  cases id with
  | inet ifindex addr =>
    obtain ⟨hfamily, hifindex, hdst⟩ := h
    refine ⟨hfamily, congrArg _ hifindex, neigh_dst hfamily hdst fun a hdata => ?_⟩
    obtain ⟨hlen, hread⟩ := hblock hdata
    rw [dispatchAddr, if_pos ⟨rfl, hlen⟩, word, hread]
    rfl
  | inet6 ifindex addr =>
    obtain ⟨hfamily, hifindex, hdst⟩ := h
    refine ⟨hfamily, congrArg _ hifindex, neigh_dst hfamily hdst fun a hdata => ?_⟩
    obtain ⟨hlen, hread⟩ := hblock hdata
    rw [dispatchAddr, if_neg (fun h => absurd h.1 (by decide)), if_pos ⟨rfl, hlen⟩, hread]
    rfl
  | bridge ifindex mac vlan =>
    obtain ⟨hfamily, hifindex, hnone, -⟩ := h
    refine ⟨hfamily, congrArg _ hifindex, ?_⟩
    show attrValue _ _ _ _ _ = ""
    rw [attrValue, hnone]
  | other family ifindex addr =>
    obtain ⟨hother, hfamily, hifindex, hdst⟩ := h
    refine ⟨hfamily, congrArg _ hifindex, neigh_dst hfamily hdst fun a _ => ?_⟩
    rw [dispatchAddr, if_neg (fun h => hother (by simp [h.1])), if_neg (fun h => hother (by simp [h.1]))]
    rfl

theorem Named.of_inet {id : NeighId} (h : id.Named ndm attrs) (hfamily : id.family = AF_INET) :
    ∃ ifindex addr, id = inet ifindex addr := by
  cases id with
  | inet ifindex addr => exact ⟨ifindex, addr, rfl⟩
  | inet6 ifindex addr => exact absurd hfamily (show AF_INET6 ≠ AF_INET by decide)
  | bridge ifindex mac vlan => exact absurd hfamily (show AF_BRIDGE ≠ AF_INET by decide)
  | other family ifindex addr =>
    exact absurd (show family ∈ _ by simp [show family = AF_INET from hfamily]) h.1

theorem Named.of_inet6 {id : NeighId} (h : id.Named ndm attrs) (hfamily : id.family = AF_INET6) :
    ∃ ifindex addr, id = inet6 ifindex addr := by
  cases id with
  | inet ifindex addr => exact absurd hfamily (show AF_INET ≠ AF_INET6 by decide)
  | inet6 ifindex addr => exact ⟨ifindex, addr, rfl⟩
  | bridge ifindex mac vlan => exact absurd hfamily (show AF_BRIDGE ≠ AF_INET6 by decide)
  | other family ifindex addr =>
    exact absurd (show family ∈ _ by simp [show family = AF_INET6 from hfamily]) h.1

/-- Without an address of its own, a neighbor is of no IP family. -/
theorem Named.of_not_ip {id : NeighId} (h : id.Named ndm attrs) (hip : ¬id.Ip) :
    id.family ≠ AF_INET ∧ id.family ≠ AF_INET6 ∧ id.dst libc = "" := by
  cases id with
  | inet ifindex addr => exact absurd trivial hip
  | inet6 ifindex addr => exact absurd trivial hip
  | bridge ifindex mac vlan =>
    exact ⟨(by decide : AF_BRIDGE ≠ AF_INET), (by decide : AF_BRIDGE ≠ AF_INET6), rfl⟩
  | other family ifindex addr =>
    exact ⟨fun heq => h.1 (by simp [show family = AF_INET from heq]),
      fun heq => h.1 (by simp [show family = AF_INET6 from heq]), rfl⟩

/-- Neighbors of one family and one interface have the same text in the key when they are the same, or when
they have no address. -/
theorem keyDst_eq_iff (hinj : Function.Injective libc.inet_ntop6)
    (hne : ∀ addr, libc.inet_ntop6 addr ≠ "") {ndm' : NdMsg} {attrs' : List RtAttr} {a b : NeighId}
    (ha : a.Named ndm attrs) (hb : b.Named ndm' attrs')
    (hfamily : a.family = b.family) (hifindex : a.ifindex = b.ifindex) :
    keyDst (a.dst libc) = keyDst (b.dst libc) ↔ (b.Ip → a = b) := by
  have htext : ∀ {s t : String}, s ≠ "" → t ≠ "" → (keyDst s = keyDst t ↔ s = t) := by
    intro s t hs ht
    rw [keyDst, keyDst, if_neg hs, if_neg ht]
  by_cases hip : b.Ip
  · rw [imp_iff_right hip]
    cases b with
    | inet ifindex addr =>
      obtain ⟨index, addr', rfl⟩ := ha.of_inet hfamily
      obtain rfl : index = ifindex := hifindex
      rw [dst, dst, htext (inetNtop_ne_empty _) (inetNtop_ne_empty _), inetNtop_injective.eq_iff, inet.injEq,
        and_iff_right rfl]
    | inet6 ifindex addr =>
      obtain ⟨index, addr', rfl⟩ := ha.of_inet6 hfamily
      obtain rfl : index = ifindex := hifindex
      rw [dst, dst, htext (hne _) (hne _), hinj.eq_iff, inet6.injEq, and_iff_right rfl]
    | bridge ifindex mac vlan => exact absurd hip id
    | other family ifindex addr => exact absurd hip id
  · obtain ⟨h4, h6, hbdst⟩ := hb.of_not_ip hip
    have haip : ¬a.Ip := by
      cases a with
      | inet ifindex addr => exact absurd hfamily.symm h4
      | inet6 ifindex addr => exact absurd hfamily.symm h6
      | bridge ifindex mac vlan => exact id
      | other family ifindex addr => exact id
    rw [(ha.of_not_ip haip).2.2, hbdst]
    exact iff_of_true rfl fun h => absurd h hip

end NeighId

variable {libc}

/-- When the rows of two messages have the same key. -/
theorem key_row_iff (hinj : Function.Injective libc.inet_ntop6) (hne : ∀ addr, libc.inet_ntop6 addr ≠ "")
    (w m : NeighMessage) : (w.row libc).key = (m.row libc).key ↔
      w.id.family = m.id.family ∧ w.id.ifindex = m.id.ifindex ∧ (m.id.Ip → w.id = m.id) := by
  have hkey : ∀ m : NeighMessage,
      (m.row libc).key = neighKey m.id.family m.id.ifindex.toInt32 (m.id.dst libc) := by
    intro m
    obtain ⟨hfamily, hifindex, hdst⟩ := m.named.neigh libc
    rw [← hfamily, ← hifindex, ← hdst]
    rfl
  have hcast : w.id.ifindex.toInt32 = m.id.ifindex.toInt32 ↔ w.id.ifindex = m.id.ifindex :=
    ⟨fun h => by simpa using congrArg Int32.toUInt32 h, fun h => by rw [h]⟩
  rw [hkey, hkey, neighKey_inj, hcast]
  refine and_congr_right fun hfamily => and_congr_right fun hifindex => ?_
  exact NeighId.keyDst_eq_iff hinj hne w.named m.named hfamily hifindex

/-! ### Runs -/

/-- A message is dispatched, and the callback called. -/
def neighStep (libc : Libc) (neighbors : Neighbors) (m : NeighMessage) : Option Neighbors :=
  match nlNeighDispatch libc m.hdr m.nlh with
  | .ok (some (event, n)) => some (nlNeighUpdate event n neighbors)
  | .ok none => some neighbors
  | .error _ => none

/-- The messages that are the last of their neighbor, of those the `RTM_NEWNEIGH` ones. -/
def lastNew : List NeighMessage → List NeighMessage
  | [] => []
  | m :: ms =>
    if m.hdr.nlmsg_type = RTM_NEWNEIGH ∧ ∀ m' ∈ ms, m'.id ≠ m.id then m :: lastNew ms else lastNew ms

/-- One row for each neighbor whose last message was `RTM_NEWNEIGH`, with what that message says. -/
def ExactAfter (libc : Libc) (ms : List NeighMessage) (neighbors : Neighbors) : Prop :=
  neighbors.rows.Perm ((lastNew ms).map (NeighMessage.row libc))

/-- A neighbor with an IP address, or the only one of its family on its interface. -/
def NeighMessage.Alone (m : NeighMessage) (seen : List NeighMessage) : Prop :=
  m.id.Ip ∨
    ∀ w ∈ lastNew seen, w.id.family = m.id.family → w.id.ifindex = m.id.ifindex → w.id = m.id

theorem lastNew_concat (ms : List NeighMessage) (m : NeighMessage) :
    lastNew (ms ++ [m]) = ((lastNew ms).filter fun w => w.id ≠ m.id) ++
      if m.hdr.nlmsg_type = RTM_NEWNEIGH then [m] else [] := by
  induction ms with
  | nil =>
    show ite (_ ∧ ∀ m' ∈ [], _) _ _ = _
    simp only [List.not_mem_nil, false_imp_iff, implies_true, and_true]
    rfl
  | cons a ms ih =>
    rw [List.cons_append, lastNew, lastNew, ih]
    by_cases hlast : a.hdr.nlmsg_type = RTM_NEWNEIGH ∧ ∀ m' ∈ ms, m'.id ≠ a.id
    · by_cases hid : a.id = m.id
      · have hno : ¬(a.hdr.nlmsg_type = RTM_NEWNEIGH ∧ ∀ m' ∈ ms ++ [m], m'.id ≠ a.id) :=
          fun h => h.2 m (by simp) hid.symm
        rw [if_pos hlast, if_neg hno, List.filter_cons_of_neg (by simpa using hid)]
      · have hyes : a.hdr.nlmsg_type = RTM_NEWNEIGH ∧ ∀ m' ∈ ms ++ [m], m'.id ≠ a.id :=
          ⟨hlast.1, by simpa [or_imp, forall_and] using ⟨hlast.2, Ne.symm hid⟩⟩
        rw [if_pos hlast, if_pos hyes, List.filter_cons_of_pos (by simpa using hid), List.cons_append]
    · have hno : ¬(a.hdr.nlmsg_type = RTM_NEWNEIGH ∧ ∀ m' ∈ ms ++ [m], m'.id ≠ a.id) :=
        fun h => hlast ⟨h.1, fun m' hm' => h.2 m' (List.mem_append_left _ hm')⟩
      rw [if_neg hlast, if_neg hno]

theorem neighStep_eq (neighbors : Neighbors) (m : NeighMessage) :
    neighStep libc neighbors m = some (updateTable m.event (m.row libc) neighbors) := by
  rw [neighStep, nlNeighDispatch_message]
  rfl

/-- From a table that is exact, a message gives one again exactly when its neighbor is alone. -/
theorem neighStep_exact (hinj : Function.Injective libc.inet_ntop6)
    (hne : ∀ addr, libc.inet_ntop6 addr ≠ "") {neighbors : Neighbors} {ms : List NeighMessage}
    {m : NeighMessage} (hs : ExactAfter libc ms neighbors) :
    ExactAfter libc (ms ++ [m]) (updateTable m.event (m.row libc) neighbors) ↔ m.Alone ms := by
  have hkey : ∀ w : NeighMessage, w.id = m.id → (w.row libc).key = (m.row libc).key := fun w hw =>
    (key_row_iff hinj hne w m).mpr ⟨by rw [hw], by rw [hw], fun _ => hw⟩
  have halone : (∀ w ∈ lastNew ms, (w.row libc).key = (m.row libc).key → w.id = m.id) ↔
      m.Alone ms := by
    simp only [key_row_iff hinj hne]
    constructor
    · intro hall
      by_cases hip : m.id.Ip
      · exact .inl hip
      · exact .inr fun w hw hfamily hifindex => hall w hw ⟨hfamily, hifindex, fun h => absurd h hip⟩
    · rintro (hip | hall) w hw ⟨hfamily, hifindex, himp⟩
      · exact himp hip
      · exact hall w hw hfamily hifindex
  rw [← halone, ExactAfter, lastNew_concat, NeighMessage.event]
  by_cases hnew : m.hdr.nlmsg_type = RTM_NEWNEIGH
  · rw [if_pos hnew, if_pos hnew, ← Keyed.put_perm_iff hkey hs]
    split_ifs
    · rfl
    · rfl
  · rw [if_neg hnew, if_neg hnew, List.append_nil, ← Keyed.erase_perm_iff hkey hs]
    rfl

/-- **The table has exactly the neighbors whose last message was `RTM_NEWNEIGH`, after every message of a
sequence, exactly when no message is about a forwarding entry beside another one of its interface.** -/
theorem neighTable_exact_iff (hinj : Function.Injective libc.inet_ntop6)
    (hne : ∀ addr, libc.inet_ntop6 addr ≠ "") (ms : List NeighMessage) :
    (∀ bs, bs <+: ms → ∃ t, run (neighStep libc) .empty bs = some t ∧ ExactAfter libc bs t) ↔
      ∀ bs m, bs ++ [m] <+: ms → m.Alone bs := by
  induction ms using List.reverseRecOn with
  | nil =>
    refine iff_of_true (fun bs hbs => ?_) fun bs m hbs => absurd (List.prefix_nil.mp hbs) (by simp)
    rw [List.prefix_nil.mp hbs]
    exact ⟨.empty, rfl, List.Perm.nil⟩
  | append_singleton ms m ih =>
    have hlast : (∃ t, run (neighStep libc) .empty ms = some t ∧ ExactAfter libc ms t) →
        ((∃ t, run (neighStep libc) .empty (ms ++ [m]) = some t ∧ ExactAfter libc (ms ++ [m]) t) ↔
          m.Alone ms) := by
      rintro ⟨t, hrun, hexact⟩
      have hstep : run (neighStep libc) .empty (ms ++ [m]) = some (updateTable m.event (m.row libc) t) :=
        run_append.mpr ⟨t, hrun, run_cons.mpr ⟨_, neighStep_eq t m, rfl⟩⟩
      rw [← neighStep_exact hinj hne hexact, hstep]
      exact ⟨fun ⟨t', heq, h⟩ => Option.some.inj heq ▸ h, fun h => ⟨_, rfl, h⟩⟩
    simp only [List.prefix_concat_iff, List.append_singleton_inj]
    constructor
    · rintro hall bs m' (⟨rfl, rfl⟩ | hbs)
      · exact (hlast (hall bs (.inr (List.prefix_refl _)))).mp (hall _ (.inl rfl))
      · exact ih.mp (fun bs' hbs' => hall bs' (.inr hbs')) bs m' hbs
    · rintro hall bs (rfl | hbs)
      · have hms := ih.mpr fun bs' m' hbs' => hall bs' m' (.inr hbs')
        exact (hlast (hms ms (List.prefix_refl _))).mpr (hall ms m (.inl ⟨rfl, rfl⟩))
      · exact ih.mpr (fun bs' m' hbs' => hall bs' m' (.inr hbs')) bs hbs

/-! ### Two forwarding entries -/

/-- The MAC address 02:00:00:00:00 with a last byte. -/
def fdbLladdr (last : UInt8) : RtAttr := ⟨NDA_LLADDR, [2, 0, 0, 0, 0, last], by simp⟩

theorem fdbLladdr_rtype (last : UInt8) : (fdbLladdr last).rtype = NDA_LLADDR :=
  (by decide : NDA_LLADDR &&& 0x00ff = NDA_LLADDR)

def fdbHeader : List UInt8 := List.replicate 16 0 ++ [AF_BRIDGE, 0, 0, 0, 3, 0, 0, 0, 2, 0, 2, 0]

theorem fdbMessage_length (last : UInt8) : (fdbHeader ++ (fdbLladdr last).bytes).length = 40 := by
  rw [List.length_append, rta_bytes_length]
  simp [fdbHeader, fdbLladdr, RtAttr.rta_len, align4]

/-- An `RTM_NEWNEIGH` message about a forwarding entry of interface 3. -/
def fdbMessage (last : UInt8) : NeighMessage where
  hdr := ⟨40, RTM_NEWNEIGH, 0⟩
  nlh := fdbHeader ++ (fdbLladdr last).bytes
  ndm := ⟨AF_BRIDGE, 3, 2, 2, 0⟩
  attrs := [fdbLladdr last]
  id := .bridge 3 ⟨[2, 0, 0, 0, 0, last], rfl⟩ 0
  type := .inl rfl
  received := (fdbMessage_length last).ge
  header := (by decide : (28 : UInt32) ≤ 40)
  ndmsg := ⟨rfl, rfl, rfl, rfl, rfl⟩
  attributes := by
    show ((fdbHeader ++ (fdbLladdr last).bytes).take 40).drop 28 = _
    rw [List.take_of_length_le (fdbMessage_length last).le, List.flatMap_singleton]
    exact List.drop_left' rfl
  once := List.nodup_singleton _
  named := by
    refine ⟨rfl, rfl, attrOf_absent ?_, ?_, attrValue_absent ?_⟩
    · simp [fdbLladdr_rtype, NDA_LLADDR, NDA_DST]
    · rw [attrOf, List.find?_cons_of_pos (by simpa using fdbLladdr_rtype last)]
      rfl
    · simp [fdbLladdr_rtype, NDA_LLADDR, NDA_VLAN]

/-- A forwarding entry that is the only one of its interface. -/
theorem neighTable_exact_one :
    (∀ bs, bs <+: [fdbMessage 1] →
      ∃ t, run (neighStep noLibc) .empty bs = some t ∧ ExactAfter noLibc bs t) ↔
      ∀ bs m, bs ++ [m] <+: [fdbMessage 1] → m.Alone bs :=
  neighTable_exact_iff inetNtop6_injective inetNtop6_ne_empty [fdbMessage 1]

/-- Of two entries of one interface the table has one. -/
theorem neighTable_fdb_collide :
    ¬ ∀ (libc : Libc) (ms : List NeighMessage), Function.Injective libc.inet_ntop6 →
      (∀ addr, libc.inet_ntop6 addr ≠ "") →
        ∃ t, run (neighStep libc) .empty ms = some t ∧ ExactAfter libc ms t := by
  intro h
  obtain ⟨t, hrun, hexact⟩ := h noLibc [fdbMessage 1, fdbMessage 2] inetNtop6_injective inetNtop6_ne_empty
  rw [run, neighStep_eq] at hrun
  obtain ⟨_, hsecond, hend⟩ := run_cons.mp hrun
  rw [neighStep_eq] at hsecond
  obtain rfl := Option.some.inj (hsecond.trans hend)
  have hnil : ExactAfter noLibc [] .empty := List.Perm.nil
  have hone : ExactAfter noLibc ([] ++ [fdbMessage 1]) _ :=
    (neighStep_exact inetNtop6_injective inetNtop6_ne_empty hnil).mpr
      (.inr fun w hw => absurd hw List.not_mem_nil)
  rcases (neighStep_exact inetNtop6_injective inetNtop6_ne_empty hone).mp hexact with
    hip | halone
  · exact hip
  · have hmem : fdbMessage 1 ∈ lastNew [fdbMessage 1] := by simp [lastNew, fdbMessage]
    have hsame := halone _ hmem rfl rfl
    simp [fdbMessage] at hsame

end Rtsrv.Client
