import Rtsrv.Client.NeighTable

/-!
# Rtsrv.Client.NexthopTable — the descriptor of a nexthop object (`netlink_nexthop.c`)

What the callback of `nl_nexthop_dispatch` is called with, field by field, on a message whose attributes are
padded and have no type twice.
-/

namespace Rtsrv.Client

open Lib CmdProto

/-- What is read of `nhmsg`. -/
structure NhMsg where
  nh_family : UInt8
  nh_scope : UInt8
  nh_protocol : UInt8
  nh_flags : UInt32
  deriving DecidableEq, Repr

/-- The message has this `nhmsg` behind its header. -/
def NhMsg.At (nhm : NhMsg) (nlh : List UInt8) : Prop :=
  byteAt nlh 16 = .ok nhm.nh_family ∧ byteAt nlh 17 = .ok nhm.nh_scope ∧
    byteAt nlh 18 = .ok nhm.nh_protocol ∧ u32At nlh 20 = .ok nhm.nh_flags

/-- The entries of an `NHA_GROUP` payload that fit the descriptor. -/
def groupEntries (a : RtAttr) : Access (List NexthopGrp) :=
  (List.range (min (a.data.length / 8) NETLINK_NEXTHOP_MAX_GROUP)).mapM (groupEntry a.data)

variable (libc : Libc)

/-- The descriptor of a header and its attributes, field by field. -/
def NhMsg.nexthop (nhm : NhMsg) (attrs : List RtAttr) : NetlinkNexthop where
  family := nhm.nh_family
  scope := nhm.nh_scope
  protocol := nhm.nh_protocol
  flags := nhm.nh_flags
  id := attrValue attrs NHA_ID 4 (fun a => u32At a.data 0) 0
  oif := attrValue attrs NHA_OIF 4 (fun a => u32At a.data 0) 0
  oif_name := attrValue attrs NHA_OIF 4 (fun a => (nameOf libc · "") <$> u32At a.data 0) ""
  gateway := attrValue attrs NHA_GATEWAY 0 (dispatchAddr libc nhm.nh_family · "") ""
  blackhole := attrValue attrs NHA_BLACKHOLE 0 (fun _ => pure 1) 0
  fdb := attrValue attrs NHA_FDB 0 (fun _ => pure 1) 0
  master := attrValue attrs NHA_MASTER 4 (fun a => u32At a.data 0) 0
  master_name := attrValue attrs NHA_MASTER 4 (fun a => (nameOf libc · "") <$> u32At a.data 0) ""
  group := attrValue attrs NHA_GROUP 0 groupEntries []
  group_type := attrValue attrs NHA_GROUP_TYPE 2 (fun a => u16At a.data 0) 0
  encap_type := attrValue attrs NHA_ENCAP_TYPE 2 (fun a => u16At a.data 0) 0

section Walk

variable {libc} {nhm : NhMsg} {attrs : List RtAttr} {a : RtAttr} {β δ : Type} {type : UInt16} {n : ℕ}

theorem groupEntries_ok (a : RtAttr) : ∃ group, groupEntries a = .ok group := by
  refine mapM_total fun i hi => groupEntry_ok ?_
  have hlt := List.mem_range.mp hi
  omega

/-- A branch of the switch that reads one value of its attribute and sets what it says. -/
theorem withPayload_sets {copy : List UInt8 → Access β} {before after : δ} (absent : β) (set : β → δ)
    (h : ∀ b ∈ attrs, b.rtype ≠ type) (ha : a.rtype = type) (hset : set absent = before)
    (hread : set (attrValue (attrs ++ [a]) type n (fun a => copy a.data) absent) = after)
    (hcopy : n ≤ a.data.length → ∃ v, copy a.data = .ok v) :
    withPayload n a before (fun data => copy data >>= fun v => pure (set v)) = .ok after := by
  rw [← hread, attrValue_concat h ha]
  unfold withPayload
  by_cases hlen : n ≤ a.data.length
  · obtain ⟨v, hv⟩ := hcopy hlen
    rw [if_pos hlen, if_pos hlen]
    show (copy a.data >>= _) = _
    rw [hv]
    rfl
  · rw [if_neg hlen, if_neg hlen, hset]
    rfl

/-- A branch that reads an interface index and its name. -/
theorem withPayload_names {before after : δ} (set : UInt32 → String → δ)
    (h : ∀ b ∈ attrs, b.rtype ≠ type) (ha : a.rtype = type) (hset : set 0 "" = before)
    (hread : set (attrValue (attrs ++ [a]) type 4 (fun a => u32At a.data 0) 0)
      (attrValue (attrs ++ [a]) type 4 (fun a => (nameOf libc · "") <$> u32At a.data 0) "") = after) :
    withPayload 4 a before (fun data => u32At data 0 >>= fun index =>
      pure (set index (nameOf libc index ""))) = .ok after := by
  rw [← hread, attrValue_concat h ha, attrValue_concat h ha]
  unfold withPayload
  by_cases hlen : 4 ≤ a.data.length
  · obtain ⟨index, hindex⟩ := u32At_ok a.data (i := 0) hlen
    rw [if_pos hlen, if_pos hlen, if_pos hlen, hindex]
    show (u32At a.data 0 >>= _) = _
    rw [hindex]
    rfl
  · rw [if_neg hlen, if_neg hlen, if_neg hlen, hset]
    rfl

/-- The switch adds the attribute, if it is the first of its type. -/
theorem nexthopAttr_nexthop (h : ∀ b ∈ attrs, b.rtype ≠ a.rtype) :
    nexthopAttr libc (nhm.nexthop libc attrs) a = .ok (nhm.nexthop libc (attrs ++ [a])) := by
  simp only [nexthopAttr, show a.rta_type &&& 0x00ff = a.rtype from rfl]
  by_cases hid : a.rtype = NHA_ID
  · rw [hid] at h
    rw [if_pos hid]
    refine withPayload_sets 0 (fun v => { nhm.nexthop libc attrs with id := v }) h hid ?_ ?_ ?_
    · simp only [NhMsg.nexthop, attrValue_absent h]
    · simp (disch := (rw [hid]; decide)) only [NhMsg.nexthop, attrValue_concat_ne]
    · exact u32At_ok a.data
  rw [if_neg hid]
  by_cases hoif : a.rtype = NHA_OIF
  · rw [hoif] at h
    have hempty : (nhm.nexthop libc attrs).oif_name = "" := attrValue_absent h
    rw [if_pos hoif, hempty]
    refine withPayload_names (fun v name => { nhm.nexthop libc attrs with oif := v, oif_name := name }) h hoif
      ?_ ?_
    · simp only [NhMsg.nexthop, attrValue_absent h]
    · simp (disch := (rw [hoif]; decide)) only [NhMsg.nexthop, attrValue_concat_ne]
  rw [if_neg hoif]
  by_cases hgateway : a.rtype = NHA_GATEWAY
  · rw [hgateway] at h
    obtain ⟨text, htext⟩ := dispatchAddr_ok libc nhm.nh_family a ""
    have hempty : (nhm.nexthop libc attrs).gateway = "" := attrValue_absent h
    rw [if_pos hgateway, hempty]
    show (dispatchAddr libc nhm.nh_family a "" >>= _) = _
    rw [htext, ok_bind]
    simp (disch := (rw [hgateway]; decide)) only [NhMsg.nexthop, attrValue_concat_ne]
    rw [attrValue_concat h hgateway, if_pos (Nat.zero_le _), htext]
    rfl
  rw [if_neg hgateway]
  by_cases hblackhole : a.rtype = NHA_BLACKHOLE
  · rw [hblackhole] at h
    rw [if_pos hblackhole]
    simp (disch := (rw [hblackhole]; decide)) only [NhMsg.nexthop, attrValue_concat_ne]
    rw [attrValue_concat h hblackhole, if_pos (Nat.zero_le _)]
    rfl
  rw [if_neg hblackhole]
  by_cases hfdb : a.rtype = NHA_FDB
  · rw [hfdb] at h
    rw [if_pos hfdb]
    simp (disch := (rw [hfdb]; decide)) only [NhMsg.nexthop, attrValue_concat_ne]
    rw [attrValue_concat h hfdb, if_pos (Nat.zero_le _)]
    rfl
  rw [if_neg hfdb]
  by_cases hmaster : a.rtype = NHA_MASTER
  · rw [hmaster] at h
    have hempty : (nhm.nexthop libc attrs).master_name = "" := attrValue_absent h
    rw [if_pos hmaster, hempty]
    refine withPayload_names
      (fun v name => { nhm.nexthop libc attrs with master := v, master_name := name }) h hmaster ?_ ?_
    · simp only [NhMsg.nexthop, attrValue_absent h]
    · simp (disch := (rw [hmaster]; decide)) only [NhMsg.nexthop, attrValue_concat_ne]
  rw [if_neg hmaster]
  by_cases hgroup : a.rtype = NHA_GROUP
  · rw [hgroup] at h
    obtain ⟨group, hentries⟩ := groupEntries_ok a
    rw [if_pos hgroup]
    show (groupEntries a >>= _) = _
    rw [hentries, ok_bind]
    simp (disch := (rw [hgroup]; decide)) only [NhMsg.nexthop, attrValue_concat_ne]
    rw [attrValue_concat h hgroup, if_pos (Nat.zero_le _), hentries]
    rfl
  rw [if_neg hgroup]
  by_cases htype : a.rtype = NHA_GROUP_TYPE
  · rw [htype] at h
    rw [if_pos htype]
    refine withPayload_sets 0 (fun v => { nhm.nexthop libc attrs with group_type := v }) h htype ?_ ?_ ?_
    · simp only [NhMsg.nexthop, attrValue_absent h]
    · simp (disch := (rw [htype]; decide)) only [NhMsg.nexthop, attrValue_concat_ne]
    · exact u16At_ok a.data
  rw [if_neg htype]
  by_cases hencap : a.rtype = NHA_ENCAP_TYPE
  · rw [hencap] at h
    rw [if_pos hencap]
    refine withPayload_sets 0 (fun v => { nhm.nexthop libc attrs with encap_type := v }) h hencap ?_ ?_ ?_
    · simp only [NhMsg.nexthop, attrValue_absent h]
    · simp (disch := (rw [hencap]; decide)) only [NhMsg.nexthop, attrValue_concat_ne]
    · exact u16At_ok a.data
  rw [if_neg hencap]
  simp (disch := assumption) only [NhMsg.nexthop, attrValue_concat_ne]
  rfl

/-- The walk collects the attributes. -/
theorem foldlM_nexthop (libc : Libc) (nhm : NhMsg) (attrs : List RtAttr)
    (h : (attrs.map RtAttr.rtype).Nodup) :
    attrs.foldlM (nexthopAttr libc) (nhm.nexthop libc []) = .ok (nhm.nexthop libc attrs) := by
  induction attrs using List.reverseRecOn with
  | nil => rfl
  | append_singleton attrs a ih =>
    rw [List.map_append, List.map_singleton, List.nodup_append] at h
    obtain ⟨hattrs, -, hnew⟩ := h
    rw [List.foldlM_append, ih hattrs, ok_bind, List.foldlM_cons,
      nexthopAttr_nexthop fun b hb => hnew _ (List.mem_map_of_mem hb) _ (List.mem_singleton_self _)]
    rfl

end Walk

variable {libc} {hdr : NlMsgHdr} {nlh : List UInt8} {nhm : NhMsg} {attrs : List RtAttr}

/-- **The callback is called with the event and with what the header and the attributes describe.** -/
theorem nlNexthopDispatch_message (hlen : hdr.nlmsg_len.toNat ≤ nlh.length) (hheader : 24 ≤ hdr.nlmsg_len)
    {event : NetlinkEvent} (hevent : hdr.event RTM_NEWNEXTHOP RTM_DELNEXTHOP = some event) (hnhm : nhm.At nlh)
    (hattrs : attrBytes hdr nlh 24 = attrs.flatMap RtAttr.bytes) (honce : (attrs.map RtAttr.rtype).Nodup) :
    nlNexthopDispatch libc hdr nlh = .ok (some (event, nhm.nexthop libc attrs)) := by
  obtain ⟨hfamily, hscope, hprotocol, hflags⟩ := hnhm
  have hwalk : attrWalk (fun nh _ a => nexthopAttr libc nh a) (attrBytes hdr nlh 24) (hdr.nlmsg_len - 24)
      (nhm.nexthop libc []) = .ok (nhm.nexthop libc attrs) := by
    refine (attrWalk_visits (attrlen_message hlen hheader)).mpr ?_
    show (visits rtaNextUnsigned (attrBytes hdr nlh 24) >>= _) = _
    rw [hattrs, visits_rtaNextUnsigned, ok_bind, foldlM_nexthop libc nhm attrs honce]
  rw [nlNexthopDispatch, if_neg (UInt32.not_lt.mpr hheader), hevent, hfamily, hscope, hprotocol, hflags]
  show (attrWalk _ _ _ (nhm.nexthop libc []) >>= _) = _
  rw [hwalk]
  rfl

end Rtsrv.Client
