import Rtsrv.Client.NlOspfLog

/-!
# Rtsrv.Client.NlDispatch — the three dispatchers of a message

`nl_neigh_dispatch` (`netlink_neigh.c`) and `nl_nexthop_dispatch` (`netlink_nexthop.c`) leave a message that
is shorter than its fixed header, `nl_dispatch` (`netlink.c`) does not: it filters by header fields that
need not have been received.
-/

namespace Rtsrv.Client

open Lib CmdProto

variable (libc : Libc)

def RTM_NEWNEIGH : UInt16 := 28
def RTM_DELNEIGH : UInt16 := 29
def RTM_NEWNEXTHOP : UInt16 := 104
def RTM_DELNEXTHOP : UInt16 := 105

/-- The event of the message type and flags. -/
def NlMsgHdr.event (hdr : NlMsgHdr) (new del : UInt16) : Option NetlinkEvent :=
  if hdr.nlmsg_type = new then
    some (if hdr.nlmsg_flags &&& NLM_F_REPLACE ≠ 0 then .CHANGED else .ADDED)
  else if hdr.nlmsg_type = del then some .REMOVED
  else none

/-- What the callback is called with, if it is called.  The filters read the `rtmsg` header before its
length has been looked at. -/
def nlDispatch (hdr : NlMsgHdr) (nlh : List UInt8) : Access (Option (NetlinkEvent × NetlinkRoute32)) := do
  let rtm_family ← byteAt nlh 16
  if rtm_family ≠ AF_INET then pure none
  else
    let _printed ← nlLogOspf libc hdr nlh
    let rtm_dst_len ← byteAt nlh 17
    if rtm_dst_len ≠ 32 then pure none
    else
      let rtm_type ← byteAt nlh 23
      if rtm_type ≠ RTN_UNICAST then pure none
      else
        match hdr.event RTM_NEWROUTE RTM_DELROUTE with
        | none => pure none
        | some event =>
          let rtm_tos ← byteAt nlh 19
          let rtm_table ← byteAt nlh 20
          let rtm_protocol ← byteAt nlh 21
          let rtm_scope ← byteAt nlh 22
          let rtm_flags ← u32At nlh 24
          let route ← attrWalk (fun route _ a => dispatchAttr libc route a) (attrBytes hdr nlh 28)
            (hdr.nlmsg_len - 28)
            { family := rtm_family
              dst_len := rtm_dst_len
              tos := rtm_tos
              scope := rtm_scope
              type := rtm_type
              flags := rtm_flags
              protocol := rtm_protocol
              table := rtm_table.toUInt32
              dst := anyAddr
              gateway := anyAddr
              ifindex := 0
              ifname := ""
              metric := 0 }
          pure (some (event, route))

def nlNeighDispatch (hdr : NlMsgHdr) (nlh : List UInt8) : Access (Option (NetlinkEvent × NetlinkNeigh)) :=
  if hdr.nlmsg_len < 28 then pure none
  else
    match hdr.event RTM_NEWNEIGH RTM_DELNEIGH with
    | none => pure none
    | some event => do
      let ndm_family ← byteAt nlh 16
      let ndm_ifindex ← u32At nlh 20
      let ndm_state ← u16At nlh 24
      let ndm_flags ← byteAt nlh 26
      let ndm_type ← byteAt nlh 27
      let n ← attrWalk (fun n _ a => neighAttr libc n a) (attrBytes hdr nlh 28) (hdr.nlmsg_len - 28)
        { family := ndm_family
          ifindex := ndm_ifindex.toInt32
          ifname := if 0 < ndm_ifindex.toInt32 then (libc.if_indextoname ndm_ifindex).getD "" else ""
          state := ndm_state
          flags := ndm_flags
          type := ndm_type
          dst := ""
          lladdr := []
          confirmed_ms := 0
          used_ms := 0
          updated_ms := 0
          refcnt := 0
          probes := 0
          vlan := 0
          master := 0
          master_name := ""
          nh_ifindex := 0
          protocol := 0 }
      pure (some (event, n))

def nlNexthopDispatch (hdr : NlMsgHdr) (nlh : List UInt8) :
    Access (Option (NetlinkEvent × NetlinkNexthop)) :=
  if hdr.nlmsg_len < 24 then pure none
  else
    match hdr.event RTM_NEWNEXTHOP RTM_DELNEXTHOP with
    | none => pure none
    | some event => do
      let nh_family ← byteAt nlh 16
      let nh_scope ← byteAt nlh 17
      let nh_protocol ← byteAt nlh 18
      let nh_flags ← u32At nlh 20
      let nh ← attrWalk (fun nh _ a => nexthopAttr libc nh a) (attrBytes hdr nlh 24) (hdr.nlmsg_len - 24)
        { family := nh_family
          scope := nh_scope
          protocol := nh_protocol
          flags := nh_flags
          id := 0
          oif := 0
          oif_name := ""
          gateway := ""
          blackhole := 0
          fdb := 0
          master := 0
          master_name := ""
          group := []
          group_type := 0
          encap_type := 0 }
      pure (some (event, nh))

/-! ### What the dispatchers read -/

/-- The header fields that `nl_dispatch` filters by are received, the log can be written, and a message that
passes is as long as its header and has its attributes padded. -/
def RouteReadable (hdr : NlMsgHdr) (nlh : List UInt8) : Prop :=
  ∃ rtm_family, nlh[16]? = some rtm_family ∧ (rtm_family = AF_INET →
    OspfReadable hdr nlh ∧ ∃ rtm_dst_len, nlh[17]? = some rtm_dst_len ∧ (rtm_dst_len = 32 →
      ∃ rtm_type, nlh[23]? = some rtm_type ∧ (rtm_type = RTN_UNICAST →
        28 ≤ hdr.nlmsg_len ∧ AttrsPadded (attrBytes hdr nlh 28))))

/-- A message as long as the fixed header that ends at `start` has its attributes padded. -/
def AttrsReadable (start : UInt32) (hdr : NlMsgHdr) (nlh : List UInt8) : Prop :=
  start ≤ hdr.nlmsg_len → AttrsPadded (attrBytes hdr nlh start.toNat)

variable {libc} {hdr : NlMsgHdr} {nlh : List UInt8}

theorem event_of_mine {new del : UInt16} (h : hdr.nlmsg_type = new ∨ hdr.nlmsg_type = del) :
    ∃ event, hdr.event new del = some event := by
  unfold NlMsgHdr.event
  by_cases hnew : hdr.nlmsg_type = new
  · exact ⟨_, if_pos hnew⟩
  · rw [if_neg hnew, if_pos (h.resolve_left hnew)]
    exact ⟨_, rfl⟩

theorem nlDispatch_iff (hlen : hdr.nlmsg_len.toNat ≤ nlh.length) (hlow : 16 ≤ hdr.nlmsg_len.toNat)
    (hmine : hdr.nlmsg_type = RTM_NEWROUTE ∨ hdr.nlmsg_type = RTM_DELROUTE) :
    (∃ event, nlDispatch libc hdr nlh = .ok event) ↔ RouteReadable hdr nlh := by
  obtain ⟨event, hevent⟩ := event_of_mine hmine
  unfold nlDispatch RouteReadable
  rw [byteAt_filter]
  refine exists_congr fun family => and_congr_right fun _ => imp_congr_right fun _ => ?_
  rw [bind_const_iff, nlLogOspf_iff hlen hlow, byteAt_filter]
  refine and_congr_right fun _ => exists_congr fun dst_len => and_congr_right fun _ =>
    imp_congr_right fun _ => ?_
  rw [byteAt_filter]
  refine exists_congr fun type => and_congr_right fun _ => imp_congr_right fun _ => ?_
  rw [hevent]
  dsimp only
  by_cases hstart : 28 ≤ hdr.nlmsg_len
  · have hreceived : 28 ≤ nlh.length := (UInt32.le_iff_toNat_le.mp hstart).trans hlen
    obtain ⟨tos, htos⟩ := byteAt_ok nlh (i := 19) (by omega)
    obtain ⟨table, htable⟩ := byteAt_ok nlh (i := 20) (by omega)
    obtain ⟨protocol, hprotocol⟩ := byteAt_ok nlh (i := 21) (by omega)
    obtain ⟨scope, hscope⟩ := byteAt_ok nlh (i := 22) (by omega)
    obtain ⟨flags, hflags⟩ := u32At_ok nlh (i := 24) (by omega)
    rw [htos, ok_bind, htable, ok_bind, hprotocol, ok_bind, hscope, ok_bind, hflags, ok_bind, bind_pure_iff,
      and_iff_right hstart]
    exact attrWalk_total (dispatchAttr_total libc) (attrlen_message hlen hstart) _
  · refine iff_of_false ?_ fun hread => hstart hread.1
    have hshort : hdr.nlmsg_len.toNat < 28 := UInt32.lt_iff_toNat_lt.mp (UInt32.not_le.mp hstart)
    refine bind_fails fun tos => bind_fails fun table => bind_fails fun protocol => bind_fails fun scope =>
      bind_fails fun flags => ?_
    rw [bind_pure_iff]
    exact attrWalk_short hlen hlow hshort _

theorem nlNeighDispatch_iff (hlen : hdr.nlmsg_len.toNat ≤ nlh.length)
    (hmine : hdr.nlmsg_type = RTM_NEWNEIGH ∨ hdr.nlmsg_type = RTM_DELNEIGH) :
    (∃ event, nlNeighDispatch libc hdr nlh = .ok event) ↔ AttrsReadable 28 hdr nlh := by
  obtain ⟨event, hevent⟩ := event_of_mine hmine
  unfold nlNeighDispatch AttrsReadable
  by_cases hshort : hdr.nlmsg_len < 28
  · rw [if_pos hshort]
    exact iff_of_true ⟨none, rfl⟩ fun hle => absurd hshort (UInt32.not_lt.mpr hle)
  · have hle : 28 ≤ hdr.nlmsg_len := UInt32.not_lt.mp hshort
    have hreceived : 28 ≤ nlh.length := (UInt32.le_iff_toNat_le.mp hle).trans hlen
    obtain ⟨family, hfamily⟩ := byteAt_ok nlh (i := 16) (by omega)
    obtain ⟨ifindex, hifindex⟩ := u32At_ok nlh (i := 20) (by omega)
    obtain ⟨state, hstate⟩ := u16At_ok nlh (i := 24) (by omega)
    obtain ⟨flags, hflags⟩ := byteAt_ok nlh (i := 26) (by omega)
    obtain ⟨type, htype⟩ := byteAt_ok nlh (i := 27) (by omega)
    rw [if_neg hshort, hevent]
    dsimp only
    rw [hfamily, ok_bind, hifindex, ok_bind, hstate, ok_bind, hflags, ok_bind, htype, ok_bind]
    rw [imp_iff_right hle, bind_pure_iff]
    exact attrWalk_total (neighAttr_total libc) (attrlen_message hlen hle) _

theorem nlNexthopDispatch_iff (hlen : hdr.nlmsg_len.toNat ≤ nlh.length)
    (hmine : hdr.nlmsg_type = RTM_NEWNEXTHOP ∨ hdr.nlmsg_type = RTM_DELNEXTHOP) :
    (∃ event, nlNexthopDispatch libc hdr nlh = .ok event) ↔ AttrsReadable 24 hdr nlh := by
  obtain ⟨event, hevent⟩ := event_of_mine hmine
  unfold nlNexthopDispatch AttrsReadable
  by_cases hshort : hdr.nlmsg_len < 24
  · rw [if_pos hshort]
    exact iff_of_true ⟨none, rfl⟩ fun hle => absurd hshort (UInt32.not_lt.mpr hle)
  · have hle : 24 ≤ hdr.nlmsg_len := UInt32.not_lt.mp hshort
    have hreceived : 24 ≤ nlh.length := (UInt32.le_iff_toNat_le.mp hle).trans hlen
    obtain ⟨family, hfamily⟩ := byteAt_ok nlh (i := 16) (by omega)
    obtain ⟨scope, hscope⟩ := byteAt_ok nlh (i := 17) (by omega)
    obtain ⟨protocol, hprotocol⟩ := byteAt_ok nlh (i := 18) (by omega)
    obtain ⟨flags, hflags⟩ := u32At_ok nlh (i := 20) (by omega)
    rw [if_neg hshort, hevent]
    dsimp only
    rw [hfamily, ok_bind, hscope, ok_bind, hprotocol, ok_bind, hflags, ok_bind]
    rw [imp_iff_right hle, bind_pure_iff]
    exact attrWalk_total (nexthopAttr_total libc) (attrlen_message hlen hle) _

/-! ### The message that the followers read -/

/-- The message at `nlh`, with the bytes behind its fixed header as its attributes. -/
def rtMessage (hdr : NlMsgHdr) (nlh : List UInt8) : Access RtMessage := do
  let rtm_family ← byteAt nlh 16
  let rtm_dst_len ← byteAt nlh 17
  let rtm_tos ← byteAt nlh 19
  let rtm_table ← byteAt nlh 20
  let rtm_protocol ← byteAt nlh 21
  let rtm_scope ← byteAt nlh 22
  let rtm_type ← byteAt nlh 23
  let rtm_flags ← u32At nlh 24
  pure {
    nlmsg_type := hdr.nlmsg_type
    nlmsg_flags := hdr.nlmsg_flags
    rtm_family := rtm_family
    rtm_dst_len := rtm_dst_len
    rtm_tos := rtm_tos
    rtm_table := rtm_table
    rtm_protocol := rtm_protocol
    rtm_scope := rtm_scope
    rtm_type := rtm_type
    rtm_flags := rtm_flags
    attrs := attrBytes hdr nlh 28 }

/-- **On the bytes of a message `nl_dispatch` does what it does on the message read from them**, where the
log can be written. -/
theorem nlDispatch_message (hlen : hdr.nlmsg_len.toNat ≤ nlh.length) (hstart : 28 ≤ hdr.nlmsg_len)
    (hlog : OspfReadable hdr nlh) {msg : RtMessage} (hmsg : rtMessage hdr nlh = .ok msg)
    (event : Option (NetlinkEvent × NetlinkRoute32)) :
    nlDispatch libc hdr nlh = .ok event ↔ msg.nlDispatch libc = .ok event := by
  have hlow : 16 ≤ hdr.nlmsg_len.toNat :=
    Nat.le_trans (by decide) (UInt32.le_iff_toNat_le.mp hstart : 28 ≤ hdr.nlmsg_len.toNat)
  have hprints : ∃ printed, nlLogOspf libc hdr nlh = .ok printed := (nlLogOspf_iff hlen hlow).mpr hlog
  obtain ⟨printed, hprinted⟩ := hprints
  simp only [rtMessage, except_bind_ok, except_pure_ok] at hmsg
  obtain ⟨family, hfamily, dst_len, hdst_len, tos, htos, table, htable, protocol, hprotocol, scope, hscope,
    type, htype, flags, hflags, rfl⟩ := hmsg
  rw [nlDispatch, hfamily, ok_bind, RtMessage.nlDispatch]
  dsimp only
  by_cases hf : family ≠ AF_INET
  · rw [if_pos hf, if_pos hf]
  rw [if_neg hf, if_neg hf, hprinted, ok_bind, hdst_len, ok_bind]
  by_cases hd : dst_len ≠ 32
  · rw [if_pos hd, if_pos hd]
  rw [if_neg hd, if_neg hd, htype, ok_bind]
  by_cases ht : type ≠ RTN_UNICAST
  · rw [if_pos ht, if_pos ht]
  rw [if_neg ht, if_neg ht]
  show _ ↔ (match hdr.event RTM_NEWROUTE RTM_DELROUTE with
    | none => _
    | some event => _) = _
  cases hdr.event RTM_NEWROUTE RTM_DELROUTE with
  | none => exact Iff.rfl
  | some ev =>
    dsimp only
    rw [htos, ok_bind, htable, ok_bind, hprotocol, ok_bind, hscope, ok_bind, hflags, ok_bind, except_bind_ok]
    have hwalk : ∀ route route' : NetlinkRoute32, attrWalk (fun route _ a => dispatchAttr libc route a)
        (attrBytes hdr nlh 28) (hdr.nlmsg_len - 28) route = .ok route' ↔
          (visits rtaNextUnsigned (attrBytes hdr nlh 28) >>= fun attrs =>
            attrs.foldlM (dispatchAttr libc) route) = .ok route' :=
      fun _ _ => attrWalk_visits (attrlen_message hlen hstart)
    constructor
    · rintro ⟨route, hroute, hpure⟩
      obtain ⟨attrs, hattrs, hfold⟩ := except_bind_ok.mp ((hwalk _ route).mp hroute)
      exact except_bind_ok.mpr ⟨attrs, hattrs, except_bind_ok.mpr ⟨route, hfold, hpure⟩⟩
    · intro hread
      obtain ⟨attrs, hattrs, hrest⟩ := except_bind_ok.mp hread
      obtain ⟨route, hfold, hpure⟩ := except_bind_ok.mp hrest
      exact ⟨route, (hwalk _ route).mpr (except_bind_ok.mpr ⟨attrs, hattrs, hfold⟩), hpure⟩

end Rtsrv.Client
