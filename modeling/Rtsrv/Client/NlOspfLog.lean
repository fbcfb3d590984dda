import Rtsrv.Client.NlAttrs

/-!
# Rtsrv.Client.NlOspfLog — what `nl_log_ospf` prints (`netlink.c`)

Every OSPF route is printed before the /32 filter, in a walk of its own.  Under `RTA_MULTIPATH` a further
loop runs over the next hops: `RTNH_OK` reads the length of a record before it looks at what is left of
the attribute, so the loop ends with a read behind the last one.
-/

namespace Rtsrv.Client

open Lib CmdProto

def RTN_BLACKHOLE : UInt8 := 6
def RTN_UNREACHABLE : UInt8 := 7
def RTN_PROHIBIT : UInt8 := 8

def RTA_NH_ID : UInt16 := 30

/-- A printed line, as the values that it is formatted from. -/
inductive OspfLine where
  | header (family dst_len src_len tos table protocol scope type : UInt8) (rtype : String) (flags : UInt32)
  | table (u32 : UInt32)
  | dst (addr : String)
  | priority (u32 : UInt32)
  | nhId (u32 : UInt32)
  | gateway (addr : String)
  | oif (ifname : String) (u32 : UInt32)
  | multipath (nhidx : ℕ) (gw dev : String)
  deriving DecidableEq, Repr

/-- The route type name. -/
def rtypeName (rtm_type : UInt8) : String :=
  if rtm_type = RTN_UNICAST then "UNICAST"
  else if rtm_type = RTN_BLACKHOLE then "BLACKHOLE"
  else if rtm_type = RTN_UNREACHABLE then "UNREACHABLE"
  else if rtm_type = RTN_PROHIBIT then "PROHIBIT"
  else "?"

/-- `RTNH_OK` on a signed length, with the length of the record it finds. -/
def rtnhOkSigned (rtnh : List UInt8) (nhrem : ℤ) : Access (Option UInt16) := do
  let rtnh_len ← u16At rtnh 0
  pure (if 8 ≤ rtnh_len.toNat ∧ (rtnh_len.toNat : ℤ) ≤ nhrem then some rtnh_len else none)

/-- The first address under `RTA_GATEWAY`. -/
def logGateway (inner : List RtAttr) : Access String :=
  match inner.find? fun a => a.rta_type = RTA_GATEWAY ∧ 4 ≤ a.data.length with
  | none => pure "(none)"
  | some a => inetNtop <$> word a.data

/-- The state of the loop over the next hops: what is left of the message, and of the attribute. -/
structure RtnhWalk where
  rtnh : List UInt8
  nhrem : ℤ
  nhidx : ℕ
  lines : List OspfLine

variable (libc : Libc)

/-- The name of an interface, as printed. -/
def devName (index : UInt32) : String :=
  match libc.if_indextoname index with
  | none => "?"
  | some ifname => if ifname = "" then "?" else ifname

/-- A round of the `while` loop over the next hops. -/
def rtnhStep (w : RtnhWalk) : Access (Round RtnhWalk (List OspfLine)) := do
  match ← rtnhOkSigned w.rtnh w.nhrem with
  | none => pure (.done w.lines)
  | some rtnh_len =>
    let rtnh_ifindex ← u32At w.rtnh 4
    let record ← Prod.fst <$> Reader.slice rtnh_len.toNat w.rtnh
    let inner ← visits rtaNext (record.drop 8)
    let gw ← logGateway inner
    pure (.again {
      rtnh := w.rtnh.drop (align4 rtnh_len.toNat)
      nhrem := w.nhrem - align4 rtnh_len.toNat
      nhidx := w.nhidx + 1
      lines := w.lines ++ [.multipath w.nhidx gw (devName libc rtnh_ifindex)] })

/-- The loop over the next hops of an attribute. -/
def rtnhWalk (rtnh : List UInt8) (nhrem : ℤ) (lines : List OspfLine) : Access (List OspfLine) :=
  (loop (rtnhStep libc) (rtnh.length + 1) ⟨rtnh, nhrem, 0, lines⟩).getD (.error .diverges)

/-- The switch of `nl_log_ospf` over one attribute. -/
def logAttr (lines : List OspfLine) (rta : List UInt8) (a : RtAttr) : Access (List OspfLine) :=
  let logWord (line : UInt32 → OspfLine) := withPayload 4 a lines fun data => do
    let u32 ← u32At data 0
    pure (lines ++ [line u32])
  let logAddr (line : String → OspfLine) := withPayload 4 a lines fun data => do
    let addr_buf ← inetNtop <$> word data
    pure (lines ++ [line addr_buf])
  if a.rta_type = RTA_TABLE then logWord .table
  else if a.rta_type = RTA_DST then logAddr .dst
  else if a.rta_type = RTA_PRIORITY then logWord .priority
  else if a.rta_type = RTA_NH_ID then logWord .nhId
  else if a.rta_type = RTA_GATEWAY then logAddr .gateway
  else if a.rta_type = RTA_OIF then logWord fun u32 => .oif (devName libc u32) u32
  else if a.rta_type = RTA_MULTIPATH then rtnhWalk libc (rta.drop 4) a.data.length lines
  else pure lines

/-- What is printed for an OSPF route: the message type name, with which each line starts, and the lines. -/
def nlLogOspf (hdr : NlMsgHdr) (nlh : List UInt8) : Access (Option (String × List OspfLine)) := do
  let rtm_protocol ← byteAt nlh 21
  if rtm_protocol ≠ RTPROT_OSPF then pure none
  else
    let tn := if hdr.nlmsg_type = RTM_NEWROUTE then "RTM_NEWROUTE" else "RTM_DELROUTE"
    let rtm_type ← byteAt nlh 23
    let rtm_family ← byteAt nlh 16
    let rtm_dst_len ← byteAt nlh 17
    let rtm_src_len ← byteAt nlh 18
    let rtm_tos ← byteAt nlh 19
    let rtm_table ← byteAt nlh 20
    let rtm_scope ← byteAt nlh 22
    let rtm_flags ← u32At nlh 24
    let lines ← attrWalk (logAttr libc) (attrBytes hdr nlh 28) (hdr.nlmsg_len - 28)
      [.header rtm_family rtm_dst_len rtm_src_len rtm_tos rtm_table rtm_protocol rtm_scope rtm_type
        (rtypeName rtm_type) rtm_flags]
    pure (some (tn, lines))

/-! ### What the log reads -/

/-- The record behind a record. -/
def nextRtnh (t : List UInt8 × ℤ) : Option (List UInt8 × ℤ) :=
  match rtnhOkSigned t.1 t.2 with
  | .ok (some rtnh_len) => some (t.1.drop (align4 rtnh_len.toNat), t.2 - align4 rtnh_len.toNat)
  | _ => none

/-- At each record that the loop comes to, and behind the last one, the message goes on for two bytes. -/
def RtnhReadable (rtnh : List UInt8) (nhrem : ℤ) : Prop :=
  ∀ t, Reaches nextRtnh (rtnh, nhrem) t → 2 ≤ t.1.length

/-- The next hops of an attribute that has them. -/
def HopsReadable (rta : List UInt8) (a : RtAttr) : Prop :=
  a.rta_type = RTA_MULTIPATH → RtnhReadable (rta.drop 4) a.data.length

/-- The protocol is received, and an OSPF route is as long as its header, has its attributes padded, and two
more bytes behind the next hops of each `RTA_MULTIPATH`. -/
def OspfReadable (hdr : NlMsgHdr) (nlh : List UInt8) : Prop :=
  ∃ rtm_protocol, nlh[21]? = some rtm_protocol ∧ (rtm_protocol = RTPROT_OSPF →
    28 ≤ hdr.nlmsg_len ∧ AttrsPadded (attrBytes hdr nlh 28) ∧ AttrsAll HopsReadable (attrBytes hdr nlh 28))

/-! ### The loop over the next hops -/

theorem rtnhOkSigned_short {rtnh : List UInt8} (h : ¬2 ≤ rtnh.length) (nhrem : ℤ) :
    rtnhOkSigned rtnh nhrem = .error .outOfRange := by
  match rtnh with
  | [] => rfl
  | [_] => rfl
  | _ :: _ :: rest => exact absurd (Nat.le_add_left 2 rest.length) h

theorem rtnhOkSigned_ok {rtnh : List UInt8} (h : 2 ≤ rtnh.length) (nhrem : ℤ) :
    ∃ o, rtnhOkSigned rtnh nhrem = .ok o ∧
      ∀ rtnh_len, o = some rtnh_len → 8 ≤ rtnh_len.toNat ∧ (rtnh_len.toNat : ℤ) ≤ nhrem := by
  obtain ⟨rtnh_len, hlen⟩ := u16At_ok rtnh (i := 0) h
  refine ⟨_, by rw [rtnhOkSigned, hlen, ok_bind]; rfl, fun rtnh_len' hsome => ?_⟩
  split_ifs at hsome with hok
  obtain rfl := Option.some.inj hsome
  exact hok

theorem visits_rtaNext_total (s : List UInt8) : ∃ as, visits rtaNext s = .ok as := by
  have hround : ∀ s : List UInt8, s ≠ [] →
      ∃ o t, rtaNext s = .ok (o, t) ∧ (o ≠ none → t.length < s.length) := by
    intro s hs
    unfold rtaNext
    cases ha : rtaOk s with
    | none => exact ⟨none, s, rfl, fun hne => absurd rfl hne⟩
    | some a =>
      refine ⟨some a, _, rfl, fun _ => ?_⟩
      have hpos := List.length_pos_iff.mpr hs
      have halign : 4 ≤ align4 a.rta_len := Nat.le_trans (Nat.le_add_left 4 _) (length_le_align4 a.rta_len)
      rw [List.length_drop]
      omega
  obtain ⟨as, t, h⟩ := Reader.untilBreak_total hround s
  exact ⟨as, by rw [visits, h]; rfl⟩

theorem logGateway_total (inner : List RtAttr) : ∃ gw, logGateway inner = .ok gw := by
  unfold logGateway
  cases ha : inner.find? fun a => decide (a.rta_type = RTA_GATEWAY ∧ 4 ≤ a.data.length) with
  | none => exact ⟨_, rfl⟩
  | some a =>
    have hfound := List.find?_some ha
    obtain ⟨b, hb⟩ := word_ok (of_decide_eq_true hfound).2
    exact ⟨_, by dsimp only; rw [hb]; rfl⟩

variable {libc}

theorem rtnhStep_error {w : RtnhWalk} (h : ¬2 ≤ w.rtnh.length) : rtnhStep libc w = .error .outOfRange := by
  rw [rtnhStep, rtnhOkSigned_short h]
  rfl

theorem rtnhStep_none {w : RtnhWalk} (h : rtnhOkSigned w.rtnh w.nhrem = .ok none) :
    rtnhStep libc w = .ok (.done w.lines) := by
  rw [rtnhStep, h]
  rfl

/-- A record that is inside the message is printed, and the loop goes on behind it. -/
theorem rtnhStep_some (libc : Libc) {w : RtnhWalk} {rtnh_len : UInt16}
    (h : rtnhOkSigned w.rtnh w.nhrem = .ok (some rtnh_len)) (hlow : 8 ≤ rtnh_len.toNat)
    (hle : rtnh_len.toNat ≤ w.rtnh.length) :
    ∃ lines, rtnhStep libc w = .ok (.again ⟨w.rtnh.drop (align4 rtnh_len.toNat),
      w.nhrem - align4 rtnh_len.toNat, w.nhidx + 1, lines⟩) := by
  obtain ⟨ifindex, hifindex⟩ := u32At_ok w.rtnh (i := 4) (by omega)
  have hrecord : Prod.fst <$> (Reader.slice rtnh_len.toNat : Reader UInt8 Empty _) w.rtnh =
      .ok (w.rtnh.take rtnh_len.toNat) := by
    rw [Reader.slice, if_pos hle]
    rfl
  obtain ⟨inner, hinner⟩ := visits_rtaNext_total ((w.rtnh.take rtnh_len.toNat).drop 8)
  obtain ⟨gw, hgw⟩ := logGateway_total inner
  refine ⟨w.lines ++ [.multipath w.nhidx gw (devName libc ifindex)], ?_⟩
  rw [rtnhStep, h, ok_bind]
  dsimp only
  rw [hifindex, ok_bind, hrecord, ok_bind, hinner, ok_bind, hgw, ok_bind]
  rfl

theorem rtnhStep_shorter {w w' : RtnhWalk} (h : rtnhStep libc w = .ok (.again w')) :
    w'.rtnh.length < w.rtnh.length := by
  have hlen : 2 ≤ w.rtnh.length := by
    by_contra hshort
    rw [rtnhStep_error hshort] at h
    cases h
  obtain ⟨o, ho, hok⟩ := rtnhOkSigned_ok hlen w.nhrem
  cases o with
  | none =>
    rw [rtnhStep_none ho] at h
    cases h
  | some rtnh_len =>
    rw [rtnhStep, ho, ok_bind] at h
    obtain ⟨ifindex, -, h⟩ := except_bind_ok.mp h
    obtain ⟨record, -, h⟩ := except_bind_ok.mp h
    obtain ⟨inner, -, h⟩ := except_bind_ok.mp h
    obtain ⟨gw, -, h⟩ := except_bind_ok.mp h
    obtain rfl := Round.again.inj (Except.ok.inj h)
    have hlow := (hok rtnh_len rfl).1
    have halign := length_le_align4 rtnh_len.toNat
    show (w.rtnh.drop (align4 rtnh_len.toNat)).length < _
    rw [List.length_drop]
    omega

/-- **The loop over the next hops ends inside the message exactly when two bytes follow each record.** -/
theorem rtnhWalk_iff {rtnh : List UInt8} {nhrem : ℤ} (h : nhrem ≤ rtnh.length) (lines : List OspfLine) :
    (∃ lines', rtnhWalk libc rtnh nhrem lines = .ok lines') ↔ RtnhReadable rtnh nhrem := by
  have hreturns : ∀ lines', rtnhWalk libc rtnh nhrem lines = .ok lines' ↔
      Returns (rtnhStep libc) ⟨rtnh, nhrem, 0, lines⟩ lines' :=
    fun _ => loop_getD_iff (fun _ _ => rtnhStep_shorter)
  simp only [hreturns]
  refine returns_walk_iff nextRtnh (fun t => 2 ≤ t.1.length)
    (fun w t => w.rtnh = t.1 ∧ w.nhrem = t.2 ∧ t.2 ≤ t.1.length) (fun t => t.1.length) ?_ ?_ ?_ ⟨rfl, rfl, h⟩
  · rintro w ⟨_, _⟩ ⟨rfl, rfl, -⟩ hnext hlen
    obtain ⟨o, ho, -⟩ := rtnhOkSigned_ok hlen w.nhrem
    unfold nextRtnh at hnext
    rw [ho] at hnext
    cases o with
    | none => exact ⟨w.lines, rtnhStep_none ho⟩
    | some rtnh_len => cases hnext
  · rintro w ⟨_, _⟩ u ⟨rfl, rfl, hle⟩ hnext hlen
    obtain ⟨o, ho, hok⟩ := rtnhOkSigned_ok hlen w.nhrem
    unfold nextRtnh at hnext
    rw [ho] at hnext
    cases o with
    | none => cases hnext
    | some rtnh_len =>
      obtain rfl := Option.some.inj hnext
      obtain ⟨hlow, hrem⟩ := hok rtnh_len rfl
      dsimp only at hle ⊢
      obtain ⟨lines', hstep⟩ := rtnhStep_some libc ho hlow (by omega)
      have halign := length_le_align4 rtnh_len.toNat
      rw [List.length_drop]
      exact ⟨by omega, _, hstep, rfl, rfl, by omega⟩
  · rintro w ⟨_, _⟩ ⟨rfl, rfl, -⟩ hlost
    exact not_returns_of_error (rtnhStep_error hlost)

/-! ### The whole log -/

theorem logAttr_iff (lines : List OspfLine) {rta : List UInt8} {a : RtAttr} (h : rtaOk rta = some a) :
    (∃ lines', logAttr libc lines rta a = .ok lines') ↔ HopsReadable rta a := by
  have hword : ∀ line : UInt32 → OspfLine, ∃ lines', withPayload 4 a lines (fun data => do
      let u32 ← u32At data 0
      pure (lines ++ [line u32])) = .ok lines' :=
    fun line => withPayload_ok fun hlen => bind_total (u32At_ok _ hlen) fun u32 => ⟨_, rfl⟩
  have haddr : ∀ line : String → OspfLine, ∃ lines', withPayload 4 a lines (fun data => do
      let addr_buf ← inetNtop <$> word data
      pure (lines ++ [line addr_buf])) = .ok lines' := by
    refine fun line => withPayload_ok fun hlen => ?_
    obtain ⟨b, hb⟩ := word_ok hlen
    exact ⟨_, by rw [hb]; rfl⟩
  have hother : ∀ {t : UInt16}, a.rta_type = t → t ≠ RTA_MULTIPATH → HopsReadable rta a :=
    fun ht hne hm => absurd (ht.symm.trans hm) hne
  unfold logAttr
  dsimp only
  split_ifs with htable hdst hpriority hnh hgateway hoif hmultipath
  · exact iff_of_true (hword _) (hother htable (by decide))
  · exact iff_of_true (haddr _) (hother hdst (by decide))
  · exact iff_of_true (hword _) (hother hpriority (by decide))
  · exact iff_of_true (hword _) (hother hnh (by decide))
  · exact iff_of_true (haddr _) (hother hgateway (by decide))
  · exact iff_of_true (hword _) (hother hoif (by decide))
  · have hrem : (a.data.length : ℤ) ≤ (rta.drop 4).length := by
      have hle : a.data.length + 4 ≤ rta.length := (rtaOk_length h).2
      rw [List.length_drop]
      omega
    rw [HopsReadable, imp_iff_right hmultipath]
    exact rtnhWalk_iff hrem lines
  · exact iff_of_true ⟨lines, rfl⟩ fun hm => absurd hm hmultipath

/-- **The log stays inside an OSPF message exactly when it is readable.** -/
theorem nlLogOspf_iff {hdr : NlMsgHdr} {nlh : List UInt8} (hlen : hdr.nlmsg_len.toNat ≤ nlh.length)
    (hlow : 16 ≤ hdr.nlmsg_len.toNat) :
    (∃ printed, nlLogOspf libc hdr nlh = .ok printed) ↔ OspfReadable hdr nlh := by
  unfold nlLogOspf OspfReadable
  rw [byteAt_filter]
  refine exists_congr fun protocol => and_congr_right fun _ => imp_congr_right fun _ => ?_
  by_cases hstart : 28 ≤ hdr.nlmsg_len
  · have hreceived : 28 ≤ nlh.length := (UInt32.le_iff_toNat_le.mp hstart).trans hlen
    obtain ⟨type, htype⟩ := byteAt_ok nlh (i := 23) (by omega)
    obtain ⟨family, hfamily⟩ := byteAt_ok nlh (i := 16) (by omega)
    obtain ⟨dst_len, hdst_len⟩ := byteAt_ok nlh (i := 17) (by omega)
    obtain ⟨src_len, hsrc_len⟩ := byteAt_ok nlh (i := 18) (by omega)
    obtain ⟨tos, htos⟩ := byteAt_ok nlh (i := 19) (by omega)
    obtain ⟨table, htable⟩ := byteAt_ok nlh (i := 20) (by omega)
    obtain ⟨scope, hscope⟩ := byteAt_ok nlh (i := 22) (by omega)
    obtain ⟨flags, hflags⟩ := u32At_ok nlh (i := 24) (by omega)
    dsimp only
    rw [htype, ok_bind, hfamily, ok_bind, hdst_len, ok_bind, hsrc_len, ok_bind, htos, ok_bind, htable,
      ok_bind, hscope, ok_bind, hflags, ok_bind, bind_pure_iff, and_iff_right hstart]
    exact attrWalk_iff HopsReadable (fun lines _ _ ha => logAttr_iff lines ha) (attrlen_message hlen hstart) _
  · refine iff_of_false ?_ fun hread => hstart hread.1
    have hshort : hdr.nlmsg_len.toNat < 28 := UInt32.lt_iff_toNat_lt.mp (UInt32.not_le.mp hstart)
    refine bind_fails fun type => bind_fails fun family => bind_fails fun dst_len => bind_fails fun src_len =>
      bind_fails fun tos => bind_fails fun table => bind_fails fun scope => bind_fails fun flags => ?_
    rw [bind_pure_iff]
    exact attrWalk_short hlen hlow hshort _

end Rtsrv.Client
