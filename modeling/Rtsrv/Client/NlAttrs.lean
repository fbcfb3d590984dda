import Rtsrv.Client.RouteAttrs
import Rtsrv.Lib.Loop

/-!
# Rtsrv.Client.NlAttrs — the attribute walks of the three dispatchers

`nl_dispatch` (`netlink.c`), `nl_neigh_dispatch` (`netlink_neigh.c`) and `nl_nexthop_dispatch`
(`netlink_nexthop.c`) take a message apart whose bytes come from the socket.  The length that is left is
unsigned: it wraps in a message shorter than its header and behind an attribute without its padding, and
the next header is then read outside the message.
-/

namespace Rtsrv.Client

open Lib CmdProto

/-! ### Reading bytes -/

def byteAt (bytes : List UInt8) (i : ℕ) : Access UInt8 :=
  match bytes[i]? with
  | some b => .ok b
  | none => .error .outOfRange

def u16At (bytes : List UInt8) (i : ℕ) : Access UInt16 := do
  let b0 ← byteAt bytes i
  let b1 ← byteAt bytes (i + 1)
  pure (joinBe16 b1 b0)

def u32At (bytes : List UInt8) (i : ℕ) : Access UInt32 := do
  let b0 ← byteAt bytes i
  let b1 ← byteAt bytes (i + 1)
  let b2 ← byteAt bytes (i + 2)
  let b3 ← byteAt bytes (i + 3)
  pure (joinBe32 b3 b2 b1 b0)

/-- What is read of `nlmsghdr`. -/
structure NlMsgHdr where
  nlmsg_len : UInt32
  nlmsg_type : UInt16
  nlmsg_flags : UInt16
  deriving DecidableEq, Repr

/-- What stands in the message behind the fixed header that ends at `start`. -/
def attrBytes (hdr : NlMsgHdr) (nlh : List UInt8) (start : ℕ) : List UInt8 :=
  (nlh.take hdr.nlmsg_len.toNat).drop start

/-! ### The walk -/

/-- `RTA_OK` on an unsigned length, with the attribute it finds.  `rta` holds what is left of the message:
a header, or an accepted attribute, that is not in there is read outside. -/
def rtaOkUnsigned (rta : List UInt8) (attrlen : UInt32) : Access (Option RtAttr) :=
  if attrlen.toNat < 4 then .ok none
  else do
    let rta_len ← u16At rta 0
    if 4 ≤ rta_len.toNat ∧ rta_len.toNat ≤ attrlen.toNat then
      let rta_type ← u16At rta 2
      if rta_len.toNat ≤ rta.length then
        pure (some {
          rta_type := rta_type
          data := (rta.take rta_len.toNat).drop 4
          fits := by
            have hlt := rta_len.toNat_lt
            rw [List.length_drop, List.length_take]
            omega })
      else .error .outOfRange
    else pure none

structure AttrWalk (α : Type) where
  rta : List UInt8
  attrlen : UInt32
  desc : α

/-- A round of the `for` loop, with `RTA_NEXT` at its end.  The switch is given what is left of the message
along with the attribute. -/
def attrStep {α : Type} (switch : α → List UInt8 → RtAttr → Access α) (w : AttrWalk α) :
    Access (Round (AttrWalk α) α) := do
  match ← rtaOkUnsigned w.rta w.attrlen with
  | none => pure (.done w.desc)
  | some a => do
    let desc ← switch w.desc w.rta a
    pure (.again {
      rta := w.rta.drop (align4 a.rta_len)
      attrlen := w.attrlen - (align4 a.rta_len).toUInt32
      desc := desc })

/-- The loop over the attributes of a message. -/
def attrWalk {α : Type} (switch : α → List UInt8 → RtAttr → Access α) (rta : List UInt8) (attrlen : UInt32)
    (desc : α) : Access α :=
  (loop (attrStep switch) (rta.length + 1) ⟨rta, attrlen, desc⟩).getD (.error .diverges)

/-! ### The switches -/

variable (libc : Libc)

/-- What a payload of at least `n` bytes makes of the descriptor. -/
def withPayload {ρ : Type} (n : ℕ) (a : RtAttr) (desc : ρ) (copy : List UInt8 → Access ρ) : Access ρ :=
  if n ≤ a.data.length then copy a.data else pure desc

/-- The text of an address of the family, where the payload holds one. -/
def dispatchAddr (family : UInt8) (a : RtAttr) (text : String) : Access String :=
  if family = AF_INET ∧ 4 ≤ a.data.length then inetNtop <$> word a.data
  else if family = AF_INET6 ∧ 16 ≤ a.data.length then
    (fun r => libc.inet_ntop6 r.1) <$> Reader.block 16 a.data
  else pure text

/-- The name of an interface index other than zero; without one, the name stays. -/
def nameOf (index : UInt32) (name : String) : String :=
  if 0 < index then (libc.if_indextoname index).getD name else name

def NDA_DST : UInt16 := 1
def NDA_LLADDR : UInt16 := 2
def NDA_CACHEINFO : UInt16 := 3
def NDA_PROBES : UInt16 := 4
def NDA_VLAN : UInt16 := 5
def NDA_IFINDEX : UInt16 := 8
def NDA_MASTER : UInt16 := 9
def NDA_PROTOCOL : UInt16 := 12

def NETLINK_NEIGH_LLADDR_MAX : ℕ := 20

/-- The switch of `nl_neigh_dispatch` over one attribute. -/
def neighAttr (n : NetlinkNeigh) (a : RtAttr) : Access NetlinkNeigh :=
  let rtype := a.rta_type &&& 0x00ff
  if rtype = NDA_DST then do
    let dst ← dispatchAddr libc n.family a n.dst
    pure { n with dst := dst }
  else if rtype = NDA_LLADDR then pure { n with lladdr := a.data.take NETLINK_NEIGH_LLADDR_MAX }
  else if rtype = NDA_CACHEINFO then
    withPayload 16 a n fun ci => do
      let confirmed ← u32At ci 0
      let used ← u32At ci 4
      let updated ← u32At ci 8
      let refcnt ← u32At ci 12
      pure { n with confirmed_ms := confirmed, used_ms := used, updated_ms := updated, refcnt := refcnt }
  else if rtype = NDA_PROBES then
    withPayload 4 a n fun data => do
      let probes ← u32At data 0
      pure { n with probes := probes }
  else if rtype = NDA_VLAN then
    withPayload 2 a n fun data => do
      let vlan ← u16At data 0
      pure { n with vlan := vlan }
  else if rtype = NDA_MASTER then
    withPayload 4 a n fun data => do
      let master ← u32At data 0
      pure { n with master := master, master_name := nameOf libc master n.master_name }
  else if rtype = NDA_IFINDEX then
    withPayload 4 a n fun data => do
      let nh_ifindex ← u32At data 0
      pure { n with nh_ifindex := nh_ifindex }
  else if rtype = NDA_PROTOCOL then
    withPayload 1 a n fun data => do
      let protocol ← byteAt data 0
      pure { n with protocol := protocol }
  else pure n

def NHA_ID : UInt16 := 1
def NHA_GROUP : UInt16 := 2
def NHA_GROUP_TYPE : UInt16 := 3
def NHA_BLACKHOLE : UInt16 := 4
def NHA_OIF : UInt16 := 5
def NHA_GATEWAY : UInt16 := 6
def NHA_ENCAP_TYPE : UInt16 := 7
def NHA_MASTER : UInt16 := 10
def NHA_FDB : UInt16 := 11

def NETLINK_NEXTHOP_MAX_GROUP : ℕ := 64

/-- Entry `i` of an array of `nl_nexthop_grp`. -/
def groupEntry (grp : List UInt8) (i : ℕ) : Access NexthopGrp := do
  let id ← u32At grp (8 * i)
  let weight ← byteAt grp (8 * i + 4)
  let weight_high ← byteAt grp (8 * i + 5)
  pure ⟨id, weight, weight_high⟩

/-- The switch of `nl_nexthop_dispatch` over one attribute. -/
def nexthopAttr (nh : NetlinkNexthop) (a : RtAttr) : Access NetlinkNexthop :=
  let rtype := a.rta_type &&& 0x00ff
  if rtype = NHA_ID then
    withPayload 4 a nh fun data => do
      let id ← u32At data 0
      pure { nh with id := id }
  else if rtype = NHA_OIF then
    withPayload 4 a nh fun data => do
      let oif ← u32At data 0
      pure { nh with oif := oif, oif_name := nameOf libc oif nh.oif_name }
  else if rtype = NHA_GATEWAY then do
    let gateway ← dispatchAddr libc nh.family a nh.gateway
    pure { nh with gateway := gateway }
  else if rtype = NHA_BLACKHOLE then pure { nh with blackhole := 1 }
  else if rtype = NHA_FDB then pure { nh with fdb := 1 }
  else if rtype = NHA_MASTER then
    withPayload 4 a nh fun data => do
      let master ← u32At data 0
      pure { nh with master := master, master_name := nameOf libc master nh.master_name }
  else if rtype = NHA_GROUP then do
    let group ← (List.range (min (a.data.length / 8) NETLINK_NEXTHOP_MAX_GROUP)).mapM (groupEntry a.data)
    pure { nh with group := group }
  else if rtype = NHA_GROUP_TYPE then
    withPayload 2 a nh fun data => do
      let group_type ← u16At data 0
      pure { nh with group_type := group_type }
  else if rtype = NHA_ENCAP_TYPE then
    withPayload 2 a nh fun data => do
      let encap_type ← u16At data 0
      pure { nh with encap_type := encap_type }
  else pure nh

/-! ### The switches stay inside the payload -/

/-- The switch never reads outside an attribute. -/
def Total {α : Type} (switch : α → RtAttr → Access α) : Prop := ∀ desc a, ∃ desc', switch desc a = .ok desc'

/-- A filter by a byte: it has to be received, and where it passes the rest has to succeed. -/
theorem byteAt_filter {β : Type} {bytes : List UInt8} {i : ℕ} {b : UInt8} {f : UInt8 → Access (Option β)} :
    (∃ o, (byteAt bytes i >>= fun c => if c ≠ b then pure none else f c) = .ok o) ↔
      ∃ c, bytes[i]? = some c ∧ (c = b → ∃ o, f c = .ok o) := by
  unfold byteAt
  cases bytes[i]? with
  | none => simp [bind, Except.bind]
  | some c =>
    simp only [ok_bind, Option.some.injEq, exists_eq_left']
    by_cases h : c = b
    · rw [if_neg (not_not.mpr h), imp_iff_right h]
    · rw [if_pos h]
      exact iff_of_true ⟨none, rfl⟩ fun h' => absurd h' h

theorem byteAt_ok (bytes : List UInt8) {i : ℕ} (h : i < bytes.length) : ∃ b, byteAt bytes i = .ok b := by
  rw [byteAt, List.getElem?_eq_getElem h]
  exact ⟨_, rfl⟩

theorem u16At_ok (bytes : List UInt8) {i : ℕ} (h : i + 2 ≤ bytes.length) : ∃ v, u16At bytes i = .ok v := by
  obtain ⟨b0, h0⟩ := byteAt_ok bytes (i := i) (by omega)
  obtain ⟨b1, h1⟩ := byteAt_ok bytes (i := i + 1) (by omega)
  exact ⟨_, by rw [u16At, h0, ok_bind, h1, ok_bind]; rfl⟩

theorem u32At_ok (bytes : List UInt8) {i : ℕ} (h : i + 4 ≤ bytes.length) : ∃ v, u32At bytes i = .ok v := by
  obtain ⟨b0, h0⟩ := byteAt_ok bytes (i := i) (by omega)
  obtain ⟨b1, h1⟩ := byteAt_ok bytes (i := i + 1) (by omega)
  obtain ⟨b2, h2⟩ := byteAt_ok bytes (i := i + 2) (by omega)
  obtain ⟨b3, h3⟩ := byteAt_ok bytes (i := i + 3) (by omega)
  exact ⟨_, by rw [u32At, h0, ok_bind, h1, ok_bind, h2, ok_bind, h3, ok_bind]; rfl⟩

theorem withPayload_ok {ρ : Type} {n : ℕ} {a : RtAttr} {desc : ρ} {copy : List UInt8 → Access ρ}
    (h : n ≤ a.data.length → ∃ desc', copy a.data = .ok desc') :
    ∃ desc', withPayload n a desc copy = .ok desc' := by
  unfold withPayload
  split_ifs with hlen
  · exact h hlen
  · exact ⟨desc, rfl⟩

theorem dispatchAddr_ok (family : UInt8) (a : RtAttr) (text : String) :
    ∃ text', dispatchAddr libc family a text = .ok text' := by
  unfold dispatchAddr
  split_ifs with h4 h6
  · obtain ⟨b, hb⟩ := word_ok h4.2
    exact ⟨_, by rw [hb]; rfl⟩
  · rw [Reader.block, dif_pos h6.2]
    exact ⟨_, rfl⟩
  · exact ⟨text, rfl⟩

theorem dispatchAttr_total : Total (dispatchAttr libc) := by
  intro route a
  have hword : ∀ copy : Block UInt8 4 → NetlinkRoute32, ∃ route', dispatchWord a route copy = .ok route' :=
    fun copy => ⟨_, dispatchWord_value a route copy⟩
  unfold dispatchAttr
  split_ifs
  all_goals first
    | exact hword _
    | exact ⟨route, rfl⟩

theorem groupEntry_ok {grp : List UInt8} {i : ℕ} (h : i < grp.length / 8) :
    ∃ entry, groupEntry grp i = .ok entry := by
  have hend : 8 * i + 8 ≤ grp.length := by omega
  obtain ⟨id, hid⟩ := u32At_ok grp (i := 8 * i) (by omega)
  obtain ⟨weight, hweight⟩ := byteAt_ok grp (i := 8 * i + 4) (by omega)
  obtain ⟨high, hhigh⟩ := byteAt_ok grp (i := 8 * i + 5) (by omega)
  exact ⟨_, by rw [groupEntry, hid, ok_bind, hweight, ok_bind, hhigh, ok_bind]; rfl⟩

theorem neighAttr_total : Total (neighAttr libc) := by
  intro n a
  unfold neighAttr
  dsimp only
  refine ite_total ?_ <| ite_total ?_ <| ite_total ?_ <| ite_total ?_ <| ite_total ?_ <| ite_total ?_ <|
    ite_total ?_ <| ite_total ?_ ?_
  · obtain ⟨dst, hdst⟩ := dispatchAddr_ok libc n.family a n.dst
    exact ⟨_, by rw [hdst, ok_bind]; rfl⟩
  · exact ⟨_, rfl⟩
  · refine withPayload_ok fun hlen => ?_
    obtain ⟨confirmed, h0⟩ := u32At_ok a.data (i := 0) (by omega)
    obtain ⟨used, h4⟩ := u32At_ok a.data (i := 4) (by omega)
    obtain ⟨updated, h8⟩ := u32At_ok a.data (i := 8) (by omega)
    obtain ⟨refcnt, h12⟩ := u32At_ok a.data (i := 12) (by omega)
    exact ⟨_, by rw [h0, ok_bind, h4, ok_bind, h8, ok_bind, h12, ok_bind]; rfl⟩
  · exact withPayload_ok fun hlen => bind_total (u32At_ok _ hlen) fun probes => ⟨_, rfl⟩
  · exact withPayload_ok fun hlen => bind_total (u16At_ok _ hlen) fun vlan => ⟨_, rfl⟩
  · exact withPayload_ok fun hlen => bind_total (u32At_ok _ hlen) fun master => ⟨_, rfl⟩
  · exact withPayload_ok fun hlen => bind_total (u32At_ok _ hlen) fun index => ⟨_, rfl⟩
  · exact withPayload_ok fun hlen => bind_total (byteAt_ok _ hlen) fun protocol => ⟨_, rfl⟩
  · exact ⟨n, rfl⟩

theorem nexthopAttr_total : Total (nexthopAttr libc) := by
  intro nh a
  unfold nexthopAttr
  dsimp only
  refine ite_total ?_ <| ite_total ?_ <| ite_total ?_ <| ite_total ?_ <| ite_total ?_ <| ite_total ?_ <|
    ite_total ?_ <| ite_total ?_ <| ite_total ?_ ?_
  · exact withPayload_ok fun hlen => bind_total (u32At_ok _ hlen) fun id => ⟨_, rfl⟩
  · exact withPayload_ok fun hlen => bind_total (u32At_ok _ hlen) fun oif => ⟨_, rfl⟩
  · exact bind_total (dispatchAddr_ok libc nh.family a nh.gateway) fun gateway => ⟨_, rfl⟩
  · exact ⟨_, rfl⟩
  · exact ⟨_, rfl⟩
  · exact withPayload_ok fun hlen => bind_total (u32At_ok _ hlen) fun master => ⟨_, rfl⟩
  · have hgroup : ∃ group, (List.range (min (a.data.length / 8) NETLINK_NEXTHOP_MAX_GROUP)).mapM
        (groupEntry a.data) = .ok group := by
      refine mapM_total fun i hi => groupEntry_ok ?_
      have hlt := List.mem_range.mp hi
      omega
    exact bind_total hgroup fun group => ⟨_, rfl⟩
  · exact withPayload_ok fun hlen => bind_total (u16At_ok _ hlen) fun group_type => ⟨_, rfl⟩
  · exact withPayload_ok fun hlen => bind_total (u16At_ok _ hlen) fun encap_type => ⟨_, rfl⟩
  · exact ⟨nh, rfl⟩

/-! ### The walk stays inside the message exactly when each attribute has its padding -/

/-- The position behind an attribute. -/
def nextAttr (rta : List UInt8) : Option (List UInt8) := (rtaOk rta).map fun a => rta.drop (align4 a.rta_len)

/-- Each attribute that the walk accepts is such, with what is left of the message from it on. -/
def AttrsAll (fine : List UInt8 → RtAttr → Prop) (attrs : List UInt8) : Prop :=
  ∀ rta, Reaches nextAttr attrs rta → ∀ a, rtaOk rta = some a → fine rta a

/-- Each attribute that the walk accepts has its padding. -/
def AttrsPadded : List UInt8 → Prop := AttrsAll fun rta a => align4 a.rta_len ≤ rta.length

section Walk

variable {α : Type} {switch : α → List UInt8 → RtAttr → Access α}

/-- While the length is what is left of the message, `RTA_OK` reads inside it. -/
theorem rtaOkUnsigned_eq {rta : List UInt8} {attrlen : UInt32} (h : attrlen.toNat = rta.length) :
    rtaOkUnsigned rta attrlen = .ok (rtaOk rta) := by
  unfold rtaOkUnsigned
  rcases rta with _ | ⟨l0, _ | ⟨l1, _ | ⟨t0, _ | ⟨t1, rest⟩⟩⟩⟩
  · rw [if_pos (by simp [h])]
    rfl
  · rw [if_pos (by simp [h])]
    rfl
  · rw [if_pos (by simp [h])]
    rfl
  · rw [if_pos (by simp [h])]
    rfl
  · have hlen : attrlen.toNat = rest.length + 4 := h
    have hrta_len : u16At (l0 :: l1 :: t0 :: t1 :: rest) 0 = .ok (joinBe16 l1 l0) := rfl
    have hrta_type : u16At (l0 :: l1 :: t0 :: t1 :: rest) 2 = .ok (joinBe16 t1 t0) := rfl
    rw [if_neg (by omega), hrta_len, ok_bind, rtaOk]
    by_cases hok : 4 ≤ (joinBe16 l1 l0).toNat ∧ (joinBe16 l1 l0).toNat - 4 ≤ rest.length
    · have hreceived : (joinBe16 l1 l0).toNat ≤ (l0 :: l1 :: t0 :: t1 :: rest).length := by
        show _ ≤ rest.length + 4
        omega
      have hdata : ((l0 :: l1 :: t0 :: t1 :: rest).take (joinBe16 l1 l0).toNat).drop 4 =
          rest.take ((joinBe16 l1 l0).toNat - 4) := List.drop_take
      rw [if_pos ⟨hok.1, by omega⟩, hrta_type, ok_bind, if_pos hreceived, if_pos hok]
      simp only [hdata]
      rfl
    · rw [if_neg (fun hboth => hok ⟨hboth.1, by omega⟩), if_neg hok]
      rfl

/-- Past the end of the message, `RTA_OK` on a length that is left reads outside. -/
theorem rtaOkUnsigned_outside {attrlen : UInt32} (h : 4 ≤ attrlen.toNat) :
    rtaOkUnsigned [] attrlen = .error .outOfRange := by
  rw [rtaOkUnsigned, if_neg (Nat.not_lt.mpr h)]
  rfl

theorem rtaOk_length {rta : List UInt8} {a : RtAttr} (h : rtaOk rta = some a) :
    4 ≤ a.rta_len ∧ a.rta_len ≤ rta.length := by
  rcases rta with _ | ⟨l0, _ | ⟨l1, _ | ⟨t0, _ | ⟨t1, rest⟩⟩⟩⟩
  · cases h
  · cases h
  · cases h
  · cases h
  · rw [rtaOk] at h
    split_ifs at h with hok
    obtain rfl := Option.some.inj h
    have hdata : (rest.take ((joinBe16 l1 l0).toNat - 4)).length = (joinBe16 l1 l0).toNat - 4 := by
      rw [List.length_take, Nat.min_eq_left hok.2]
    show 4 ≤ (rest.take _).length + 4 ∧ (rest.take _).length + 4 ≤ rest.length + 4
    omega

/-- What is left behind an attribute that has its padding. -/
theorem attrlen_next {rta : List UInt8} {attrlen : UInt32} (h : attrlen.toNat = rta.length) {len : ℕ}
    (hle : align4 len ≤ rta.length) :
    (attrlen - (align4 len).toUInt32).toNat = (rta.drop (align4 len)).length := by
  have hlt := attrlen.toNat_lt
  have hcast : (align4 len).toUInt32.toNat = align4 len := UInt32.toNat_ofNat_of_lt' (by
    show align4 len < 2 ^ 32
    omega)
  rw [UInt32.toNat_sub_of_le _ _ (UInt32.le_iff_toNat_le.mpr (by omega)), hcast, h, List.length_drop]

/-- Behind an attribute without its padding the length wraps. -/
theorem attrlen_wraps {rta : List UInt8} {attrlen : UInt32} (h : attrlen.toNat = rta.length) {len : ℕ}
    (hlen : len ≤ rta.length) (hgt : rta.length < align4 len) (hshort : align4 len < 2 ^ 32) :
    4 ≤ (attrlen - (align4 len).toUInt32).toNat := by
  have hpad : align4 len ≤ len + 3 := by unfold align4; omega
  have hcast : (align4 len).toUInt32.toNat = align4 len := UInt32.toNat_ofNat_of_lt' hshort
  rw [UInt32.toNat_sub, hcast, h]
  omega

theorem align4_rta_lt (a : RtAttr) : align4 a.rta_len < 2 ^ 32 := by
  have hfits : a.rta_len < 2 ^ 16 := a.fits
  unfold align4
  omega

theorem attrStep_none {w : AttrWalk α} (h : rtaOkUnsigned w.rta w.attrlen = .ok none) :
    attrStep switch w = .ok (.done w.desc) := by
  rw [attrStep, h]
  rfl

theorem attrStep_some {w : AttrWalk α} {a : RtAttr} (h : rtaOkUnsigned w.rta w.attrlen = .ok (some a)) :
    attrStep switch w = switch w.desc w.rta a >>= fun desc =>
      .ok (.again ⟨w.rta.drop (align4 a.rta_len), w.attrlen - (align4 a.rta_len).toUInt32, desc⟩) := by
  rw [attrStep, h]
  rfl

theorem attrStep_error {w : AttrWalk α} {e : Fault Empty} (h : rtaOkUnsigned w.rta w.attrlen = .error e) :
    attrStep switch w = .error e := by
  rw [attrStep, h]
  rfl

theorem attrStep_shorter {w w' : AttrWalk α} (h : attrStep switch w = .ok (.again w')) :
    w'.rta.length < w.rta.length := by
  cases hok : rtaOkUnsigned w.rta w.attrlen with
  | error e =>
    rw [attrStep_error hok] at h
    cases h
  | ok o =>
    cases o with
    | none =>
      rw [attrStep_none hok] at h
      cases h
    | some a =>
      rw [attrStep_some hok, except_bind_ok] at h
      obtain ⟨desc, -, hnext⟩ := h
      obtain rfl := Round.again.inj (Except.ok.inj hnext)
      have hrta : w.rta ≠ [] := by
        intro hnil
        rw [hnil] at hok
        by_cases hleft : 4 ≤ w.attrlen.toNat
        · rw [rtaOkUnsigned_outside hleft] at hok
          cases hok
        · rw [rtaOkUnsigned, if_pos (Nat.not_le.mp hleft)] at hok
          cases hok
      have hpos : 0 < w.rta.length := List.length_pos_iff.mpr hrta
      have halign : 0 < align4 a.rta_len := Nat.lt_of_lt_of_le (Nat.succ_pos _) (length_le_align4 a.rta_len)
      show (w.rta.drop (align4 a.rta_len)).length < _
      rw [List.length_drop]
      omega

/-- The walk of a dispatcher is the loop, run to its end. -/
theorem attrWalk_returns {rta : List UInt8} {attrlen : UInt32} {desc desc' : α} :
    attrWalk switch rta attrlen desc = .ok desc' ↔ Returns (attrStep switch) ⟨rta, attrlen, desc⟩ desc' :=
  loop_getD_iff (fun _ _ => attrStep_shorter)

theorem returns_end {w : AttrWalk α} {desc' : α} (hlen : w.attrlen.toNat = w.rta.length)
    (h : rtaOk w.rta = none) : Returns (attrStep switch) w desc' ↔ w.desc = desc' :=
  returns_done (attrStep_none ((rtaOkUnsigned_eq hlen).trans (congrArg _ h)))

/-- A round at an attribute, while the length is what is left of the message. -/
theorem attrStep_message {w : AttrWalk α} {a : RtAttr} (hlen : w.attrlen.toNat = w.rta.length)
    (ha : rtaOk w.rta = some a) :
    attrStep switch w = switch w.desc w.rta a >>= fun desc =>
      .ok (.again ⟨w.rta.drop (align4 a.rta_len), w.attrlen - (align4 a.rta_len).toUInt32, desc⟩) :=
  attrStep_some ((rtaOkUnsigned_eq hlen).trans (congrArg _ ha))

/-- From an attribute without its padding the walk never returns: it reads outside. -/
theorem not_returns_unpadded {w : AttrWalk α} {a : RtAttr} (hlen : w.attrlen.toNat = w.rta.length)
    (ha : rtaOk w.rta = some a) (hgt : w.rta.length < align4 a.rta_len) (desc' : α) :
    ¬Returns (attrStep switch) w desc' := by
  rw [returns_bind (attrStep_message hlen ha), List.drop_eq_nil_of_le (Nat.le_of_lt hgt)]
  rintro ⟨desc, -, hr⟩
  have hwraps := attrlen_wraps hlen (rtaOk_length ha).2 hgt (align4_rta_lt a)
  exact not_returns_of_error (attrStep_error (rtaOkUnsigned_outside hwraps)) desc' hr

/-- **The attribute walk ends inside the message exactly when each attribute has its padding**, and is one
that the switch can read. -/
theorem attrWalk_iff (fine : List UInt8 → RtAttr → Prop)
    (hswitch : ∀ desc rta a, rtaOk rta = some a → ((∃ desc', switch desc rta a = .ok desc') ↔ fine rta a))
    {rta : List UInt8} {attrlen : UInt32} (h : attrlen.toNat = rta.length) (desc : α) :
    (∃ desc', attrWalk switch rta attrlen desc = .ok desc') ↔ AttrsPadded rta ∧ AttrsAll fine rta := by
  have hiff : (∃ desc', Returns (attrStep switch) ⟨rta, attrlen, desc⟩ desc') ↔ _ :=
    returns_walk_iff nextAttr (fun t => ∀ a, rtaOk t = some a → align4 a.rta_len ≤ t.length ∧ fine t a)
      (fun w t => w.rta = t ∧ w.attrlen.toNat = t.length) List.length ?_ ?_ ?_ ⟨rfl, h⟩
  · simp only [attrWalk_returns]
    rw [hiff]
    constructor
    · exact fun hall => ⟨fun t ht a ha => (hall t ht a ha).1, fun t ht a ha => (hall t ht a ha).2⟩
    · exact fun ⟨hpadded, hfine⟩ t ht a ha => ⟨hpadded t ht a ha, hfine t ht a ha⟩
  · rintro w t ⟨rfl, hlen⟩ hnext -
    have hnone : rtaOk w.rta = none := Option.map_eq_none_iff.mp hnext
    exact ⟨w.desc, attrStep_none ((rtaOkUnsigned_eq hlen).trans (congrArg _ hnone))⟩
  · rintro w t u ⟨rfl, hlen⟩ hnext hfine
    obtain ⟨a, ha, rfl⟩ := Option.map_eq_some_iff.mp hnext
    obtain ⟨hpad, hread⟩ := hfine a ha
    obtain ⟨desc', hdesc⟩ := (hswitch w.desc w.rta a ha).mpr hread
    have hpos := (rtaOk_length ha).1
    have halign := length_le_align4 a.rta_len
    refine ⟨?_, _, (attrStep_message hlen ha).trans (by rw [hdesc, ok_bind]), rfl, attrlen_next hlen hpad⟩
    rw [List.length_drop]
    omega
  · rintro w t ⟨rfl, hlen⟩ hlost r
    obtain ⟨a, hbad⟩ := not_forall.mp hlost
    obtain ⟨ha, hbad⟩ := Classical.not_imp.mp hbad
    by_cases hgt : w.rta.length < align4 a.rta_len
    · exact not_returns_unpadded hlen ha hgt r
    · rw [returns_bind (attrStep_message hlen ha)]
      rintro ⟨desc', hdesc, -⟩
      exact hbad ⟨Nat.not_lt.mp hgt, (hswitch w.desc w.rta a ha).mp ⟨desc', hdesc⟩⟩

/-- For a switch that stays inside each payload, the padding alone decides. -/
theorem attrWalk_total {switch : α → RtAttr → Access α} (hswitch : Total switch) {rta : List UInt8}
    {attrlen : UInt32} (h : attrlen.toNat = rta.length) (desc : α) :
    (∃ desc', attrWalk (fun desc _ a => switch desc a) rta attrlen desc = .ok desc') ↔ AttrsPadded rta := by
  rw [attrWalk_iff (fun _ _ => True) (fun desc _ a _ => iff_true_intro (hswitch desc a)) h desc]
  exact and_iff_left fun _ _ _ _ => trivial

/-- The switch folded over the attributes that `n` rounds of the reading collect. -/
def Folded (switch : α → RtAttr → Access α) (n : ℕ) (rta : List UInt8) (desc desc' : α) : Prop :=
  ∃ as t, Reader.roundsBreak rtaNextUnsigned n rta = .ok (as, t) ∧ as.foldlM switch desc = .ok desc'

section Folded

variable {switch : α → RtAttr → Access α} {n : ℕ} {rta : List UInt8} {desc desc' : α}

theorem folded_nil : Folded switch n [] desc desc' ↔ desc = desc' := by
  unfold Folded
  rw [Reader.roundsBreak_nil]
  constructor
  · rintro ⟨as, t, hrounds, hfold⟩
    obtain ⟨rfl, -⟩ := Prod.mk.inj (Except.ok.inj hrounds)
    exact Except.ok.inj hfold
  · rintro rfl
    exact ⟨[], [], rfl, rfl⟩

theorem folded_end (hnil : rta ≠ []) (ha : rtaOk rta = none) :
    Folded switch (n + 1) rta desc desc' ↔ desc = desc' := by
  have hnext : rtaNextUnsigned rta = .ok (none, rta) := by rw [rtaNextUnsigned, ha]
  simp only [Folded, Reader.roundsBreak_ok hnil, hnext]
  constructor
  · rintro ⟨as, t, ⟨-, rfl⟩ | ⟨a, as', s', hsome, -⟩, hfold⟩
    · exact Except.ok.inj hfold
    · cases hsome
  · rintro rfl
    exact ⟨[], rta, .inl ⟨rfl, rfl⟩, rfl⟩

theorem folded_attr (hnil : rta ≠ []) {a : RtAttr} (ha : rtaOk rta = some a)
    (hpad : align4 a.rta_len ≤ rta.length) :
    Folded switch (n + 1) rta desc desc' ↔
      ∃ desc₁, switch desc a = .ok desc₁ ∧ Folded switch n (rta.drop (align4 a.rta_len)) desc₁ desc' := by
  have hnext : rtaNextUnsigned rta = .ok (some a, rta.drop (align4 a.rta_len)) := by
    rw [rtaNextUnsigned, ha]
    exact if_pos hpad
  simp only [Folded, Reader.roundsBreak_ok hnil, hnext]
  constructor
  · rintro ⟨as, t, ⟨hnone, -⟩ | ⟨a', as', s', hsome, hrounds, rfl⟩, hfold⟩
    · cases hnone
    · obtain ⟨ha', rfl⟩ := Prod.mk.inj (Except.ok.inj hsome)
      obtain rfl := Option.some.inj ha'
      rw [List.foldlM_cons, except_bind_ok] at hfold
      obtain ⟨desc₁, hdesc, hfold⟩ := hfold
      exact ⟨desc₁, hdesc, as', t, hrounds, hfold⟩
  · rintro ⟨desc₁, hdesc, as, t, hrounds, hfold⟩
    refine ⟨a :: as, t, .inr ⟨a, as, _, rfl, hrounds, rfl⟩, ?_⟩
    rw [List.foldlM_cons, hdesc]
    exact hfold

theorem not_folded_unpadded (hnil : rta ≠ []) {a : RtAttr} (ha : rtaOk rta = some a)
    (hgt : rta.length < align4 a.rta_len) : ¬Folded switch (n + 1) rta desc desc' := by
  have hnext : rtaNextUnsigned rta = .error .outOfRange := by
    rw [rtaNextUnsigned, ha]
    exact if_neg (Nat.not_le.mpr hgt)
  simp only [Folded, Reader.roundsBreak_ok hnil, hnext]
  rintro ⟨as, t, ⟨hnone, -⟩ | ⟨a', as', s', hsome, -⟩, -⟩
  · cases hnone
  · cases hsome

end Folded

/-- The walk folds its switch over what the reading collects, round by round. -/
theorem returns_folded {switch : α → RtAttr → Access α} {desc' : α} :
    ∀ (n : ℕ) {w : AttrWalk α}, w.rta.length ≤ n → w.attrlen.toNat = w.rta.length →
      (Returns (attrStep fun desc _ a => switch desc a) w desc' ↔ Folded switch n w.rta w.desc desc') := by
  have hend : ∀ (n : ℕ) {w : AttrWalk α}, w.rta = [] → w.attrlen.toNat = w.rta.length →
      (Returns (attrStep fun desc _ a => switch desc a) w desc' ↔ Folded switch n w.rta w.desc desc') := by
    intro n w hnil hlen
    rw [returns_end hlen (hnil ▸ rfl), hnil, folded_nil]
  intro n
  induction n with
  | zero => exact fun hn hlen => hend 0 (List.length_eq_zero_iff.mp (Nat.le_zero.mp hn)) hlen
  | succ n ih =>
    intro w hn hlen
    by_cases hnil : w.rta = []
    · exact hend (n + 1) hnil hlen
    cases ha : rtaOk w.rta with
    | none => rw [returns_end hlen ha, folded_end hnil ha]
    | some a =>
      by_cases hpad : align4 a.rta_len ≤ w.rta.length
      · have hshorter : (w.rta.drop (align4 a.rta_len)).length ≤ n := by
          have hpos := (rtaOk_length ha).1
          have halign := length_le_align4 a.rta_len
          rw [List.length_drop]
          omega
        rw [returns_bind (attrStep_message hlen ha), folded_attr hnil ha hpad]
        exact exists_congr fun desc => and_congr_right fun _ => ih hshorter (attrlen_next hlen hpad)
      · exact iff_of_false (not_returns_unpadded hlen ha (Nat.not_le.mp hpad) desc')
          (not_folded_unpadded hnil ha (Nat.not_le.mp hpad))

/-- **The walk is the reading of the attributes of a message, with the switch folded over them.** -/
theorem attrWalk_visits {switch : α → RtAttr → Access α} {rta : List UInt8} {attrlen : UInt32}
    (h : attrlen.toNat = rta.length) {desc desc' : α} :
    attrWalk (fun desc _ a => switch desc a) rta attrlen desc = .ok desc' ↔
      (visits rtaNextUnsigned rta >>= fun as => as.foldlM switch desc) = .ok desc' := by
  rw [attrWalk_returns, returns_folded rta.length (Nat.le_refl _) h, except_bind_ok]
  simp only [Folded, visits, Reader.untilBreak, except_map_ok]
  constructor
  · rintro ⟨as, t, hrounds, hfold⟩
    exact ⟨as, ⟨(as, t), hrounds, rfl⟩, hfold⟩
  · rintro ⟨as, ⟨⟨as', t⟩, hrounds, rfl⟩, hfold⟩
    exact ⟨as', t, hrounds, hfold⟩

variable {hdr : NlMsgHdr} {nlh : List UInt8}

theorem attrBytes_length (hlen : hdr.nlmsg_len.toNat ≤ nlh.length) (start : ℕ) :
    (attrBytes hdr nlh start).length = hdr.nlmsg_len.toNat - start := by
  rw [attrBytes, List.length_drop, List.length_take, Nat.min_eq_left hlen]

theorem attrlen_message (hlen : hdr.nlmsg_len.toNat ≤ nlh.length) {start : UInt32}
    (hstart : start ≤ hdr.nlmsg_len) :
    (hdr.nlmsg_len - start).toNat = (attrBytes hdr nlh start.toNat).length := by
  rw [attrBytes_length hlen, UInt32.toNat_sub_of_le _ _ hstart]

/-- In a message shorter than its fixed header the length wraps and the walk reads outside. -/
theorem attrWalk_short (hlen : hdr.nlmsg_len.toNat ≤ nlh.length) (hlow : 16 ≤ hdr.nlmsg_len.toNat)
    (hshort : hdr.nlmsg_len.toNat < 28) (desc : α) :
    ¬∃ desc', attrWalk switch (attrBytes hdr nlh 28) (hdr.nlmsg_len - 28) desc = .ok desc' := by
  have hnil : attrBytes hdr nlh 28 = [] := by
    rw [← List.length_eq_zero_iff, attrBytes_length hlen]
    omega
  have hwraps : 4 ≤ (hdr.nlmsg_len - 28).toNat := by
    rw [UInt32.toNat_sub]
    show 4 ≤ (2 ^ 32 - 28 + hdr.nlmsg_len.toNat) % 2 ^ 32
    omega
  rintro ⟨desc', h⟩
  rw [attrWalk_returns, hnil] at h
  exact not_returns_of_error (attrStep_error (rtaOkUnsigned_outside hwraps)) desc' h

end Walk

end Rtsrv.Client
