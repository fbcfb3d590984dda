import Rtsrv.Lib.Keyed
import Rtsrv.Server.RouteManager
import Rtsrv.Wire.RoutePayload

/-!
# Rtsrv.Client.RouteTable — the client's route rows (`client/src/main.cpp`)

The descriptor that a netlink message is parsed into, the row that is kept for it, and the key
`dest|gateway|iface` under which the row is stored.  A row carries its key, so the tables are `Keyed`.
-/

namespace Rtsrv.Client

open Lib CmdProto Server

/-- `netlink_event_t`. -/
inductive NetlinkEvent where
  | ADDED
  | REMOVED
  | CHANGED
  deriving DecidableEq, Repr

/-- `netlink_route32_t`. -/
structure NetlinkRoute32 where
  family : UInt8
  dst_len : UInt8
  tos : UInt8
  scope : UInt8
  type : UInt8
  flags : UInt32
  protocol : UInt8
  table : UInt32
  dst : Ipv4Addr
  gateway : Ipv4Addr
  ifindex : UInt32
  ifname : String
  metric : UInt32
  deriving DecidableEq, Repr

/-- A row of the client's table; `srmdId` is empty where the server has given no id. -/
structure WatchRoute where
  dest : String
  gateway : String
  iface : String
  ifindex : UInt32
  metric : UInt32
  table : UInt32
  protocol : UInt8
  srmdId : String
  family : UInt8
  dst_len : UInt8
  tos : UInt8
  scope : UInt8
  type : UInt8
  flags : UInt32
  deriving DecidableEq, Repr

def RTPROT_KERNEL : UInt8 := 2
def RTPROT_BOOT : UInt8 := 3
def RTPROT_BGP : UInt8 := 186
def RTPROT_OSPF : UInt8 := 188
def RTPROT_RIP : UInt8 := 189

def mapRtProtocol (rtProto : UInt8) : RouteProtocol :=
  if rtProto = RTPROT_OSPF then .OSPF
  else if rtProto = RTPROT_BGP then .BGP
  else if rtProto = RTPROT_RIP then .RIP
  else if rtProto = RTPROT_KERNEL then .CONNECTED
  else if rtProto = RTPROT_BOOT then .CONNECTED
  else .STATIC

/-- `inet_ntop(AF_INET, …)`. -/
def inetNtop (addr : Ipv4Addr) : String :=
  ".".intercalate (addr.items.map fun b => toString b.toNat)

/-- `0.0.0.0`. -/
def anyAddr : Ipv4Addr := ipv4 0 0 0 0

def prefixText (dst : Ipv4Addr) (dst_len : UInt8) : String :=
  inetNtop dst ++ "/" ++ toString dst_len.toNat

def NetlinkRoute32.destText (route : NetlinkRoute32) : String := prefixText route.dst route.dst_len

/-- Empty for no gateway. -/
def NetlinkRoute32.gatewayText (route : NetlinkRoute32) : String :=
  if route.gateway = anyAddr then "" else inetNtop route.gateway

def routeKey (dest gateway iface : String) : String := dest ++ "|" ++ gateway ++ "|" ++ iface

def WatchRoute.key (row : WatchRoute) : String := routeKey row.dest row.gateway row.iface

/-- The row that the callbacks store. -/
def NetlinkRoute32.row (route : NetlinkRoute32) (srmdId : String) : WatchRoute where
  dest := route.destText
  gateway := route.gatewayText
  iface := route.ifname
  ifindex := route.ifindex
  metric := route.metric
  table := route.table
  protocol := route.protocol
  srmdId := srmdId
  family := route.family
  dst_len := route.dst_len
  tos := route.tos
  scope := route.scope
  type := route.type
  flags := route.flags

abbrev WatchRoutes := Keyed WatchRoute.key

/-! ### Texts of addresses -/

/-- A text that the separator of the keys does not occur in. -/
def Unbarred (s : String) : Prop := '|' ∉ s.toList

instance (s : String) : Decidable (Unbarred s) := inferInstanceAs (Decidable (¬ _))

theorem unbarred_nat (n : ℕ) : Unbarred (toString n) := by
  intro h
  have hdigit := Nat.isDigit_of_mem_toDigits (b := 10) (by decide) (by decide)
    (show '|' ∈ Nat.toDigits 10 n by simpa using h)
  exact absurd hdigit (by decide)

theorem Unbarred.append {s t : String} (hs : Unbarred s) (ht : Unbarred t) : Unbarred (s ++ t) := by
  rw [Unbarred, String.toList_append, List.mem_append]
  rintro (h | h)
  · exact hs h
  · exact ht h

theorem unbarred_intercalate {sep : String} (hsep : Unbarred sep) :
    ∀ {l : List String}, (∀ s ∈ l, Unbarred s) → Unbarred (sep.intercalate l)
  | [], _ => by
    rw [Unbarred, String.toList_intercalate]
    exact List.not_mem_nil
  | [s], h => by
    rw [Unbarred, String.toList_intercalate]
    have hs := h s (List.mem_singleton_self s)
    simpa [List.intercalate, Unbarred] using hs
  | s :: t :: l, h => by
    have ih : Unbarred (sep.intercalate (t :: l)) :=
      unbarred_intercalate hsep fun u hu => h u (List.mem_cons_of_mem _ hu)
    have hs := h s List.mem_cons_self
    rw [Unbarred, String.toList_intercalate] at ih ⊢
    rw [List.map_cons, List.map_cons, List.intercalate_cons_cons, List.mem_append, List.mem_append]
    rintro ((hmem | hmem) | hmem)
    · exact hs hmem
    · exact hsep hmem
    · exact ih hmem

theorem unbarred_inetNtop (addr : Ipv4Addr) : Unbarred (inetNtop addr) := by
  refine unbarred_intercalate (by decide) fun s hs => ?_
  obtain ⟨b, -, rfl⟩ := List.mem_map.mp hs
  exact unbarred_nat b.toNat

theorem unbarred_prefixText (dst : Ipv4Addr) (dst_len : UInt8) : Unbarred (prefixText dst dst_len) :=
  ((unbarred_inetNtop dst).append (by decide)).append (unbarred_nat dst_len.toNat)

theorem splitOn_inetNtop (addr : Ipv4Addr) :
    (inetNtop addr).toList.splitOn '.' = addr.items.map fun byte => Nat.toDigits 10 byte.toNat := by
  have hlist : (inetNtop addr).toList =
      ['.'].intercalate (addr.items.map fun byte => Nat.toDigits 10 byte.toNat) := by
    simp [inetNtop, String.toList_intercalate, Function.comp_def]
  rw [hlist]
  refine List.splitOn_intercalate '.' (fun digits hmem hdot => ?_) fun hnil => ?_
  · obtain ⟨byte, -, rfl⟩ := List.mem_map.mp hmem
    exact absurd (Nat.isDigit_of_mem_toDigits (by decide) (by decide) hdot) (by decide)
  · have hlen := addr.length_eq
    rw [List.map_eq_nil_iff.mp hnil] at hlen
    cases hlen

/-- Addresses with the same text are the same. -/
theorem inetNtop_injective : Function.Injective inetNtop := by
  intro a b h
  have hbytes : a.items.map (fun byte => Nat.toDigits 10 byte.toNat) =
      b.items.map fun byte => Nat.toDigits 10 byte.toNat := by
    rw [← splitOn_inetNtop, ← splitOn_inetNtop, h]
  refine Block.ext_items (List.map_injective_iff.mpr (fun x y hxy => ?_) hbytes)
  have hdigits : Nat.toDigits 10 x.toNat = Nat.toDigits 10 y.toNat := hxy
  rw [← UInt8.toNat_inj, ← Nat.ofDigitChars_ten_toDigits (n := x.toNat), hdigits,
    Nat.ofDigitChars_ten_toDigits]

theorem inetNtop_ne_empty (addr : Ipv4Addr) : inetNtop addr ≠ "" := by
  intro h
  have hparts := congrArg List.length (splitOn_inetNtop addr)
  rw [h, List.length_map, addr.length_eq] at hparts
  exact absurd hparts (by decide)

/-! ### The parts of a key -/

/-- What stands before a separator and what stands behind it. -/
theorem append_bar_inj {s t s' t' : String} (hs : Unbarred s) (hs' : Unbarred s') :
    s ++ "|" ++ t = s' ++ "|" ++ t' ↔ s = s' ∧ t = t' := by
  refine ⟨fun h => ?_, fun ⟨hst, ht⟩ => by rw [hst, ht]⟩
  have hlist : s.toList ++ '|' :: t.toList = s'.toList ++ '|' :: t'.toList := by
    simpa using congrArg String.toList h
  have hbefore : ∀ {u v : String}, Unbarred u →
      (u.toList ++ '|' :: v.toList).takeWhile (· ≠ '|') = u.toList := by
    intro u v hu
    have hpos : ∀ c ∈ u.toList, decide (c ≠ '|') = true := fun c hc =>
      decide_eq_true fun heq => hu (heq ▸ hc)
    rw [List.takeWhile_append_of_pos hpos, List.takeWhile_cons_of_neg (by decide), List.append_nil]
  have hst : s.toList = s'.toList := by
    rw [← hbefore (v := t) hs, hlist, hbefore hs']
  rw [hst] at hlist
  have htail := (List.cons.inj (List.append_cancel_left hlist)).2
  exact ⟨String.toList_inj.mp hst, String.toList_inj.mp htail⟩

theorem routeKey_eq (dest gw iface : String) :
    routeKey dest gw iface = dest ++ "|" ++ (gw ++ "|" ++ iface) := by
  simp only [routeKey, String.append_assoc]

/-- The destination is what stands before the first separator of the key. -/
theorem dest_eq_of_key_eq {dest gw iface dest' gw' iface' : String} (hd : Unbarred dest)
    (hd' : Unbarred dest') (h : routeKey dest gw iface = routeKey dest' gw' iface') : dest = dest' := by
  rw [routeKey_eq, routeKey_eq, append_bar_inj hd hd'] at h
  exact h.1

/-- A key has its parts, when the separator is not in the first two. -/
theorem routeKey_inj {dest gw iface dest' gw' iface' : String} (hd : Unbarred dest)
    (hg : Unbarred gw) (hd' : Unbarred dest') (hg' : Unbarred gw') :
    routeKey dest gw iface = routeKey dest' gw' iface' ↔ dest = dest' ∧ gw = gw' ∧ iface = iface' := by
  rw [routeKey_eq, routeKey_eq, append_bar_inj hd hd', append_bar_inj hg hg']

end Rtsrv.Client
