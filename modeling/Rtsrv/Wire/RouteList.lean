import Mathlib.Data.List.Forall2
import Rtsrv.Wire.RoutePayload

/-!
# Rtsrv.Wire.RouteList — the ROUTE_LIST reply (`unix_domain/lib/cmd_proto.cpp`)

`handle_route_list` turns the routes of the kernel into entries, which are written one after the other
without a count and read back to the end of the payload.  Two casts lose data: the metric becomes 16 bits,
the length of the interface name 8 bits while the name is written whole.
-/

namespace Rtsrv.Netlink

open Lib CmdProto

/-- `netlink::RouteEntry`, what the reply takes of it. -/
structure RouteEntry where
  dst : Ipv4Addr
  prefix_len : UInt8
  gateway : Ipv4Addr
  has_gateway : Bool
  if_name : Bytes
  metric : UInt32
  deriving DecidableEq, Repr

/-- The gateway that a listing shows, zero when there is none. -/
def RouteEntry.shownGateway (r : RouteEntry) : Ipv4Addr :=
  if r.has_gateway then r.gateway else ipv4 0 0 0 0

end Rtsrv.Netlink

namespace Rtsrv.CmdProto

open Lib

def ROUTE_ENTRY_MIN_SIZE : ℕ := 12

structure RouteEntry where
  dst_addr : Ipv4Addr
  prefix_len : UInt8
  gateway : Ipv4Addr
  metric : UInt16
  if_name : Bytes
  deriving DecidableEq, Repr

def listEntry (r : Netlink.RouteEntry) : RouteEntry where
  dst_addr := r.dst
  prefix_len := r.prefix_len
  gateway := r.shownGateway
  metric := r.metric.toUInt16
  if_name := r.if_name

/-- The entries for the routes that `netlink::list_routes` returns. -/
def handleRouteList (nl_routes : List Netlink.RouteEntry) : List RouteEntry := nl_routes.map listEntry

def encodeRouteEntry (r : RouteEntry) : Bytes :=
  r.dst_addr.items ++ (r.prefix_len :: (r.gateway.items ++ (writeBe16 r.metric ++
    (UInt8.ofNat r.if_name.length :: r.if_name))))

def encodeRouteListResponse (routes : List RouteEntry) : Bytes := routes.flatMap encodeRouteEntry

def decodeRouteEntry : Reader UInt8 CmdError RouteEntry := do
  Reader.need ROUTE_ENTRY_MIN_SIZE .InvalidCommand
  let dst_addr ← Reader.block 4
  let prefix_len ← Reader.item
  let gateway ← Reader.block 4
  let metric ← be16
  let if_name_len ← Reader.item
  Reader.need if_name_len.toNat .InvalidCommand
  let if_name ← Reader.slice if_name_len.toNat
  pure ⟨dst_addr, prefix_len, gateway, metric, if_name⟩

def decodeRouteListResponse (raw : Bytes) : Except (Fault CmdError) (List RouteEntry) :=
  Prod.fst <$> Reader.untilEnd decodeRouteEntry raw

/-! ### The decoder reads what fits -/

/-- The length of the name fits its byte. -/
def RouteEntry.Fits (r : RouteEntry) : Prop := r.if_name.length < 2 ^ 8

theorem decodeRouteEntry_parses : Parses decodeRouteEntry encodeRouteEntry RouteEntry.Fits := by
  intro s r t
  simp only [decodeRouteEntry, Reader.bind_ok, Reader.need_ok, Reader.block_ok, Reader.item_ok, be16_ok,
    Reader.slice_ok, Reader.pure_ok]
  refine ⟨?_, ?_⟩
  · rintro ⟨_, _, ⟨-, rfl⟩, dst_addr, _, rfl, prefix_len, _, rfl, gateway, _, rfl, metric, _, rfl, len, _,
      rfl, _, _, ⟨-, rfl⟩, if_name, _, ⟨hlen, rfl⟩, rfl, rfl⟩
    have hlt := len.toNat_lt
    refine ⟨by rw [RouteEntry.Fits, hlen]; exact hlt, ?_⟩
    simp [encodeRouteEntry, hlen]
  · rintro ⟨hfits, rfl⟩
    have hlen : (UInt8.ofNat r.if_name.length).toNat = r.if_name.length := by
      rw [UInt8.toNat_ofNat', Nat.mod_eq_of_lt hfits]
    have hdst := r.dst_addr.length_eq
    have hgw := r.gateway.length_eq
    refine ⟨(), _, ⟨?_, rfl⟩, r.dst_addr, r.prefix_len :: (r.gateway.items ++ (writeBe16 r.metric ++
      (UInt8.ofNat r.if_name.length :: (r.if_name ++ t)))), ?_, r.prefix_len, _, rfl, r.gateway, _, rfl,
      r.metric, _, rfl, _, _, rfl, (), _, ⟨?_, rfl⟩, r.if_name, t, ⟨hlen.symm, rfl⟩, rfl, rfl⟩
    · simp only [encodeRouteEntry, List.length_append, List.length_cons, hdst, hgw, writeBe16_length,
        ROUTE_ENTRY_MIN_SIZE]
      omega
    · simp [encodeRouteEntry]
    · rw [hlen, List.length_append]
      omega

theorem decodeRouteEntry_safe : Reader.Safe decodeRouteEntry := by
  refine Reader.SafeFrom.need (n := 4 + (1 + (4 + (2 + (1 + 0))))) ?_ CmdError.InvalidCommand
  refine .read (.block 4) fun _ => .read .item fun _ => .read (.block 4) fun _ => .read be16_reads fun _ => ?_
  refine .read .item fun len => ?_
  refine ((Reader.SafeFrom.bind ?_ fun _ => .pure _).need CmdError.InvalidCommand).safeFrom
  exact (Reader.Reads.slice len.toNat).safeFrom

theorem encodeRouteEntry_ne_nil (r : RouteEntry) : encodeRouteEntry r ≠ [] := by
  simp [encodeRouteEntry]

theorem decodeRouteEntry_consumes : Reader.Consumes decodeRouteEntry := by
  intro s r t h
  obtain ⟨-, rfl⟩ := (decodeRouteEntry_parses s r t).mp h
  have hpos := List.length_pos_iff.mpr (encodeRouteEntry_ne_nil r)
  rw [List.length_append]
  omega

/-- The decoder accepts the encodings of entries whose names fit, and nothing else. -/
theorem decodeRouteListResponse_ok {raw : Bytes} {routes : List RouteEntry} :
    decodeRouteListResponse raw = .ok routes ↔
      (∀ r ∈ routes, r.Fits) ∧ raw = encodeRouteListResponse routes := by
  have hparse := decodeRouteEntry_parses.untilEnd (fun r _ => encodeRouteEntry_ne_nil r) raw routes
  unfold decodeRouteListResponse
  constructor
  · intro h
    cases hread : Reader.untilEnd decodeRouteEntry raw with
    | error f => rw [hread] at h; cases h
    | ok p =>
      obtain ⟨as, t⟩ := p
      rw [hread] at h
      obtain rfl := Except.ok.inj h
      obtain ⟨-, hfits, hraw⟩ := (decodeRouteEntry_parses.untilEnd
        (fun r _ => encodeRouteEntry_ne_nil r) raw as t).mp hread
      exact ⟨hfits, hraw⟩
  · rintro ⟨hfits, hraw⟩
    rw [(hparse []).mpr ⟨rfl, hfits, hraw⟩]
    rfl

/-! ### The chain from the kernel to the client -/

/-- The client sees the route as the kernel has it. -/
structure Shows (r : Netlink.RouteEntry) (e : RouteEntry) : Prop where
  dst_addr : e.dst_addr = r.dst
  prefix_len : e.prefix_len = r.prefix_len
  gateway : e.gateway = r.shownGateway
  metric : e.metric.toNat = r.metric.toNat
  if_name : e.if_name = r.if_name

/-- The metric and the length of the name fit the fields of an entry. -/
def Listable (r : Netlink.RouteEntry) : Prop :=
  r.metric.toNat < 2 ^ 16 ∧ r.if_name.length < 2 ^ 8

theorem shows_listEntry {r : Netlink.RouteEntry} (h : Listable r) : Shows r (listEntry r) where
  dst_addr := rfl
  prefix_len := rfl
  gateway := rfl
  metric := by
    show r.metric.toUInt16.toNat = _
    rw [UInt32.toNat_toUInt16, Nat.mod_eq_of_lt h.1]
  if_name := rfl

theorem listable_of_shows {r : Netlink.RouteEntry} {e : RouteEntry} (hfits : e.Fits) (h : Shows r e) :
    Listable r := by
  refine ⟨?_, ?_⟩
  · rw [← h.metric]
    exact e.metric.toNat_lt
  · rw [← h.if_name]
    exact hfits

/-- **A ROUTE_LIST reply is faithful exactly when every metric fits 16 bits and every interface name is
shorter than 256 bytes.** -/
theorem routeListReply_iff (nl_routes : List Netlink.RouteEntry) :
    (∃ routes, decodeRouteListResponse (encodeRouteListResponse (handleRouteList nl_routes)) = .ok routes ∧
      List.Forall₂ Shows nl_routes routes) ↔
    ∀ r ∈ nl_routes, Listable r := by
  constructor
  · rintro ⟨routes, hdec, hshows⟩
    obtain ⟨hfits, -⟩ := decodeRouteListResponse_ok.mp hdec
    have hboth : List.Forall₂ (fun e r => e.Fits ∧ Shows r e) routes nl_routes :=
      (List.forall₂_and_left _ _).mpr ⟨hfits, hshows.flip⟩
    have hlistable : List.Forall₂ (fun r e => Listable r ∧ Shows r e) nl_routes routes :=
      hboth.flip.imp fun r e ⟨hfit, hshow⟩ => ⟨listable_of_shows hfit hshow, hshow⟩
    exact ((List.forall₂_and_left _ _).mp hlistable).1
  · intro h
    refine ⟨handleRouteList nl_routes, decodeRouteListResponse_ok.mpr ⟨?_, rfl⟩, ?_⟩
    · intro e he
      obtain ⟨r, hr, rfl⟩ := List.mem_map.mp he
      exact (h r hr).2
    · rw [handleRouteList, List.forall₂_map_right_iff, List.forall₂_same]
      exact fun r hr => shows_listEntry (h r hr)

/-- A default route with the metric 65536. -/
def wideMetric : Netlink.RouteEntry := ⟨ipv4 0 0 0 0, 0, ipv4 10 0 0 1, true, [], 65536⟩

/-- It is listed with the metric 0. -/
theorem routeListReply_wideMetric :
    decodeRouteListResponse (encodeRouteListResponse (handleRouteList [wideMetric])) =
        .ok [⟨ipv4 0 0 0 0, 0, ipv4 10 0 0 1, 0, []⟩] ∧
      ¬ ∃ routes, decodeRouteListResponse (encodeRouteListResponse (handleRouteList [wideMetric])) =
          .ok routes ∧ List.Forall₂ Shows [wideMetric] routes := by
  have hread : decodeRouteListResponse (encodeRouteListResponse (handleRouteList [wideMetric])) =
      .ok [⟨ipv4 0 0 0 0, 0, ipv4 10 0 0 1, 0, []⟩] := by decide
  refine ⟨hread, ?_⟩
  rintro ⟨routes, hdec, hshows⟩
  obtain rfl := Except.ok.inj (hread.symm.trans hdec)
  have hshow : Shows wideMetric ⟨ipv4 0 0 0 0, 0, ipv4 10 0 0 1, 0, []⟩ :=
    (List.forall₂_cons.mp hshows).1
  exact absurd hshow.metric (by decide)

end Rtsrv.CmdProto
