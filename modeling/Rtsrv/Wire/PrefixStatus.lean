import Rtsrv.Lib.BitPack
import Rtsrv.Wire.VrfAnswers

/-!
# Rtsrv.Wire.PrefixStatus — one bit for each prefix of an interface request (`cmd_proto.cpp`)

`handle_route_add_payload` calls `netlink::add_route` for the prefixes of all interfaces and notes what
became of each.  The reply packs the notes eight to a byte; the client gets them back in the order of the
calls, filled up to a whole byte.
-/

namespace Rtsrv.CmdProto

open Lib

/-! ### The reply -/

/-- Whether the flag is set that `idx` stands for; there are none behind the last one. -/
def prefixFlag (prefix_status : List Bool) (idx : ℕ) : Bool :=
  if h : idx < prefix_status.length then prefix_status.get ⟨idx, h⟩ else false

def encodeRouteAddBinaryResponse (resp : RouteAddBinaryResponse) : Except (Fault CmdError) Bytes :=
  let n := resp.prefix_status.length
  let status_bytes := (n + 7) / 8
  .ok (resp.status_code :: (List.range status_bytes).map fun byte_idx =>
    packByte fun bit => prefixFlag resp.prefix_status (byte_idx * 8 + bit))

theorem prefixFlag_eq (prefix_status : List Bool) (idx : ℕ) :
    prefixFlag prefix_status idx = prefix_status.getD idx false := by
  unfold prefixFlag
  split_ifs with h
  · exact (List.getD_eq_getElem _ _ h).symm
  · exact (List.getD_eq_default _ _ (Nat.not_lt.mp h)).symm

/-- Behind the status stand the packed flags. -/
theorem encodeRouteAddBinaryResponse_eq (resp : RouteAddBinaryResponse) :
    encodeRouteAddBinaryResponse resp = .ok (resp.status_code :: packBits resp.prefix_status) := by
  simp only [encodeRouteAddBinaryResponse, prefixFlag_eq]
  rfl

theorem decodeStatusByte_views : Views decodeStatusByte (fun b : UInt8 => [b]) statusBits := by
  intro s flags t
  rw [decodeStatusByte_ok]
  rfl

/-- Whatever stands behind the status is taken for packed flags. -/
theorem decodeRouteAddBinaryResponse_cons (status_code : UInt8) (bytes : Bytes) :
    decodeRouteAddBinaryResponse (status_code :: bytes) = .ok ⟨status_code, unpackBits bytes⟩ := by
  have hloop : Reader.untilEnd decodeStatusByte bytes = .ok (bytes.map statusBits, []) := by
    refine (decodeStatusByte_views.untilEnd (fun b => List.cons_ne_nil b []) bytes _ []).mpr
      ⟨rfl, bytes, ?_, rfl⟩
    exact (List.flatMap_singleton' bytes).symm
  have hread : decodeRouteAddBinaryResponse (status_code :: bytes) =
      (Reader.untilEnd decodeStatusByte bytes).map fun r => ⟨status_code, r.1.flatten⟩ := rfl
  rw [hread, hloop]
  exact congrArg (fun flags => Except.ok (RouteAddBinaryResponse.mk status_code flags)) List.flatMap_def.symm

/-- A reply that is decoded is encoded as it was. -/
theorem encode_decode_routeAddBinaryResponse {raw : Bytes} (hraw : raw ≠ []) :
    ∃ resp, decodeRouteAddBinaryResponse raw = .ok resp ∧ encodeRouteAddBinaryResponse resp = .ok raw := by
  obtain ⟨status_code, bytes, rfl⟩ := List.exists_cons_of_ne_nil hraw
  refine ⟨_, decodeRouteAddBinaryResponse_cons status_code bytes, ?_⟩
  rw [encodeRouteAddBinaryResponse_eq, packBits_unpackBits]

end Rtsrv.CmdProto

namespace Rtsrv.Netlink

open Lib CmdProto

/-! ### The handler over any `add_route` -/

/-- The parameters for one prefix of an interface. -/
def interfaceParams (iface : Interface) (pfx : PrefixIpv4) : RouteAddParams where
  dst := pfx.addr
  prefix_len := pfx.mask_len
  gateway := iface.nexthop_addr_ipv4
  has_gateway := true
  if_name := iface.iface_name.items.takeWhile (· ≠ 0)
  metric := 0
  table := RouteTable.Main
  protocol := RouteProtocol.Static
  scope := RouteScope.Universe
  type := RouteType.Unicast

/-- The reply with the result for one more prefix. -/
def noted (resp : RouteAddBinaryResponse) (ok : Bool) : RouteAddBinaryResponse where
  status_code := if ok then resp.status_code else 0x01
  prefix_status := resp.prefix_status ++ [ok]

section Handler

variable {ε σ : Type} (add_route : RouteAddParams → σ → Except ε Unit × σ)

/-- One round of the inner loop. -/
def installOnInterface (iface : Interface) (s : RouteAddBinaryResponse × σ) (pfx : PrefixIpv4) :
    RouteAddBinaryResponse × σ :=
  let (result, world) := add_route (interfaceParams iface pfx) s.2
  (noted s.1 result.isOk, world)

/-- One round of the outer loop. -/
def installInterface (s : RouteAddBinaryResponse × σ) (iface : Interface) : RouteAddBinaryResponse × σ :=
  iface.prefixes.foldl (installOnInterface add_route iface) s

def handleRouteAddPayload (world : σ) (req : SingleRouteRequest) : RouteAddBinaryResponse × σ :=
  req.interfaces.foldl (installInterface add_route) ({ status_code := 0x00, prefix_status := [] }, world)

/-- The prefixes of a request with their interfaces, in the order of the calls. -/
def calls (req : SingleRouteRequest) : List (Interface × PrefixIpv4) :=
  req.interfaces.flatMap fun iface => iface.prefixes.map (Prod.mk iface)

/-- What `add_route` returns, call by call. -/
def callResults (cs : List (Interface × PrefixIpv4)) (world : σ) : List (Except ε Unit) :=
  (attempts (fun c : Interface × PrefixIpv4 => add_route (interfaceParams c.1 c.2)) cs world).1

/-- The two loops are one loop over the calls. -/
theorem handleRouteAddPayload_calls (world : σ) (req : SingleRouteRequest) :
    handleRouteAddPayload add_route world req =
      (calls req).foldl (fun s c => installOnInterface add_route c.1 s c.2)
        ({ status_code := 0x00, prefix_status := [] }, world) := by
  rw [handleRouteAddPayload, calls, List.foldl_flatMap]
  simp only [List.foldl_map]
  rfl

/-- A loop over calls notes their results, and its status falls at the first failure. -/
theorem foldl_installOnInterface : ∀ (cs : List (Interface × PrefixIpv4)) (s : RouteAddBinaryResponse × σ),
    (cs.foldl (fun s c => installOnInterface add_route c.1 s c.2) s).1 =
      { status_code := if (callResults add_route cs s.2).all Except.isOk then s.1.status_code else 0x01
        prefix_status := s.1.prefix_status ++ (callResults add_route cs s.2).map Except.isOk }
  | [], s => by simp [callResults, attempts]
  | c :: cs, s => by
    have hcons : callResults add_route (c :: cs) s.2 = (add_route (interfaceParams c.1 c.2) s.2).1 ::
        callResults add_route cs (add_route (interfaceParams c.1 c.2) s.2).2 := rfl
    rw [List.foldl_cons, foldl_installOnInterface cs, hcons, List.all_cons, List.map_cons]
    cases hok : (add_route (interfaceParams c.1 c.2) s.2).1.isOk with
    | true => simp [installOnInterface, noted, hok]
    | false => simp [installOnInterface, noted, hok]

/-- The reply has the results of all calls; its status is zero when they are all successes. -/
theorem handleRouteAddPayload_eq (world : σ) (req : SingleRouteRequest) :
    (handleRouteAddPayload add_route world req).1 =
      { status_code := if (callResults add_route (calls req) world).all Except.isOk then 0x00 else 0x01
        prefix_status := (callResults add_route (calls req) world).map Except.isOk } := by
  rw [handleRouteAddPayload_calls, foldl_installOnInterface, List.nil_append]

theorem callResults_length (world : σ) (req : SingleRouteRequest) :
    (callResults add_route (calls req) world).length =
      (req.interfaces.map fun iface => iface.prefixes.length).sum := by
  rw [callResults, length_attempts, calls, List.length_flatMap]
  simp only [List.length_map]

end Handler

/-- Every sequence of results is that of some `add_route`. -/
theorem callResults_scripted {ε : Type} (req : SingleRouteRequest) (results : List (Except ε Unit))
    (hlen : results.length = (calls req).length) : callResults scripted (calls req) results = results := by
  have hall := attempts_scripted (fun c : Interface × PrefixIpv4 => interfaceParams c.1 c.2) (calls req)
    results [] hlen
  rw [List.append_nil] at hall
  exact congrArg Prod.fst hall

/-! ### What the client reads -/

section Reply

variable {ε σ : Type} (add_route : RouteAddParams → σ → Except ε Unit × σ)

/-- **The client reads the result for each prefix, in the order of the interfaces and of their prefixes**,
and behind them less than a byte of `false`; the status is zero exactly when every prefix was installed.  What
is decoded of any other bytes is encoded to them again. -/
theorem prefix_status_round_trip (world : σ) (req : SingleRouteRequest) :
    (∃ raw resp padding,
      encodeRouteAddBinaryResponse (handleRouteAddPayload add_route world req).1 = .ok raw ∧
      decodeRouteAddBinaryResponse raw = .ok resp ∧
      (callResults add_route (calls req) world).length =
        (req.interfaces.map fun iface => iface.prefixes.length).sum ∧
      resp.prefix_status =
        (callResults add_route (calls req) world).map Except.isOk ++ List.replicate padding false ∧
      padding < 8 ∧
      (resp.status_code = 0 ↔ ∀ result ∈ callResults add_route (calls req) world, result.isOk = true)) ∧
    ∀ raw, raw ≠ [] → ∃ resp, decodeRouteAddBinaryResponse raw = .ok resp ∧
      encodeRouteAddBinaryResponse resp = .ok raw := by
  refine ⟨?_, fun raw hraw => encode_decode_routeAddBinaryResponse hraw⟩
  rw [handleRouteAddPayload_eq, encodeRouteAddBinaryResponse_eq]
  refine ⟨_, _, _, rfl, decodeRouteAddBinaryResponse_cons _ _, callResults_length add_route world req,
    unpackBits_packBits _, by omega, ?_⟩
  show (if _ then (0x00 : UInt8) else 0x01) = 0 ↔ _
  rw [← List.all_eq_true]
  split_ifs with hall
  · exact iff_of_true rfl hall
  · exact iff_of_false (by decide) hall

end Reply

end Rtsrv.Netlink
