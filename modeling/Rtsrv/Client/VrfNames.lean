import Rtsrv.Client.VrfTable
import Rtsrv.Lib.FixedField

/-!
# Rtsrv.Client.VrfNames — names in the fields of a request (`main.cpp`, `cmd_proto.hpp`)

The builders copy a VRF name into 16 bytes and an interface name into 32, cutting what is longer.  Two VRFs
are told apart by what is left: `vrf_names_in_fields` says when that is enough.
-/

namespace Rtsrv.Client

open Lib CmdProto Server

/-! ### The builders of an entry -/

/-- The loops that make an entry of a route. -/
inductive EntryBuilder where
  | run (nexthops : List NexthopEntry)
  | vrfRouteAdd
  | forNexthop (nh : NetlinkNexthop) (nhAddr : Ipv4Addr)

def EntryBuilder.entry : EntryBuilder → VrfRoute → Except StoError (Option VrfsRequest)
  | .run nexthops => runEntry nexthops
  | .vrfRouteAdd => addEntry
  | .forNexthop nh nhAddr => nexthopEntry nh nhAddr

/-- Any two nni routes of the response with different VRF names get different fields, whoever builds them. -/
def NamesDistinct (resp : GetAllRoutesResponse) : Prop :=
  ∀ r ∈ resp.routes, ∀ r' ∈ resp.routes, r.interface_type = "nni" → r'.interface_type = "nni" →
    r.vrf_name ≠ r'.vrf_name → ∀ (b b' : EntryBuilder) (vr vr' : VrfsRequest),
      b.entry r = .ok (some vr) → b'.entry r' = .ok (some vr') → vr.vrfs_name ≠ vr'.vrfs_name

theorem chars_injective : Function.Injective chars := by
  intro s t h
  exact String.toByteArray_inj.mp (ByteArray.ext (Array.toList_inj.mp h))

theorem fixedArray_items (n : ℕ) (s : String) : (fixedArray n s).items = fixedField 0 n (chars s) := rfl

/-- What a round of a loop writes, it writes in the fields of the route. -/
theorem vrfsRequest_fields {nhAddr : Option Ipv4Addr} {iface_name : IfaceName} {nexthop_id : UInt32}
    {convert : List Char → Except StoError (Option PrefixIpv4)} {route : VrfRoute} {vr : VrfsRequest}
    (h : vrfsRequest nhAddr iface_name nexthop_id convert route = .ok (some vr)) :
    vr.vrfs_name = fixedArray VRFS_NAME_SIZE route.vrf_name ∧ vr.iface_name = iface_name := by
  unfold vrfsRequest at h
  split_ifs at h
  · cases h
  · cases h
  · cases nhAddr with
    | none => cases h
    | some nhAddr =>
      obtain ⟨prefixes, -, hvr⟩ := except_bind_ok.mp h
      obtain rfl := Option.some.inj (Except.ok.inj hvr)
      exact ⟨rfl, rfl⟩

theorem EntryBuilder.vrfs_name {b : EntryBuilder} {route : VrfRoute} {vr : VrfsRequest}
    (h : b.entry route = .ok (some vr)) : vr.vrfs_name = fixedArray VRFS_NAME_SIZE route.vrf_name := by
  cases b with
  | run nexthops => exact (vrfsRequest_fields h).1
  | vrfRouteAdd => exact (vrfsRequest_fields h).1
  | forNexthop nh nhAddr =>
    rw [entry, nexthopEntry] at h
    exact (vrfsRequest_fields h).1

/-- The loop of the `vrf-route-add` command leaves the interface name out. -/
theorem EntryBuilder.iface_name {b : EntryBuilder} (hb : b ≠ .vrfRouteAdd) {route : VrfRoute}
    {vr : VrfsRequest} (h : b.entry route = .ok (some vr)) :
    vr.iface_name = fixedArray IFACE_NAME_SIZE route.interface_name := by
  cases b with
  | run nexthops => exact (vrfsRequest_fields h).2
  | vrfRouteAdd => exact absurd rfl hb
  | forNexthop nh nhAddr =>
    rw [entry, nexthopEntry] at h
    exact (vrfsRequest_fields h).2

/-! ### What the fields say -/

theorem fixedArray_eq_iff {n : ℕ} {s t : String} : fixedArray n s = fixedArray n t ↔
    trimmed 0 ((chars s).take n) = trimmed 0 ((chars t).take n) := by
  rw [← fixedField_eq_iff, ← fixedArray_items, ← fixedArray_items]
  exact ⟨congrArg Block.items, Block.ext_items⟩

/-- Names that fit are told apart by their fields. -/
theorem fixedArray_inj {n : ℕ} {s t : String} (hs : FitsField 0 n (chars s)) (ht : FitsField 0 n (chars t)) :
    fixedArray n s = fixedArray n t ↔ s = t := by
  rw [fixedArray_eq_iff, trimmed_take hs, trimmed_take ht]
  exact chars_injective.eq_iff

theorem trimmed_fixedArray {n : ℕ} {s : String} (h : FitsField 0 n (chars s)) :
    trimmed 0 (fixedArray n s).items = chars s := by
  rw [fixedArray_items, trimmed_fixedField, trimmed_take h]

/-- **VRF names stay distinct as far as their fields hold them.**  The fields of two nni routes are equal
exactly when the first 16 bytes of the names are, up to zero bytes at the end; so names that fit stay
distinct.  An interface name that fits is read back from the field that the `run` command or
`sendVrfRouteForNexthop` writes. -/
theorem vrf_names_in_fields (resp : GetAllRoutesResponse) :
    ∀ r ∈ resp.routes, ∀ r' ∈ resp.routes, r.interface_type = "nni" → r'.interface_type = "nni" →
      ∀ (b b' : EntryBuilder) (vr vr' : VrfsRequest),
        b.entry r = .ok (some vr) → b'.entry r' = .ok (some vr') →
        (vr.vrfs_name = vr'.vrfs_name ↔ trimmed 0 ((chars r.vrf_name).take VRFS_NAME_SIZE) =
          trimmed 0 ((chars r'.vrf_name).take VRFS_NAME_SIZE)) ∧
        (FitsField 0 VRFS_NAME_SIZE (chars r.vrf_name) → FitsField 0 VRFS_NAME_SIZE (chars r'.vrf_name) →
          r.vrf_name ≠ r'.vrf_name → vr.vrfs_name ≠ vr'.vrfs_name) ∧
        (b ≠ .vrfRouteAdd → FitsField 0 IFACE_NAME_SIZE (chars r.interface_name) →
          trimmed 0 vr.iface_name.items = chars r.interface_name) := by
  intro r _ r' _ _ _ b b' vr vr' hvr hvr'
  rw [b.vrfs_name hvr, b'.vrfs_name hvr']
  refine ⟨fixedArray_eq_iff, fun hfit hfit' hne => ?_, fun hb hfit => ?_⟩
  · exact fun heq => hne ((fixedArray_inj hfit hfit').mp heq)
  · rw [b.iface_name hb hvr, trimmed_fixedArray hfit]

/-! ### Two VRFs -/

/-- An nni route of a VRF. -/
def vrfRoute (vrf_name : String) : VrfRoute where
  vrf_name := vrf_name
  interface_name := "eth0"
  interface_type := "nni"
  local_address := ""
  nexthop := "10.0.0.1"
  weight := 0
  description := ""
  prefixes := []

def twoVrfs (vrf_name vrf_name' : String) : GetAllRoutesResponse where
  code := .OK
  message := ""
  hostname := ""
  loopback_ipv4 := ""
  routes := [vrfRoute vrf_name, vrfRoute vrf_name']

/-- What the `run` command makes of it. -/
def vrfEntry (vrf_name : String) : VrfsRequest :=
  entryFor (vrfRoute vrf_name) (ipv4 10 0 0 1) (fixedArray IFACE_NAME_SIZE "eth0") 0 []

theorem vrf_names_in_fields_short :
    (vrfEntry "red").vrfs_name ≠ (vrfEntry "blue").vrfs_name ∧
      trimmed 0 (vrfEntry "red").iface_name.items = chars "eth0" := by
  have hred : (EntryBuilder.run []).entry (vrfRoute "red") = .ok (some (vrfEntry "red")) := by decide
  have hblue : (EntryBuilder.run []).entry (vrfRoute "blue") = .ok (some (vrfEntry "blue")) := by decide
  have h := vrf_names_in_fields (twoVrfs "red" "blue") (vrfRoute "red") (by decide) (vrfRoute "blue")
    (by decide) rfl rfl (.run []) (.run []) (vrfEntry "red") (vrfEntry "blue") hred hblue
  exact ⟨h.2.1 ⟨by decide, by decide⟩ ⟨by decide, by decide⟩ (by decide),
    h.2.2 (by simp) ⟨by decide, by decide⟩⟩

/-- Two VRFs whose names have the first 16 bytes in common. -/
theorem vrf_names_collide : ¬NamesDistinct (twoVrfs "customer-network-a" "customer-network-b") := by
  intro h
  refine h (vrfRoute "customer-network-a") (by decide) (vrfRoute "customer-network-b") (by decide) rfl rfl
    (by decide) (.run []) (.run []) (vrfEntry "customer-network-a") (vrfEntry "customer-network-b")
    ?_ ?_ ?_
  · decide
  · decide
  · decide

end Rtsrv.Client
