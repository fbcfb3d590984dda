import Rtsrv.Client.AddrText
import Rtsrv.Client.NetlinkTables
import Rtsrv.Lib.Collect
import Rtsrv.Server.Provisioning

/-!
# Rtsrv.Client.VrfRequests — from the routes of the server to VRF requests (`main.cpp`, `vrf_table.cpp`)

The `run` command, the `vrf-route-add` command and `sendVrfRouteForNexthop` each turn the routes of a
`GetAllRoutes` response into `VrfsRequest` entries.  Prefixes come as text: what stands behind the last slash
goes through `std::stoul`, which throws, and is narrowed to eight bits.
-/

namespace Rtsrv.Client

open Lib CmdProto Server

/-! ### The builders -/

/-- The characters of a `std::string`. -/
def chars (s : String) : Bytes := s.toUTF8.data.toList

/-- A null-padded fixed array of characters. -/
def fixedArray (n : ℕ) (s : String) : Block UInt8 n where
  items := (chars s).take n ++ List.replicate (n - ((chars s).take n).length) 0
  length_eq := by
    rw [List.length_append, List.length_replicate, List.length_take]
    omega

/-- The conversion of a prefix string "A.B.C.D/N" in the `run` command and in `sendVrfRouteForNexthop`;
nothing where the `continue` is taken. -/
def prefixIpv4 (pfxStr : List Char) : Except StoError (Option PrefixIpv4) :=
  match rfind pfxStr '/' with
  | none => pure none
  | some slash => do
    let maskLen ← UInt64.toUInt8 <$> stoul (pfxStr.drop (slash + 1))
    match inetPton (cStr (pfxStr.take slash)) with
    | none => pure none
    | some pfxAddr => pure (some ⟨pfxAddr, maskLen⟩)

/-- The conversion in the `vrf-route-add` command, which looks at the address first. -/
def addPrefixIpv4 (pfxStr : List Char) : Except StoError (Option PrefixIpv4) :=
  match rfind pfxStr '/' with
  | none => pure none
  | some slash =>
    match inetPton (cStr (pfxStr.take slash)) with
    | none => pure none
    | some pfxAddr => do
      let maskLen ← UInt64.toUInt8 <$> stoul (pfxStr.drop (slash + 1))
      pure (some ⟨pfxAddr, maskLen⟩)

/-- The id of the first nexthop of the kernel with the gateway, 0 without one. -/
def nexthopId (nexthops : List NexthopEntry) (gateway : String) : UInt32 :=
  ((nexthops.find? fun nh => nh.gateway = gateway).map NexthopEntry.id).getD 0

/-- The entry of a route, as its fields are filled. -/
def entryFor (route : VrfRoute) (nhAddr : Ipv4Addr) (iface_name : IfaceName) (nexthop_id : UInt32)
    (prefixes : List PrefixIpv4) : VrfsRequest where
  vrfs_name := fixedArray VRFS_NAME_SIZE route.vrf_name
  iface_name := iface_name
  nexthop_addr_ipv4 := nhAddr
  nexthop_id_ipv4 := nexthop_id
  prefixes := prefixes

/-- A round of the loops over the routes: an nni route with a nexthop becomes an entry.  The loops differ in
where they take the address of the nexthop, the interface name and the nexthop id from, and in how they
convert a prefix. -/
def vrfsRequest (nhAddr : Option Ipv4Addr) (iface_name : IfaceName) (nexthop_id : UInt32)
    (convert : List Char → Except StoError (Option PrefixIpv4)) (route : VrfRoute) :
    Except StoError (Option VrfsRequest) :=
  if route.interface_type ≠ "nni" then pure none
  else if route.nexthop = "" then pure none
  else
    match nhAddr with
    | none => pure none
    | some nhAddr => do
      let prefixes ← route.prefixes.filterMapM fun pfx => convert pfx.prefix_.toList
      pure (some (entryFor route nhAddr iface_name nexthop_id prefixes))

/-- A round of the loop of the `run` command. -/
def runEntry (nexthops : List NexthopEntry) (route : VrfRoute) : Except StoError (Option VrfsRequest) :=
  vrfsRequest (inetPton (cStr route.nexthop.toList)) (fixedArray IFACE_NAME_SIZE route.interface_name)
    (nexthopId nexthops route.nexthop) prefixIpv4 route

/-- The entries that the `run` command submits, if there are any. -/
def runRequests (nexthops : List NexthopEntry) (arResult : GetAllRoutesResponse) :
    Except StoError (List VrfsRequest) :=
  arResult.routes.filterMapM (runEntry nexthops)

/-- A round of the loop of the `vrf-route-add` command: `iface_name` stays as it is initialised. -/
def addEntry (route : VrfRoute) : Except StoError (Option VrfsRequest) :=
  vrfsRequest (inetPton (cStr route.nexthop.toList)) (.replicate _ 0) 0 addPrefixIpv4 route

/-- The entries that the `vrf-route-add` command submits, if there are any. -/
def addRequests (arResult : GetAllRoutesResponse) : Except StoError (List VrfsRequest) :=
  arResult.routes.filterMapM addEntry

/-! ### What a prefix text says -/

/-- The prefix that a text is: a dotted IPv4 address, a slash and a decimal number up to 32. -/
def prefixOf (text : List Char) : Option PrefixIpv4 :=
  match rfind text '/' with
  | none => none
  | some slash =>
    let ds := text.drop (slash + 1)
    if IsDecimal ds ∧ decimalValue ds ≤ 32 then
      (inetPton (text.take slash)).map fun addr => ⟨addr, (decimalValue ds).toUInt8⟩
    else none

/-- `std::stoul` can convert what stands behind the last slash; and if what stands before it, up to a zero
character, is an address, then there is no zero character in it, and behind the slash there are digits alone,
of a number up to 32. -/
def ConvertsCleanly (text : List Char) : Prop :=
  match rfind text '/' with
  | none => True
  | some slash =>
    (∃ maskLen, stoul (text.drop (slash + 1)) = .ok maskLen) ∧
      (inetPton (cStr (text.take slash)) ≠ none → Char.ofNat 0 ∉ text.take slash ∧
        IsDecimal (text.drop (slash + 1)) ∧ decimalValue (text.drop (slash + 1)) ≤ 32)

/-- A text is cut at its last slash, or it has none. -/
theorem rfind_cases (s : List Char) (c : Char) :
    (rfind s c = none ∧ c ∉ s) ∨ ∃ a b, s = a ++ c :: b ∧ c ∉ b ∧ rfind s c = some a.length := by
  by_cases hmem : c ∈ s
  · obtain ⟨b, a, hs, hb⟩ := List.eq_append_cons_of_mem (List.mem_reverse.mpr hmem)
    have hcut : s = a.reverse ++ c :: b.reverse := by
      rw [← List.reverse_inj, hs]
      simp
    have hb' : c ∉ b.reverse := fun h => hb (List.mem_reverse.mp h)
    exact .inr ⟨a.reverse, b.reverse, hcut, hb', by rw [hcut]; exact rfind_append hb'⟩
  · refine .inl ⟨?_, hmem⟩
    rw [rfind, List.idxOf?_eq_none_iff.mpr fun h => hmem (List.mem_reverse.mp h)]
    rfl

section Cut

variable {a b : List Char} (hb : '/' ∉ b)

include hb

/-- The conversion throws where `std::stoul` does, and leaves out what has no address. -/
theorem prefixIpv4_cut : prefixIpv4 (a ++ '/' :: b) =
    (fun maskLen : UInt64 => (inetPton (cStr a)).map fun pfxAddr => ⟨pfxAddr, maskLen.toUInt8⟩) <$>
      stoul b := by
  rw [prefixIpv4, rfind_append hb]
  dsimp only
  rw [drop_behind, List.take_left]
  cases stoul b with
  | error e => rfl
  | ok maskLen =>
    cases inetPton (cStr a) with
    | none => rfl
    | some pfxAddr => rfl

theorem prefixOf_cut : prefixOf (a ++ '/' :: b) =
    if IsDecimal b ∧ decimalValue b ≤ 32 then
      (inetPton a).map fun addr => ⟨addr, (decimalValue b).toUInt8⟩
    else none := by
  rw [prefixOf, rfind_append hb]
  dsimp only
  rw [drop_behind, List.take_left]

theorem convertsCleanly_cut : ConvertsCleanly (a ++ '/' :: b) ↔ (∃ maskLen, stoul b = .ok maskLen) ∧
    (inetPton (cStr a) ≠ none → Char.ofNat 0 ∉ a ∧ IsDecimal b ∧ decimalValue b ≤ 32) := by
  rw [ConvertsCleanly, rfind_append hb]
  dsimp only
  rw [drop_behind, List.take_left]

end Cut

theorem prefixOf_eq_some {text : List Char} {p : PrefixIpv4} :
    prefixOf text = some p ↔ ∃ ds, text = (inetNtop p.addr).toList ++ '/' :: ds ∧ IsDecimal ds ∧
      decimalValue ds = p.mask_len.toNat ∧ p.mask_len ≤ 32 := by
  constructor
  · intro h
    rcases rfind_cases text '/' with ⟨hnone, -⟩ | ⟨a, b, rfl, hb, -⟩
    · rw [prefixOf, hnone] at h
      cases h
    · rw [prefixOf_cut hb] at h
      split_ifs at h with hdec
      obtain ⟨addr, haddr, rfl⟩ := Option.map_eq_some_iff.mp h
      have hvalue := toNat_toUInt8 (Nat.lt_of_le_of_lt hdec.2 (by decide))
      refine ⟨b, by rw [inetPton_eq_some.mp haddr], hdec.1, hvalue.symm, UInt8.le_iff_toNat_le.mpr ?_⟩
      exact hvalue.le.trans hdec.2
  · rintro ⟨ds, rfl, hds, hvalue, hle⟩
    have hslash : '/' ∉ ds := fun hmem => absurd (hds.2 '/' hmem) (by decide)
    have hle : decimalValue ds ≤ 32 := hvalue.le.trans (UInt8.le_iff_toNat_le.mp hle)
    rw [prefixOf_cut hslash, if_pos ⟨hds, hle⟩, inetPton_inetNtop, hvalue]
    simp

/-- What a prefix text is, the conversion gives. -/
theorem prefixIpv4_of_prefixOf {text : List Char} {p : PrefixIpv4} (h : prefixOf text = some p) :
    prefixIpv4 text = .ok (some p) := by
  obtain ⟨ds, rfl, hds, hvalue, hle⟩ := prefixOf_eq_some.mp h
  have hslash : '/' ∉ ds := fun hmem => absurd (hds.2 '/' hmem) (by decide)
  have hle : decimalValue ds ≤ 32 := hvalue.le.trans (UInt8.le_iff_toNat_le.mp hle)
  rw [prefixIpv4_cut hslash, stoul_decimal hds (by omega), cStr_inetNtop, inetPton_inetNtop, hvalue]
  refine congrArg (fun maskLen => Except.ok (some (⟨p.addr, maskLen⟩ : PrefixIpv4))) ?_
  simp

/-- A prefix text is converted to the prefix that it is exactly when it converts cleanly. -/
theorem prefixIpv4_iff (text : List Char) : prefixIpv4 text = .ok (prefixOf text) ↔ ConvertsCleanly text := by
  rcases rfind_cases text '/' with ⟨hnone, -⟩ | ⟨a, b, rfl, hb, -⟩
  · rw [prefixIpv4, prefixOf, ConvertsCleanly, hnone]
    exact iff_of_true rfl trivial
  rw [convertsCleanly_cut hb]
  constructor
  · intro h
    rw [prefixIpv4_cut hb, except_map_ok] at h
    obtain ⟨maskLen, hmask, hsame⟩ := h
    refine ⟨⟨maskLen, hmask⟩, fun haddr => ?_⟩
    obtain ⟨addr, haddr⟩ := Option.ne_none_iff_exists'.mp haddr
    rw [haddr, prefixOf_cut hb] at hsame
    split_ifs at hsame with hdec
    · obtain ⟨addr', haddr', -⟩ := Option.map_eq_some_iff.mp hsame.symm
      refine ⟨fun hzero => ?_, hdec⟩
      rw [inetPton_eq_some.mp haddr'] at hzero
      exact absurd (mem_inetNtop hzero) (by decide)
    · cases hsame
  · rintro ⟨⟨maskLen, hmask⟩, hclean⟩
    cases hof : prefixOf (a ++ '/' :: b) with
    | some p => exact prefixIpv4_of_prefixOf hof
    | none =>
      rw [prefixIpv4_cut hb, hmask]
      cases haddr : inetPton (cStr a) with
      | none => rfl
      | some addr =>
        obtain ⟨hzero, hdec⟩ := hclean (haddr ▸ Option.some_ne_none addr)
        rw [cStr_eq_self hzero] at haddr
        rw [prefixOf_cut hb, if_pos hdec, haddr] at hof
        cases hof

/-! ### The `run` command -/

/-- The entry that an nni route with an IPv4 nexthop is to become. -/
def entryOf (nexthops : List NexthopEntry) (route : VrfRoute) : Option VrfsRequest :=
  if route.interface_type = "nni" then
    (inetPton route.nexthop.toList).map fun nhAddr =>
      entryFor route nhAddr (fixedArray IFACE_NAME_SIZE route.interface_name)
        (nexthopId nexthops route.nexthop) (route.prefixes.filterMap fun pfx => prefixOf pfx.prefix_.toList)
  else none

/-- The `run` command builds its request faithfully: it does not throw, it makes an entry of each nni route
with an IPv4 nexthop, with the prefixes that its texts are, and every mask can be encoded. -/
def RunFaithful (nexthops : List NexthopEntry) (arResult : GetAllRoutesResponse) : Prop :=
  ∃ reqs, runRequests nexthops arResult = .ok reqs ∧ reqs = arResult.routes.filterMap (entryOf nexthops) ∧
    ∀ vr ∈ reqs, ∀ pfx ∈ vr.prefixes, pfx.Valid

/-- The route is taken by the builders: of type nni, with a nexthop that is an address up to a zero
character. -/
def Taken (route : VrfRoute) : Prop :=
  route.interface_type = "nni" ∧ inetPton (cStr route.nexthop.toList) ≠ none

/-- A nexthop of a route that is taken is not empty. -/
theorem Taken.nexthop_ne {route : VrfRoute} (h : Taken route) : route.nexthop ≠ "" := by
  intro hempty
  refine h.2 ?_
  rw [hempty]
  rfl

theorem vrfsRequest_taken (nhAddr : Ipv4Addr) (iface_name : IfaceName) (nexthop_id : UInt32)
    (convert : List Char → Except StoError (Option PrefixIpv4)) {route : VrfRoute} (h : Taken route) :
    vrfsRequest (some nhAddr) iface_name nexthop_id convert route =
      (fun prefixes => some (entryFor route nhAddr iface_name nexthop_id prefixes)) <$>
        route.prefixes.filterMapM fun pfx => convert pfx.prefix_.toList := by
  rw [vrfsRequest, if_neg (not_not.mpr h.1), if_neg h.nexthop_ne]
  rfl

theorem vrfsRequest_not_taken (iface_name : IfaceName) (nexthop_id : UInt32)
    (convert : List Char → Except StoError (Option PrefixIpv4)) {route : VrfRoute} (h : ¬ Taken route) :
    vrfsRequest (inetPton (cStr route.nexthop.toList)) iface_name nexthop_id convert route = .ok none := by
  unfold vrfsRequest
  split_ifs with htype hempty
  · rfl
  · rfl
  · have hnone : inetPton (cStr route.nexthop.toList) = none := by
      by_contra hne
      exact h ⟨not_not.mp htype, hne⟩
    rw [hnone]
    rfl

theorem runEntry_not_taken {route : VrfRoute} (nexthops : List NexthopEntry) (h : ¬ Taken route) :
    runEntry nexthops route = .ok none := vrfsRequest_not_taken _ _ _ h

theorem runEntry_taken {route : VrfRoute} (nexthops : List NexthopEntry) (h : Taken route) :
    ∃ nhAddr, inetPton (cStr route.nexthop.toList) = some nhAddr ∧ runEntry nexthops route =
      (fun prefixes => some (entryFor route nhAddr (fixedArray IFACE_NAME_SIZE route.interface_name)
        (nexthopId nexthops route.nexthop) prefixes)) <$>
          route.prefixes.filterMapM fun pfx => prefixIpv4 pfx.prefix_.toList := by
  obtain ⟨nhAddr, haddr⟩ := Option.ne_none_iff_exists'.mp h.2
  refine ⟨nhAddr, haddr, ?_⟩
  rw [runEntry, haddr]
  exact vrfsRequest_taken nhAddr _ _ _ h

/-- What is to become an entry is taken, with its nexthop as it stands. -/
theorem entryOf_taken {nexthops : List NexthopEntry} {route : VrfRoute} (h : entryOf nexthops route ≠ none) :
    Taken route ∧ Char.ofNat 0 ∉ route.nexthop.toList := by
  unfold entryOf at h
  split_ifs at h with htype
  · obtain ⟨vr, hvr⟩ := Option.ne_none_iff_exists'.mp h
    obtain ⟨nhAddr, haddr, -⟩ := Option.map_eq_some_iff.mp hvr
    have hzero : Char.ofNat 0 ∉ route.nexthop.toList := by
      rw [inetPton_eq_some.mp haddr]
      exact fun hmem => absurd (mem_inetNtop hmem) (by decide)
    refine ⟨⟨htype, ?_⟩, hzero⟩
    rw [cStr_eq_self hzero, haddr]
    exact Option.some_ne_none nhAddr
  · exact absurd rfl h

/-- The loop over the prefixes gives what their texts are exactly when all of them convert cleanly. -/
theorem prefixes_iff (prefixes : List LoopbackPrefix) :
    prefixes.filterMapM (fun pfx => prefixIpv4 pfx.prefix_.toList) =
        .ok (prefixes.filterMap fun pfx => prefixOf pfx.prefix_.toList) ↔
      ∀ pfx ∈ prefixes, ConvertsCleanly pfx.prefix_.toList := by
  rw [filterMapM_eq_filterMap fun pfx _ hne => ?_]
  · exact forall₂_congr fun pfx _ => prefixIpv4_iff pfx.prefix_.toList
  · obtain ⟨p, hp⟩ := Option.ne_none_iff_exists'.mp hne
    rw [prefixIpv4_of_prefixOf hp]
    simp

/-- A route becomes its entry exactly when it is not taken, or has its nexthop and its prefixes clean. -/
theorem runEntry_iff (nexthops : List NexthopEntry) (route : VrfRoute) :
    runEntry nexthops route = .ok (entryOf nexthops route) ↔
      (Taken route → Char.ofNat 0 ∉ route.nexthop.toList ∧
        ∀ pfx ∈ route.prefixes, ConvertsCleanly pfx.prefix_.toList) := by
  by_cases htaken : Taken route
  · rw [imp_iff_right htaken]
    obtain ⟨nhAddr, haddr, hrun⟩ := runEntry_taken nexthops htaken
    by_cases hzero : Char.ofNat 0 ∉ route.nexthop.toList
    · rw [and_iff_right hzero]
      have hof : entryOf nexthops route = some (entryFor route nhAddr
          (fixedArray IFACE_NAME_SIZE route.interface_name) (nexthopId nexthops route.nexthop)
          (route.prefixes.filterMap fun pfx => prefixOf pfx.prefix_.toList)) := by
        rw [cStr_eq_self hzero] at haddr
        rw [entryOf, if_pos htaken.1, haddr]
        rfl
      rw [← prefixes_iff, hrun, hof, except_map_ok]
      constructor
      · rintro ⟨prefixes, hread, hsame⟩
        rw [hread]
        exact congrArg Except.ok (congrArg VrfsRequest.prefixes (Option.some.inj hsame))
      · exact fun hread => ⟨_, hread, rfl⟩
    · refine iff_of_false (fun h => ?_) fun h => hzero h.1
      have hno : entryOf nexthops route = none := not_not.mp fun hne => hzero (entryOf_taken hne).2
      rw [hrun, hno, except_map_ok] at h
      obtain ⟨prefixes, -, hsome⟩ := h
      cases hsome
  · have hno : entryOf nexthops route = none := not_not.mp fun hne => htaken (entryOf_taken hne).1
    rw [runEntry_not_taken nexthops htaken, hno]
    exact iff_of_true rfl fun h => absurd h htaken

theorem entryOf_valid {nexthops : List NexthopEntry} {route : VrfRoute} {vr : VrfsRequest}
    (h : entryOf nexthops route = some vr) : ∀ pfx ∈ vr.prefixes, pfx.Valid := by
  unfold entryOf at h
  split_ifs at h
  obtain ⟨nhAddr, -, rfl⟩ := Option.map_eq_some_iff.mp h
  intro pfx hpfx
  obtain ⟨text, -, hof⟩ := List.mem_filterMap.mp hpfx
  obtain ⟨ds, -, -, -, hle⟩ := prefixOf_eq_some.mp hof
  exact hle

/-- **The `run` command builds its request faithfully exactly when the nexthops and the prefixes of the
routes that it takes are clean texts.** -/
theorem run_faithful_iff (nexthops : List NexthopEntry) (arResult : GetAllRoutesResponse) :
    RunFaithful nexthops arResult ↔ ∀ route ∈ arResult.routes, Taken route →
      Char.ofNat 0 ∉ route.nexthop.toList ∧ ∀ pfx ∈ route.prefixes, ConvertsCleanly pfx.prefix_.toList := by
  have hkept : ∀ route ∈ arResult.routes, entryOf nexthops route ≠ none →
      runEntry nexthops route ≠ .ok none := by
    intro route _ hne hskip
    obtain ⟨nhAddr, -, hrun⟩ := runEntry_taken nexthops (entryOf_taken hne).1
    rw [hrun, except_map_ok] at hskip
    obtain ⟨prefixes, -, hsome⟩ := hskip
    cases hsome
  rw [← forall₂_congr fun route _ => runEntry_iff nexthops route, ← filterMapM_eq_filterMap hkept]
  constructor
  · rintro ⟨reqs, hreqs, rfl, -⟩
    exact hreqs
  · intro hreqs
    refine ⟨_, hreqs, rfl, fun vr hvr => ?_⟩
    obtain ⟨route, -, hof⟩ := List.mem_filterMap.mp hvr
    exact entryOf_valid hof

/-- A response with one nni route over the gateway 10.0.0.1. -/
def nniResponse (interface_name : String) (texts : List String) : GetAllRoutesResponse where
  code := .OK
  message := ""
  hostname := ""
  loopback_ipv4 := ""
  routes := [{
    vrf_name := "red"
    interface_name := interface_name
    interface_type := "nni"
    local_address := ""
    nexthop := "10.0.0.1"
    weight := 0
    description := ""
    prefixes := texts.map fun text => ⟨text, 0, "", ""⟩ }]

/-- Without a number behind the slash the daemon ends, 33 keeps the request from being encoded, and 264 is
the mask length 8. -/
theorem run_not_faithful :
    ¬ RunFaithful [] (nniResponse "eth0" ["10.0.0.0/"]) ∧
    runRequests [] (nniResponse "eth0" ["10.0.0.0/"]) = .error .invalid_argument ∧
    (∃ reqs, runRequests [] (nniResponse "eth0" ["10.1.0.0/16", "10.0.0.0/33"]) = .ok reqs ∧
      encodeVrfsRouteRequest ⟨reqs⟩ = .error (.error .InvalidField)) ∧
    ∃ vr, runRequests [] (nniResponse "eth0" ["10.0.0.0/264"]) = .ok [vr] ∧
      vr.prefixes = [⟨ipv4 10 0 0 0, 8⟩] := by
  have hthrows : runRequests [] (nniResponse "eth0" ["10.0.0.0/"]) = .error .invalid_argument := by decide
  refine ⟨?_, hthrows, ⟨_, rfl, by decide⟩, _, rfl, by decide⟩
  rintro ⟨reqs, hreqs, -⟩
  rw [hthrows] at hreqs
  cases hreqs

end Rtsrv.Client
