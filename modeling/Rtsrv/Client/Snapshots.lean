import Mathlib.Data.Nat.Log
import Rtsrv.Client.NeighTable
import Rtsrv.Client.RouteRequest
import Rtsrv.Lib.Collect
import Rtsrv.Lib.Json
import Rtsrv.Lib.TextRecord
import Rtsrv.Server.RouteIds

/-!
# Rtsrv.Client.Snapshots — the tables as they are published (`client/src/main.cpp`)

`serializeRouteTable`, `serializeNeighborTable` and `serializeNexthopTable` write a heading with the number
of rows and a line for each.  A subscriber can tell the routes and the neighbors from what it is sent.
-/

namespace Rtsrv.Client

open Lib CmdProto Server

/-! ### Labels -/

def RTPROT_STATIC : UInt8 := 4
def RTPROT_ZEBRA : UInt8 := 11
def RT_SCOPE_SITE : UInt8 := 200
def RT_SCOPE_HOST : UInt8 := 254
def RT_SCOPE_NOWHERE : UInt8 := 255

def NUD_NONE : UInt16 := 0x00
def NUD_INCOMPLETE : UInt16 := 0x01
def NUD_REACHABLE : UInt16 := 0x02
def NUD_STALE : UInt16 := 0x04
def NUD_DELAY : UInt16 := 0x08
def NUD_PROBE : UInt16 := 0x10
def NUD_FAILED : UInt16 := 0x20
def NUD_NOARP : UInt16 := 0x40
def NUD_PERMANENT : UInt16 := 0x80

def NTF_USE : UInt8 := 0x01
def NTF_SELF : UInt8 := 0x02
def NTF_MASTER : UInt8 := 0x04
def NTF_PROXY : UInt8 := 0x08
def NTF_EXT_LEARNED : UInt8 := 0x10
def NTF_OFFLOADED : UInt8 := 0x20
def NTF_STICKY : UInt8 := 0x40
def NTF_ROUTER : UInt8 := 0x80

def RTNH_F_DEAD : UInt32 := 1
def RTNH_F_PERVASIVE : UInt32 := 2
def RTNH_F_ONLINK : UInt32 := 4
def RTNH_F_OFFLOAD : UInt32 := 8
def RTNH_F_LINKDOWN : UInt32 := 16
def RTNH_F_UNRESOLVED : UInt32 := 32

/-- `{:0<width>x}` -/
def hexText (width n : ℕ) : String := String.ofList (hexDigits (max width (Nat.log 16 n + 1)) n)

def protoNames : List (UInt8 × String) :=
  [(RTPROT_KERNEL, "kernel"), (RTPROT_BOOT, "boot"), (RTPROT_STATIC, "static"), (RTPROT_OSPF, "ospf"),
    (RTPROT_BGP, "bgp"), (RTPROT_RIP, "rip"), (RTPROT_ZEBRA, "zebra")]

def protoLabel : UInt8 → String := labelOr protoNames fun proto => toString proto.toNat

def scopeNames : List (UInt8 × String) :=
  [(RT_SCOPE_UNIVERSE, "global"), (RT_SCOPE_SITE, "site"), (RT_SCOPE_LINK, "link"), (RT_SCOPE_HOST, "host"),
    (RT_SCOPE_NOWHERE, "nowhere")]

def scopeLabel : UInt8 → String := labelOr scopeNames fun scope => toString scope.toNat

def nudNames : List (UInt16 × String) :=
  [(NUD_INCOMPLETE, "incomplete"), (NUD_REACHABLE, "reachable"), (NUD_STALE, "stale"), (NUD_DELAY, "delay"),
    (NUD_PROBE, "probe"), (NUD_FAILED, "failed"), (NUD_NOARP, "noarp"), (NUD_PERMANENT, "permanent"),
    (NUD_NONE, "none")]

def nudStateLabel : UInt16 → String := labelOr nudNames fun state => "0x" ++ hexText 2 state.toNat

/-- The letters of the flags, in the order in which they are written. -/
def ntfLetters : List (UInt8 × Char) :=
  [(NTF_USE, 'U'), (NTF_SELF, 'S'), (NTF_MASTER, 'M'), (NTF_PROXY, 'P'), (NTF_EXT_LEARNED, 'X'),
    (NTF_OFFLOADED, 'O'), (NTF_STICKY, 'K'), (NTF_ROUTER, 'R')]

/-- With the headers of a kernel that has `NTF_OFFLOADED` and `NTF_STICKY`. -/
def ntfFlagsLabel (flags : UInt8) : String :=
  if flags = 0 then "-"
  else
    let s := (ntfLetters.filter fun letter => flags &&& letter.1 ≠ 0).map Prod.snd
    if s.isEmpty then "0x" ++ hexText 2 flags.toNat else String.ofList s

def rtnhNames : List (UInt32 × String) :=
  [(RTNH_F_DEAD, "dead"), (RTNH_F_PERVASIVE, "perv"), (RTNH_F_ONLINK, "onlink"), (RTNH_F_OFFLOAD, "offload"),
    (RTNH_F_LINKDOWN, "down"), (RTNH_F_UNRESOLVED, "unresolved")]

def rtnhFlagsLabel (flags : UInt32) : String :=
  if flags = 0 then "-"
  else
    let parts := (rtnhNames.filter fun name => flags &&& name.1 ≠ 0).map Prod.snd
    if parts.isEmpty then "0x" ++ hexText 8 flags.toNat else "|".intercalate parts

/-- A text, or what stands for an empty one. -/
def orElse (text absent : String) : String := if text = "" then absent else text

/-! ### The snapshots -/

/-- A line of `serializeRouteTable`. -/
def WatchRoute.fields (r : WatchRoute) : List (String × String) :=
  [("dest", r.dest), ("gw", orElse r.gateway "(none)"), ("iface", orElse r.iface "(none)"),
    ("ifidx", toString r.ifindex.toNat), ("metric", toString r.metric.toNat),
    ("table", toString r.table.toNat), ("proto", protoLabel r.protocol), ("family", familyLabel r.family),
    ("dst_len", toString r.dst_len.toNat), ("tos", toString r.tos.toNat), ("scope", scopeLabel r.scope),
    ("type", toString r.type.toNat),
    ("flags", "0x" ++ hexText 8 r.flags.toNat), ("id", orElse r.srmdId "(pending)")]

def serializeRouteTable (routes : WatchRoutes) : String :=
  unlines (("ROUTES " ++ toString routes.rows.length) :: (routes.inOrder id).map fun r => record r.fields)

/-- A line of `serializeNeighborTable`. -/
def NeighEntry.fields (n : NeighEntry) : List (String × String) :=
  [("family", familyLabel n.family), ("dst", orElse n.dst "(none)"), ("mac", orElse n.mac "(none)"),
    ("iface", orElse n.ifname (toString n.ifindex.toInt)), ("ifidx", toString n.ifindex.toInt),
    ("state", nudStateLabel n.state), ("flags", ntfFlagsLabel n.flags), ("type", toString n.type.toNat),
    ("confirmed_ms", toString n.confirmed_ms.toNat), ("used_ms", toString n.used_ms.toNat),
    ("updated_ms", toString n.updated_ms.toNat), ("refcnt", toString n.refcnt.toNat),
    ("probes", toString n.probes.toNat), ("vlan", toString n.vlan.toNat), ("master", toString n.master.toNat),
    ("master_name", orElse n.master_name "-"), ("nh_ifindex", toString n.nh_ifindex.toNat),
    ("proto", protoLabel n.protocol)]

def serializeNeighborTable (neighbors : Neighbors) : String :=
  unlines (("NEIGHBORS " ++ toString neighbors.rows.length) ::
    (neighbors.inOrder id).map fun n => record n.fields)

/-- A line of `serializeNexthopTable`. -/
def NexthopEntry.fields (nh : NexthopEntry) : List (String × String) :=
  let oif := orElse nh.oif_name (if nh.oif ≠ 0 then toString nh.oif.toNat else "-")
  let mst := orElse nh.master_name (if nh.master ≠ 0 then toString nh.master.toNat else "-")
  let gtp := if nh.group_type = 0 then (if nh.group_str = "-" then "-" else "mpath") else "resilient"
  [("id", toString nh.id.toNat), ("family", familyLabel nh.family), ("scope", scopeLabel nh.scope),
    ("proto", protoLabel nh.protocol), ("flags", rtnhFlagsLabel nh.flags), ("oif", oif),
    ("gw", orElse nh.gateway "-"), ("group", nh.group_str), ("group_count", toString nh.group_count.toNat),
    ("group_type", gtp), ("encap_type", toString nh.encap_type.toNat),
    ("bh", if nh.blackhole ≠ 0 then "yes" else "no"), ("fdb", if nh.fdb ≠ 0 then "yes" else "no"),
    ("master", mst)]

def serializeNexthopTable (nexthops : Nexthops) : String :=
  unlines (("NEXTHOPS " ++ toString nexthops.rows.length) ::
    (nexthops.inOrder UInt32.toNat).map fun nh => record nh.fields)

/-! ### Labels tell values apart -/

theorem hexDigits_length (width n : ℕ) : (hexDigits width n).length = width := by
  induction width generalizing n with
  | zero => rfl
  | succ width ih => rw [hexDigits, List.length_append, ih, List.length_singleton]

theorem hexText_inj {width n k : ℕ} (h : hexText width n = hexText width k) : n = k := by
  have hdigits := String.ofList_injective h
  have hlen := congrArg List.length hdigits
  rw [hexDigits_length, hexDigits_length] at hlen
  have hfits : ∀ m : ℕ, m < 16 ^ max width (Nat.log 16 m + 1) := fun m =>
    Nat.lt_of_lt_of_le (Nat.lt_pow_succ_log_self (by decide) m)
      (Nat.pow_le_pow_right (by decide) (Nat.le_max_right _ _))
  rw [hlen] at hdigits
  exact hexDigits_inj (hlen ▸ hfits n) (hfits k) hdigits

theorem plain_hexText (width n : ℕ) : Plain (hexText width n) := by
  have hdigit : ∀ (w n : ℕ), ∀ c ∈ hexDigits w n, ∃ d : Fin 16, c = Nat.digitChar d := by
    intro w
    induction w with
    | zero => exact fun n c hc => absurd hc List.not_mem_nil
    | succ w ih =>
      intro n c hc
      rcases List.mem_append.mp hc with hc | hc
      · exact ih (n / 16) c hc
      · exact ⟨⟨n % 16, Nat.mod_lt _ (by decide)⟩, List.mem_singleton.mp hc⟩
  have hblank : ∀ d : Fin 16, ' ' ≠ Nat.digitChar d ∧ '\n' ≠ Nat.digitChar d := by decide
  rw [hexText, Plain, String.toList_ofList]
  constructor
  · intro hc
    obtain ⟨d, hd⟩ := hdigit _ _ _ hc
    exact (hblank d).1 hd
  · intro hc
    obtain ⟨d, hd⟩ := hdigit _ _ _ hc
    exact (hblank d).2 hd

/-- The text of a number is none of the names. -/
theorem nat_ne_name {α : Type} {names : List (α × String)}
    (h : ∀ name ∈ names, name.2.toList.all Char.isDigit = false) :
    ∀ name ∈ names, ∀ n : ℕ, toString n ≠ name.2 := by
  intro name hname n
  obtain ⟨c, hc, hdigit⟩ := List.all_eq_false.mp (h name hname)
  exact natText_ne hc (Bool.eq_false_iff.mpr hdigit) n

theorem protoLabel_injective : Function.Injective protoLabel := by
  have hletter : ∀ name ∈ protoNames, name.2.toList.all Char.isDigit = false := by decide
  exact labelOr_injective (by decide) (fun name hname proto => nat_ne_name hletter name hname proto.toNat)
    fun _ _ h => UInt8.toNat_inj.mp (natText_injective h)

theorem scopeLabel_injective : Function.Injective scopeLabel := by
  have hletter : ∀ name ∈ scopeNames, name.2.toList.all Char.isDigit = false := by decide
  exact labelOr_injective (by decide) (fun name hname scope => nat_ne_name hletter name hname scope.toNat)
    fun _ _ h => UInt8.toNat_inj.mp (natText_injective h)

theorem nudStateLabel_injective : Function.Injective nudStateLabel := by
  refine labelOr_injective (by decide) (fun name hname state h => ?_) fun state state' h => ?_
  · have hfirst : ∀ name ∈ nudNames, name.2.toList.head? ≠ some '0' := by decide
    refine hfirst name hname ?_
    rw [← h, String.toList_append]
    rfl
  · exact UInt16.toNat_inj.mp (hexText_inj ((String.append_right_inj _).mp h))

/-- The flags are those of the letters. -/
theorem ntf_flags (flags : UInt8) :
    ((ntfLetters.filter fun letter => flags &&& letter.1 ≠ 0).map Prod.fst).foldl (· ||| ·) 0 = flags := by
  have hall : ∀ n : Fin 256, ((ntfLetters.filter fun letter => UInt8.ofNat n &&& letter.1 ≠ 0).map
      Prod.fst).foldl (· ||| ·) 0 = UInt8.ofNat n := by decide +kernel
  have hflags := hall ⟨flags.toNat, flags.toNat_lt⟩
  simpa using hflags

theorem ntfFlagsLabel_eq {flags : UInt8} (h : flags ≠ 0) : ntfFlagsLabel flags =
    String.ofList ((ntfLetters.filter fun letter => flags &&& letter.1 ≠ 0).map Prod.snd) := by
  have hsome : ¬((ntfLetters.filter fun letter => flags &&& letter.1 ≠ 0).map Prod.snd).isEmpty = true := by
    intro hempty
    have hflags := ntf_flags flags
    rw [List.map_eq_nil_iff.mp (List.isEmpty_iff.mp hempty)] at hflags
    exact h hflags.symm
  rw [ntfFlagsLabel, if_neg h]
  exact if_neg hsome

theorem ntfFlagsLabel_ne {flags : UInt8} (h : flags ≠ 0) : ntfFlagsLabel flags ≠ "-" := by
  intro heq
  rw [ntfFlagsLabel_eq h] at heq
  have hdash : '-' ∈ (ntfLetters.filter fun letter => flags &&& letter.1 ≠ 0).map Prod.snd := by
    have hlist := congrArg String.toList heq
    rw [String.toList_ofList] at hlist
    rw [hlist]
    decide
  obtain ⟨letter, hletter, hsnd⟩ := List.mem_map.mp hdash
  have hno : ∀ letter ∈ ntfLetters, letter.2 ≠ '-' := by decide
  exact hno letter (List.mem_filter.mp hletter).1 hsnd

theorem ntfFlagsLabel_injective : Function.Injective ntfFlagsLabel := by
  intro flags flags' h
  by_cases hzero : flags = 0
  · by_cases hzero' : flags' = 0
    · rw [hzero, hzero']
    · rw [hzero] at h
      exact absurd h.symm (ntfFlagsLabel_ne hzero')
  · by_cases hzero' : flags' = 0
    · rw [hzero'] at h
      exact absurd h (ntfFlagsLabel_ne hzero)
    · rw [ntfFlagsLabel_eq hzero, ntfFlagsLabel_eq hzero'] at h
      have hinj : ∀ a ∈ ntfLetters, ∀ b ∈ ntfLetters, a.2 = b.2 → a = b := by decide
      have hsame := map_inj_of_mem
        (fun a ha b hb => hinj a (List.mem_filter.mp ha).1 b (List.mem_filter.mp hb).1)
        (String.ofList_injective h)
      rw [← ntf_flags flags, hsame, ntf_flags]

/-! ### What a snapshot tells -/

theorem orElse_inj {s t absent : String} (hs : s ≠ absent) (ht : t ≠ absent)
    (h : orElse s absent = orElse t absent) : s = t := by
  unfold orElse at h
  split_ifs at h with hempty hempty'
  · rw [hempty, hempty']
  · exact absurd h.symm ht
  · exact absurd h hs
  · exact h

theorem plain_orElse {s absent : String} (hs : Plain s) (habsent : Plain absent) :
    Plain (orElse s absent) := by
  unfold orElse
  split_ifs
  · exact habsent
  · exact hs

theorem plain_familyLabel (family : UInt8) : Plain (familyLabel family) := by
  unfold familyLabel
  split_ifs
  · decide
  · decide
  · decide
  · exact plain_nat family.toNat

theorem plain_protoLabel (proto : UInt8) : Plain (protoLabel proto) := by
  have hnames : ∀ name ∈ protoNames, Plain name.2 := by decide
  exact plain_labelOr hnames (fun proto => plain_nat proto.toNat) proto

theorem plain_scopeLabel (scope : UInt8) : Plain (scopeLabel scope) := by
  have hnames : ∀ name ∈ scopeNames, Plain name.2 := by decide
  exact plain_labelOr hnames (fun scope => plain_nat scope.toNat) scope

theorem plain_nudStateLabel (state : UInt16) : Plain (nudStateLabel state) := by
  have hnames : ∀ name ∈ nudNames, Plain name.2 := by decide
  have hprefix : Plain "0x" := by decide
  exact plain_labelOr hnames (fun state => hprefix.append (plain_hexText 2 state.toNat)) state

theorem plain_ntfFlagsLabel (flags : UInt8) : Plain (ntfFlagsLabel flags) := by
  by_cases hzero : flags = 0
  · rw [hzero]
    decide
  · have hno : ∀ letter ∈ ntfLetters, letter.2 ≠ ' ' ∧ letter.2 ≠ '\n' := by decide
    rw [ntfFlagsLabel_eq hzero, Plain, String.toList_ofList]
    constructor
    · intro hmem
      obtain ⟨letter, hletter, heq⟩ := List.mem_map.mp hmem
      exact (hno letter (List.mem_filter.mp hletter).1).1 heq
    · intro hmem
      obtain ⟨letter, hletter, heq⟩ := List.mem_map.mp hmem
      exact (hno letter (List.mem_filter.mp hletter).1).2 heq

/-- The texts of a route can be read back: none has a blank, and none is what stands for an absent one. -/
structure WatchRoute.Clean (r : WatchRoute) : Prop where
  dest : Plain r.dest
  gateway : Plain r.gateway ∧ r.gateway ≠ "(none)"
  iface : Plain r.iface ∧ r.iface ≠ "(none)"
  srmdId : Plain r.srmdId ∧ r.srmdId ≠ "(pending)"

/-- The texts of a neighbor can be read back. -/
structure NeighEntry.Clean (n : NeighEntry) : Prop where
  dst : Plain n.dst ∧ n.dst ≠ "(none)"
  mac : Plain n.mac ∧ n.mac ≠ ""
  ifname : Plain n.ifname ∧ n.ifname ≠ toString n.ifindex.toInt
  master_name : Plain n.master_name ∧ n.master_name ≠ "-"

def routeFieldNames : List String :=
  ["dest", "gw", "iface", "ifidx", "metric", "table", "proto", "family", "dst_len", "tos", "scope", "type",
    "flags", "id"]

def neighFieldNames : List String :=
  ["family", "dst", "mac", "iface", "ifidx", "state", "flags", "type", "confirmed_ms", "used_ms",
    "updated_ms", "refcnt", "probes", "vlan", "master", "master_name", "nh_ifindex", "proto"]

theorem WatchRoute.Clean.plainFields {r : WatchRoute} (h : r.Clean) : PlainFields r.fields := by
  have hnames : ∀ name ∈ routeFieldNames, Plain name := by decide
  have hprefix : Plain "0x" := by decide
  refine plainFields_of hnames ?_
  simp only [WatchRoute.fields, List.map_cons, List.map_nil, List.forall_mem_cons, List.not_mem_nil,
    false_imp_iff, implies_true, and_true]
  exact ⟨h.dest, plain_orElse h.gateway.1 (by decide), plain_orElse h.iface.1 (by decide), plain_nat _,
    plain_nat _, plain_nat _, plain_protoLabel _, plain_familyLabel _, plain_nat _, plain_nat _,
    plain_scopeLabel _, plain_nat _, hprefix.append (plain_hexText 8 _), plain_orElse h.srmdId.1 (by decide)⟩

theorem NeighEntry.Clean.plainFields {n : NeighEntry} (h : n.Clean) : PlainFields n.fields := by
  have hnames : ∀ name ∈ neighFieldNames, Plain name := by decide
  refine plainFields_of hnames ?_
  simp only [NeighEntry.fields, List.map_cons, List.map_nil, List.forall_mem_cons, List.not_mem_nil,
    false_imp_iff, implies_true, and_true]
  exact ⟨plain_familyLabel _, plain_orElse h.dst.1 (by decide), plain_orElse h.mac.1 (by decide),
    plain_orElse h.ifname.1 (plain_int _), plain_int _, plain_nudStateLabel _, plain_ntfFlagsLabel _,
    plain_nat _, plain_nat _, plain_nat _, plain_nat _, plain_nat _, plain_nat _, plain_nat _, plain_nat _,
    plain_orElse h.master_name.1 (by decide), plain_nat _, plain_protoLabel _⟩

theorem WatchRoute.fields_inj {r r' : WatchRoute} (hr : r.Clean) (hr' : r'.Clean) (h : r.fields = r'.fields) :
    r = r' := by
  simp only [WatchRoute.fields, List.cons.injEq, Prod.mk.injEq, true_and, and_true] at h
  obtain ⟨hdest, hgateway, hiface, hifindex, hmetric, htable, hproto, hfamily, hdst_len, htos, hscope, htype,
    hflags, hid⟩ := h
  have hgateway := orElse_inj hr.gateway.2 hr'.gateway.2 hgateway
  have hiface := orElse_inj hr.iface.2 hr'.iface.2 hiface
  have hid := orElse_inj hr.srmdId.2 hr'.srmdId.2 hid
  have hifindex := UInt32.toNat_inj.mp (natText_injective hifindex)
  have hmetric := UInt32.toNat_inj.mp (natText_injective hmetric)
  have htable := UInt32.toNat_inj.mp (natText_injective htable)
  have hdst_len := UInt8.toNat_inj.mp (natText_injective hdst_len)
  have htos := UInt8.toNat_inj.mp (natText_injective htos)
  have htype := UInt8.toNat_inj.mp (natText_injective htype)
  have hflags := UInt32.toNat_inj.mp (hexText_inj ((String.append_right_inj _).mp hflags))
  cases r
  cases r'
  rw [WatchRoute.mk.injEq]
  exact ⟨hdest, hgateway, hiface, hifindex, hmetric, htable, protoLabel_injective hproto, hid,
    familyLabel_injective hfamily, hdst_len, htos, scopeLabel_injective hscope, htype, hflags⟩

theorem NeighEntry.fields_inj {n n' : NeighEntry} (hn : n.Clean) (hn' : n'.Clean) (h : n.fields = n'.fields) :
    n = n' := by
  simp only [NeighEntry.fields, List.cons.injEq, Prod.mk.injEq, true_and, and_true] at h
  obtain ⟨hfamily, hdst, hmac, hifname, hifindex, hstate, hflags, htype, hconfirmed, hused, hupdated, hrefcnt,
    hprobes, hvlan, hmaster, hmaster_name, hnh_ifindex, hproto⟩ := h
  have hifindex := Int32.toInt_inj.mp (intText_injective hifindex)
  have hdst := orElse_inj hn.dst.2 hn'.dst.2 hdst
  have hmac : n.mac = n'.mac := by
    rw [orElse, orElse, if_neg hn.mac.2, if_neg hn'.mac.2] at hmac
    exact hmac
  -- the index stands for an absent name, and is the same in both
  have hifname : n.ifname = n'.ifname := by
    rw [← hifindex] at hifname
    exact orElse_inj hn.ifname.2 (hifindex ▸ hn'.ifname.2) hifname
  have hmaster_name := orElse_inj hn.master_name.2 hn'.master_name.2 hmaster_name
  have htype := UInt8.toNat_inj.mp (natText_injective htype)
  have hconfirmed := UInt32.toNat_inj.mp (natText_injective hconfirmed)
  have hused := UInt32.toNat_inj.mp (natText_injective hused)
  have hupdated := UInt32.toNat_inj.mp (natText_injective hupdated)
  have hrefcnt := UInt32.toNat_inj.mp (natText_injective hrefcnt)
  have hprobes := UInt32.toNat_inj.mp (natText_injective hprobes)
  have hvlan := UInt16.toNat_inj.mp (natText_injective hvlan)
  have hmaster := UInt32.toNat_inj.mp (natText_injective hmaster)
  have hnh_ifindex := UInt32.toNat_inj.mp (natText_injective hnh_ifindex)
  cases n
  cases n'
  rw [NeighEntry.mk.injEq]
  exact ⟨familyLabel_injective hfamily, hifindex, hifname, nudStateLabel_injective hstate,
    ntfFlagsLabel_injective hflags, htype, hdst, hmac, hconfirmed, hused, hupdated, hrefcnt, hprobes, hvlan,
    hmaster, hmaster_name, hnh_ifindex, protoLabel_injective hproto⟩

/-! ### The tables that the callbacks fill -/

/-- Interface names and IPv6 texts can be read back: no interface is named by a number, `-` or `(none)`. -/
structure Libc.Readable (libc : Libc) : Prop where
  name : ∀ index name, libc.if_indextoname index = some name →
    Plain name ∧ name ≠ "-" ∧ name ≠ "(none)" ∧ ∀ i : ℤ, name ≠ toString i
  addr : ∀ addr, Plain (libc.inet_ntop6 addr) ∧ libc.inet_ntop6 addr ≠ "(none)"

/-- A text that is empty or the name of an interface. -/
def Libc.Names (libc : Libc) (text : String) : Prop :=
  text = "" ∨ ∃ index, libc.if_indextoname index = some text

section Filled

variable {libc : Libc}

theorem Libc.Readable.text (h : libc.Readable) {text : String} (hname : libc.Names text) :
    Plain text ∧ text ≠ "-" ∧ text ≠ "(none)" ∧ ∀ i : ℤ, text ≠ toString i := by
  rcases hname with rfl | ⟨index, hindex⟩
  · refine ⟨by decide, by decide, by decide, fun i hi => ?_⟩
    rcases i with n | n
    · have hnil : (toString n).toList = [] := congrArg String.toList (show toString n = "" from hi.symm)
      simp at hnil
    · have hlen := congrArg String.length hi
      rw [show toString (Int.negSucc n) = "-" ++ toString (n + 1) from rfl, String.length_append] at hlen
      have hone : "-".length = 1 := rfl
      have hempty : "".length = 0 := rfl
      omega
  · exact h.name index text hindex

theorem names_nameOf (index : UInt32) : libc.Names (nameOf libc index "") := by
  unfold nameOf
  split_ifs
  · cases hname : libc.if_indextoname index with
    | none => exact .inl rfl
    | some name => exact .inr ⟨index, hname⟩
  · exact .inl rfl

theorem plain_inetNtop (addr : Ipv4Addr) : Plain (inetNtop addr) ∧ inetNtop addr ≠ "(none)" := by
  have hno : ∀ c : Char, c ≠ '.' → c.isDigit = false → c ∉ (inetNtop addr).toList := by
    intro c hdot hdigit hmem
    rcases mem_inetNtop hmem with hc | hc
    · rw [hdigit] at hc
      cases hc
    · exact hdot hc
  refine ⟨⟨hno ' ' (by decide) (by decide), hno '\n' (by decide) (by decide)⟩, fun h => ?_⟩
  exact hno '(' (by decide) (by decide) (h ▸ by decide)

theorem plain_inetNtop6 (addr : Block UInt8 16) : Plain (inetNtop6 addr) ∧ inetNtop6 addr ≠ "(none)" := by
  have hno : ∀ c : Char, hexVal c = none → c ≠ '.' → c ≠ ':' → c ∉ (inetNtop6 addr).toList := by
    intro c hhex hdot hcolon hmem
    rcases mem_inetNtop6 hmem with hc | hc | hc
    · rw [hhex] at hc
      cases hc
    · exact hdot hc
    · exact hcolon hc
  refine ⟨⟨hno ' ' ?_ ?_ ?_, hno '\n' ?_ ?_ ?_⟩, fun h => hno '(' ?_ ?_ ?_ (h ▸ ?_)⟩ <;> decide

theorem plain_formatMac (lladdr : List UInt8) : Plain (formatMac lladdr) ∧ formatMac lladdr ≠ "" := by
  have hbyte : ∀ byte : UInt8, Plain (hexByte byte) ∧ (hexByte byte).toList ≠ [] := by
    have hall : ∀ n : Fin 256, Plain (hexByte (UInt8.ofNat n)) ∧ (hexByte (UInt8.ofNat n)).toList ≠ [] := by
      decide +kernel
    intro byte
    simpa using hall ⟨byte.toNat, byte.toNat_lt⟩
  cases lladdr with
  | nil => exact ⟨by decide, by decide⟩
  | cons byte bytes =>
    have hlist : (formatMac (byte :: bytes)).toList =
        [':'].intercalate (((byte :: bytes).map hexByte).map String.toList) := by
      rw [formatMac, if_neg (by simp), String.toList_intercalate]
      rfl
    have hno : ∀ c : Char, c ≠ ':' → (∀ byte, c ∉ (hexByte byte).toList) →
        c ∉ (formatMac (byte :: bytes)).toList := by
      intro c hcolon hhex hmem
      rw [hlist] at hmem
      rcases mem_intercalate hmem with hmem | ⟨part, hpart, hmem⟩
      · exact hcolon (List.mem_singleton.mp hmem)
      · obtain ⟨text, htext, rfl⟩ := List.mem_map.mp hpart
        obtain ⟨b, -, rfl⟩ := List.mem_map.mp htext
        exact hhex b hmem
    refine ⟨⟨hno ' ' (by decide) fun b => (hbyte b).1.1, hno '\n' (by decide) fun b => (hbyte b).1.2⟩, ?_⟩
    intro h
    rw [h] at hlist
    have hfirst := (hbyte byte).2
    cases bytes with
    | nil => exact hfirst (by simpa using hlist.symm)
    | cons next bytes =>
      simp only [List.map_cons, List.intercalate_cons_cons] at hlist
      exact hfirst (List.append_eq_nil_iff.mp (List.append_eq_nil_iff.mp hlist.symm).1).1

/-- A row whose interface name is one of the system has texts that can be read back. -/
theorem NetlinkRoute32.row_clean (h : libc.Readable) {route : NetlinkRoute32}
    (hname : libc.Names route.ifname) {srmdId : String} (hid : Plain srmdId ∧ srmdId ≠ "(pending)") :
    (route.row srmdId).Clean where
  dest := ((plain_inetNtop _).1.append (by decide)).append (plain_nat _)
  gateway := by
    show Plain route.gatewayText ∧ route.gatewayText ≠ "(none)"
    unfold NetlinkRoute32.gatewayText
    split_ifs
    · decide
    · exact plain_inetNtop _
  iface := ⟨(h.text hname).1, (h.text hname).2.2.1⟩
  srmdId := hid

theorem dispatchAddr_text (h : libc.Readable) {family : UInt8} {a : RtAttr} {text text' : String}
    (htext : Plain text ∧ text ≠ "(none)") (hok : dispatchAddr libc family a text = .ok text') :
    Plain text' ∧ text' ≠ "(none)" := by
  unfold dispatchAddr at hok
  split_ifs at hok with h4 h6
  · obtain ⟨addr, haddr⟩ := word_ok h4.2
    rw [haddr] at hok
    obtain rfl := Except.ok.inj hok
    exact plain_inetNtop addr
  · rw [Reader.block, dif_pos h6.2] at hok
    obtain rfl := Except.ok.inj hok
    exact h.addr _
  · obtain rfl := Except.ok.inj hok
    exact htext

/-- The row of a message has texts that can be read back. -/
theorem NeighMessage.row_clean (h : libc.Readable) (m : NeighMessage) : (m.row libc).Clean where
  dst := by
    show (fun text => Plain text ∧ text ≠ "(none)")
      (attrValue m.attrs NDA_DST 0 (dispatchAddr libc m.ndm.ndm_family · "") "")
    rw [attrValue]
    split
    next a _ =>
      obtain ⟨text, htext⟩ := dispatchAddr_ok libc m.ndm.ndm_family a ""
      rw [if_pos (Nat.zero_le _), htext]
      exact dispatchAddr_text h (by decide) htext
    next => decide
  mac := plain_formatMac _
  ifname := by
    have hname : libc.Names (m.ndm.neigh libc m.attrs).ifname := by
      show libc.Names (if _ then _ else _)
      split_ifs
      · cases hname : libc.if_indextoname m.ndm.ndm_ifindex with
        | none => exact .inl rfl
        | some name => exact .inr ⟨_, hname⟩
      · exact .inl rfl
    exact ⟨(h.text hname).1, (h.text hname).2.2.2 _⟩
  master_name := by
    have hname : libc.Names (m.ndm.neigh libc m.attrs).master_name := by
      show libc.Names (attrValue m.attrs NDA_MASTER 4 (fun a => (nameOf libc · "") <$> u32At a.data 0) "")
      rw [attrValue]
      split
      next a _ =>
        split_ifs with hlen
        · obtain ⟨master, hmaster⟩ := u32At_ok a.data (i := 0) hlen
          rw [hmaster]
          exact names_nameOf master
        · exact .inl rfl
      next => exact .inl rfl
    exact ⟨(h.text hname).1, (h.text hname).2.1⟩

/-- What holds of the row holds of the rows after an update. -/
theorem updateTable_rows {ρ κ : Type} {key : ρ → κ} [DecidableEq κ] {P : ρ → Prop} {m : Keyed key} {row : ρ}
    (event : NetlinkEvent) (hrow : P row) (h : ∀ r ∈ m.rows, P r) :
    ∀ r ∈ (updateTable event row m).rows, P r := by
  have hput : ∀ r ∈ (m.put row).rows, P r := by
    intro r hr
    rcases Keyed.mem_put.mp hr with rfl | ⟨hr, -⟩
    · exact hrow
    · exact h r hr
  cases event with
  | REMOVED => exact fun r hr => h r (Keyed.mem_erase.mp hr).1
  | ADDED => exact hput
  | CHANGED => exact hput

/-- The neighbors that messages have made. -/
theorem neighRun_clean (h : libc.Readable) {ms : List NeighMessage} {neighbors : Neighbors}
    (hrun : run (neighStep libc) .empty ms = some neighbors) : ∀ n ∈ neighbors.rows, n.Clean := by
  have hstep : ∀ (t : Neighbors) (m : NeighMessage) (t' : Neighbors), (∀ n ∈ t.rows, n.Clean) →
      neighStep libc t m = some t' → ∀ n ∈ t'.rows, n.Clean := by
    intro t m t' ht hstep
    rw [neighStep_eq] at hstep
    obtain rfl := Option.some.inj hstep
    exact updateTable_rows m.event (m.row_clean h) ht
  exact run_preserves hstep (fun n hn => absurd hn List.not_mem_nil) hrun

end Filled

/-! ### Where the rows of a route table come from -/

section Listed

variable {libc : Libc} (h : libc.Readable)

include h

theorem addrToString_text {addr : List UInt8} {family : UInt8} {text : String}
    (hok : addrToString libc addr family = .ok text) : Plain text ∧ text ≠ "(none)" := by
  unfold addrToString at hok
  split_ifs at hok
  · obtain ⟨b, -, rfl⟩ := except_map_ok.mp hok
    exact plain_inetNtop b
  · obtain ⟨r, -, rfl⟩ := except_map_ok.mp hok
    exact h.addr r.1
  · obtain rfl := Except.ok.inj hok
    decide

/-- The texts of a route that is listed. -/
structure KernelRoute.Clean (libc : Libc) (kr : KernelRoute) : Prop where
  destination : Plain kr.destination
  gateway : Plain kr.gateway ∧ kr.gateway ≠ "(none)"
  interfaceName : libc.Names kr.interfaceName

omit h in
theorem names_ifIndexToName (index : UInt32) : libc.Names (ifIndexToName libc index) := by
  cases hname : libc.if_indextoname index with
  | none => exact .inl (by rw [ifIndexToName, hname]; rfl)
  | some name => exact .inr ⟨index, by rw [ifIndexToName, hname]; rfl⟩

theorem listNexthop_text {family : UInt8} {rtnh : RtNexthop} {nh : String × UInt32}
    (hok : listNexthop libc family rtnh = .ok nh) : Plain nh.1 ∧ nh.1 ≠ "(none)" := by
  obtain ⟨inner, -, hok⟩ := except_bind_ok.mp hok
  obtain ⟨nhGw, hgw, hnh⟩ := except_bind_ok.mp hok
  obtain rfl := except_pure_ok.mp hnh
  refine foldlM_keeps (fun text => Plain text ∧ text ≠ "(none)") (fun a _ text text' htext hstep => ?_)
    (by decide) hgw
  unfold listGateway at hstep
  split_ifs at hstep
  · exact addrToString_text h hstep
  · exact except_pure_ok.mp hstep ▸ htext

/-- The texts that the handler has gathered. -/
structure ListLocals.Clean (libc : Libc) (l : ListLocals) : Prop where
  route : l.route.Clean libc
  nexthops : ∀ nh ∈ l.nexthops, Plain nh.1 ∧ nh.1 ≠ "(none)"

theorem listAttr_clean {a : RtAttr} {l l' : ListLocals} (hl : l.Clean libc)
    (hok : listAttr libc l a = .ok l') : l'.Clean libc := by
  obtain ⟨⟨hdest, hgateway, hname⟩, hnexthops⟩ := hl
  unfold listAttr at hok
  split_ifs at hok
  · obtain ⟨addr, haddr, hl'⟩ := except_bind_ok.mp hok
    obtain rfl := except_pure_ok.mp hl'
    exact ⟨⟨((addrToString_text h haddr).1.append (by decide)).append (plain_nat _), hgateway, hname⟩, hnexthops⟩
  · obtain ⟨gateway, htext, hl'⟩ := except_bind_ok.mp hok
    obtain rfl := except_pure_ok.mp hl'
    exact ⟨⟨hdest, addrToString_text h htext, hname⟩, hnexthops⟩
  · obtain ⟨oif, -, hl'⟩ := except_bind_ok.mp hok
    obtain rfl := except_pure_ok.mp hl'
    exact ⟨⟨hdest, hgateway, names_ifIndexToName oif⟩, hnexthops⟩
  · obtain ⟨prio, -, hl'⟩ := except_bind_ok.mp hok
    obtain rfl := except_pure_ok.mp hl'
    exact ⟨⟨hdest, hgateway, hname⟩, hnexthops⟩
  · obtain ⟨tbl, -, hl'⟩ := except_bind_ok.mp hok
    obtain rfl := except_pure_ok.mp hl'
    exact ⟨⟨hdest, hgateway, hname⟩, hnexthops⟩
  · obtain ⟨records, -, hok⟩ := except_bind_ok.mp hok
    obtain ⟨nexthops, hmap, hl'⟩ := except_bind_ok.mp hok
    obtain rfl := except_pure_ok.mp hl'
    refine ⟨⟨hdest, hgateway, hname⟩, List.forall_mem_append.mpr ⟨hnexthops, fun nh hnh => ?_⟩⟩
    obtain ⟨i, hi, rfl⟩ := List.getElem_of_mem hnh
    have hpairs := mapM_ok.mp hmap
    exact listNexthop_text h (hpairs.get (hpairs.length_eq ▸ hi) hi)
  · exact except_pure_ok.mp hok ▸ ⟨⟨hdest, hgateway, hname⟩, hnexthops⟩

/-- A route that `RoutingManager::listRoutes` lists has texts that can be read back. -/
theorem listRoutes_clean {msg : RtMessage} {table : UInt32} {routes : List KernelRoute}
    (hok : msg.listRoutes libc table = .ok routes) : ∀ kr ∈ routes, kr.Clean libc := by
  unfold RtMessage.listRoutes at hok
  split_ifs at hok
  · obtain rfl := except_pure_ok.mp hok
    exact fun kr hkr => absurd hkr List.not_mem_nil
  obtain ⟨attrs, -, hok⟩ := except_bind_ok.mp hok
  obtain ⟨l, hfold, hroutes⟩ := except_bind_ok.mp hok
  obtain rfl := except_pure_ok.mp hroutes
  have hnone : Plain "" ∧ "" ≠ "(none)" := by decide
  have hl : l.Clean libc := foldlM_keeps (ListLocals.Clean libc)
    (fun a _ s s' hs hstep => listAttr_clean h hs hstep)
    ⟨⟨hnone.1, hnone, .inl rfl⟩, fun nh hnh => absurd hnh List.not_mem_nil⟩ hfold
  have hdefault : Plain (if l.route.family = AF_INET6 then "::/0" else "0.0.0.0/0") := by
    split_ifs <;> decide
  have hfirst : (if l.hasDst then l.route else
      { l.route with destination := if l.route.family = AF_INET6 then "::/0" else "0.0.0.0/0" }).Clean libc := by
    cases l.hasDst
    · exact ⟨hdefault, hl.route.gateway, hl.route.interfaceName⟩
    · exact hl.route
  intro kr hkr
  obtain ⟨hkr, -⟩ := List.mem_filter.mp hkr
  split at hkr
  · exact List.mem_singleton.mp hkr ▸ hfirst
  · obtain ⟨nh, hnh, rfl⟩ := List.mem_map.mp hkr
    exact ⟨hfirst.destination, hl.nexthops nh hnh, names_ifIndexToName nh.2⟩

theorem KernelRoute.Clean.row {kr : KernelRoute} (hkr : kr.Clean libc) {id : String}
    (hid : Plain id ∧ id ≠ "(pending)") : (kr.row id).Clean where
  dest := hkr.destination
  gateway := hkr.gateway
  iface := ⟨(h.text hkr.interfaceName).1, (h.text hkr.interfaceName).2.2.1⟩
  srmdId := hid

omit h in
theorem dispatchWord_names {a : RtAttr} {route route' : NetlinkRoute32} {copy : Block UInt8 4 → NetlinkRoute32}
    (hok : dispatchWord a route copy = .ok route') (hroute : libc.Names route.ifname)
    (hcopy : ∀ b, libc.Names (copy b).ifname) : libc.Names route'.ifname := by
  unfold dispatchWord at hok
  split_ifs at hok
  · obtain ⟨b, -, rfl⟩ := except_map_ok.mp hok
    exact hcopy b
  · exact except_pure_ok.mp hok ▸ hroute

omit h in
/-- The interface of a route that `nl_dispatch` reads is one of the system. -/
theorem nlDispatch_names {msg : RtMessage} {event : NetlinkEvent} {route : NetlinkRoute32}
    (hok : msg.nlDispatch libc = .ok (some (event, route))) : libc.Names route.ifname := by
  unfold RtMessage.nlDispatch at hok
  split_ifs at hok
  · cases hok
  · cases hok
  · cases hok
  cases hevent : msg.event with
  | none => rw [hevent] at hok; cases hok
  | some ev =>
    rw [hevent] at hok
    obtain ⟨attrs, -, hok⟩ := except_bind_ok.mp hok
    obtain ⟨read, hfold, hread⟩ := except_bind_ok.mp hok
    obtain ⟨-, rfl⟩ := Prod.mk.injEq _ _ _ _ ▸ Option.some.inj (except_pure_ok.mp hread)
    refine foldlM_keeps (fun r : NetlinkRoute32 => libc.Names r.ifname) (fun a _ s s' hs hstep => ?_)
      (.inl rfl) hfold
    unfold dispatchAttr at hstep
    split_ifs at hstep
    · exact dispatchWord_names hstep hs fun _ => hs
    · exact dispatchWord_names hstep hs fun _ => hs
    · refine dispatchWord_names hstep hs fun b => ?_
      cases hname : libc.if_indextoname (wordU32 b) with
      | none => exact hs
      | some name => exact .inr ⟨_, hname⟩
    · exact dispatchWord_names hstep hs fun _ => hs
    · exact dispatchWord_names hstep hs fun _ => hs
    · exact except_pure_ok.mp hstep ▸ hs

end Listed

/-- An id of the server that a line can be read back with. -/
def PlainId (id : String) : Prop := Plain id ∧ id ≠ "(pending)"

/-- The route tables that the client publishes: rows of listed routes, with the id of the server or none, and
what the callback of the startup or that of the watch command makes of a live message. -/
inductive Published (libc : Libc) : WatchRoutes → Prop where
  | empty : Published libc .empty
  | listed {routes : WatchRoutes} {msg : RtMessage} {table : UInt32} {krs : List KernelRoute} {kr : KernelRoute}
      {id : String} : Published libc routes → msg.listRoutes libc table = .ok krs → kr ∈ krs → PlainId id →
      Published libc (routes.put (kr.row id))
  | startup {routes : WatchRoutes} {msg : RtMessage} {event : NetlinkEvent} {route : NetlinkRoute32} :
      Published libc routes → msg.nlDispatch libc = .ok (some (event, route)) →
      Published libc (startupRouteLiveCb event route routes)
  | watch {routes : WatchRoutes} {msg : RtMessage} {event : NetlinkEvent} {route : NetlinkRoute32}
      {answers : Answers} : Published libc routes → msg.nlDispatch libc = .ok (some (event, route)) →
      (∀ id ∈ answers.added, PlainId id) → Published libc (nlWatchCb answers routes event route).1

theorem put_clean {routes : WatchRoutes} {row : WatchRoute} (hrow : row.Clean)
    (hroutes : ∀ r ∈ routes.rows, r.Clean) : ∀ r ∈ (routes.put row).rows, r.Clean :=
  updateTable_rows .ADDED hrow hroutes

theorem Published.clean {libc : Libc} (h : libc.Readable) {routes : WatchRoutes} (hp : Published libc routes) :
    ∀ r ∈ routes.rows, r.Clean := by
  induction hp with
  | empty => exact fun r hr => absurd hr List.not_mem_nil
  | listed _ hlist hkr hid ih => exact put_clean ((listRoutes_clean h hlist _ hkr).row h hid) ih
  | @startup routes msg event route _ hmsg ih =>
    exact updateTable_rows event (route.row_clean h (nlDispatch_names hmsg) (by decide)) ih
  | @watch routes msg event route answers _ hmsg hids ih =>
    have hid : PlainId (answers.added.getD "") := by
      cases hadded : answers.added with
      | none => exact ⟨by decide, by decide⟩
      | some id => exact hids id hadded
    have hrow := route.row_clean h (nlDispatch_names hmsg) hid
    unfold nlWatchCb
    split_ifs
    · cases event with
      | ADDED => exact put_clean hrow ih
      | CHANGED => exact put_clean hrow fun r hr => ih r (Keyed.mem_eraseIf.mp hr).1
      | REMOVED =>
        dsimp only
        split
        · exact ih
        · exact fun r hr => ih r (Keyed.mem_erase.mp hr).1
    · exact ih

/-- **A subscriber can tell the routes and the neighbors from the snapshots**, where no interface is named by a
number, `-` or `(none)`: however the tables came about, two snapshots are alike exactly when they are of tables
with the same rows. -/
theorem snapshots_determine {libc : Libc} (h : libc.Readable) :
    (∀ routes routes' : WatchRoutes, Published libc routes → Published libc routes' →
      (serializeRouteTable routes = serializeRouteTable routes' ↔ routes.rows.Perm routes'.rows)) ∧
    ∀ (ms ms' : List NeighMessage) (neighbors neighbors' : Neighbors),
      run (neighStep libc) .empty ms = some neighbors → run (neighStep libc) .empty ms' = some neighbors' →
        (serializeNeighborTable neighbors = serializeNeighborTable neighbors' ↔
          neighbors.rows.Perm neighbors'.rows) := by
  have hheading : ∀ {s : String}, '\n' ∉ s.toList → ∀ n : ℕ, '\n' ∉ (s ++ toString n).toList := by
    intro s hs n
    rw [String.toList_append, List.mem_append]
    exact not_or.mpr ⟨hs, (plain_nat n).2⟩
  have hroute : ∀ r : WatchRoute, r.fields.map Prod.fst = routeFieldNames := fun _ => rfl
  have hneigh : ∀ n : NeighEntry, n.fields.map Prod.fst = neighFieldNames := fun _ => rfl
  refine ⟨fun routes routes' hroutes hroutes' => ?_, fun ms ms' neighbors neighbors' hrun hrun' => ?_⟩
  · exact table_text_inj Function.injective_id WatchRoute.Clean (hheading (by decide))
      (fun _ => (·.plainFields)) hroute (fun _ _ => WatchRoute.fields_inj) (hroutes.clean h) (hroutes'.clean h)
  · exact table_text_inj Function.injective_id NeighEntry.Clean (hheading (by decide))
      (fun _ => (·.plainFields)) hneigh (fun _ _ => NeighEntry.fields_inj)
      (neighRun_clean h hrun) (neighRun_clean h hrun')

/-- A host route on interface 2. -/
def oneHostRoute : NetlinkRoute32 where
  family := AF_INET
  dst_len := 32
  tos := 0
  scope := 0
  type := RTN_UNICAST
  flags := 0
  protocol := RTPROT_OSPF
  table := 254
  dst := ipv4 10 0 0 1
  gateway := anyAddr
  ifindex := 2
  ifname := "eth0"
  metric := 20

theorem oneInterface_readable : oneInterface.Readable := by
  have hname : ∀ i : ℤ, "eth0" ≠ toString i := by
    intro i hi
    have hnat : ∀ n : ℕ, toString n ≠ "eth0" := natText_ne (c := 'e') (by decide) (by decide)
    rcases i with n | n
    · exact hnat n hi.symm
    · have hfirst := congrArg (fun s : String => s.toList.head?) hi
      rw [show toString (Int.negSucc n) = "-" ++ toString (n + 1) from rfl] at hfirst
      simp at hfirst
  refine ⟨fun index name h => ?_, plain_inetNtop6⟩
  rw [oneInterface] at h
  dsimp only at h
  split_ifs at h
  obtain rfl := Option.some.inj h
  exact ⟨by decide, by decide, by decide, hname⟩

/-- The message about it. -/
def oneHostMessage : RtMessage where
  nlmsg_type := RTM_NEWROUTE
  nlmsg_flags := 0
  rtm_family := AF_INET
  rtm_dst_len := 32
  rtm_tos := 0
  rtm_table := 254
  rtm_protocol := RTPROT_OSPF
  rtm_scope := 0
  rtm_type := RTN_UNICAST
  rtm_flags := 0
  attrs := [8, 0, 1, 0, 10, 0, 0, 1] ++ [8, 0, 4, 0, 2, 0, 0, 0] ++ [8, 0, 6, 0, 20, 0, 0, 0]

theorem oneHostMessage_read :
    oneHostMessage.nlDispatch oneInterface = .ok (some (.ADDED, oneHostRoute)) := rfl

/-- The tables of the startup and of the watch command differ in the id of the server. -/
theorem snapshots_determine_oneInterface :
    (serializeRouteTable (startupRouteLiveCb .ADDED oneHostRoute .empty) =
        serializeRouteTable (nlWatchCb ⟨some "srmd-1", []⟩ .empty .ADDED oneHostRoute).1 ↔
      (startupRouteLiveCb .ADDED oneHostRoute .empty).rows.Perm
        (nlWatchCb ⟨some "srmd-1", []⟩ .empty .ADDED oneHostRoute).1.rows) ∧
    (serializeNeighborTable (updateTable .ADDED ((fdbMessage 1).row oneInterface) .empty) =
        serializeNeighborTable .empty ↔
      (updateTable .ADDED ((fdbMessage 1).row oneInterface) .empty : Neighbors).rows.Perm []) := by
  obtain ⟨hroutes, hneighbors⟩ := snapshots_determine oneInterface_readable
  refine ⟨hroutes _ _ (.startup .empty oneHostMessage_read) (.watch .empty oneHostMessage_read ?_),
    hneighbors [fdbMessage 1] [] _ _ ?_ rfl⟩
  · rintro id ⟨⟩
    exact ⟨by decide, by decide⟩
  · exact run_cons.mpr ⟨_, neighStep_eq _ _, rfl⟩

end Rtsrv.Client
