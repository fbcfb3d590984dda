import Rtsrv.Client.RouteTable
import Rtsrv.Lib.Run

/-!
# Rtsrv.Client.NlWatch — pushing kernel routes to the server (`nlWatchCb`)

For each OSPF event the callback changes the client's table and calls the server.  The ledger of ids
that these calls leave on the server is compared with the ids that the rows of the table hold: dropping
rows together with their server routes keeps the two in step, and putting a row does so unless it
overwrites one that has an id.
-/

namespace Rtsrv.Client

open Lib CmdProto Server

/-- A call to the server with its outcome. -/
inductive RpcCall where
  | addRoute (req : AddRouteRequest) (id : Option String)
  | removeRoute (id : String) (ok : Bool)
  deriving DecidableEq, Repr

/-- What the server answers while one event is handled: the id of the added route, if it adds it, and
the ids that it refuses to remove. -/
structure Answers where
  added : Option String
  refused : List String
  deriving DecidableEq, Repr

def Answers.removeRoute (answers : Answers) (id : String) : RpcCall :=
  .removeRoute id (decide (id ∉ answers.refused))

def NetlinkRoute32.addRequest (route : NetlinkRoute32) : AddRouteRequest where
  address_family := .IPV4
  destination := route.destText
  gateway := route.gatewayText
  interface_name := route.ifname
  metric := route.metric
  protocol := mapRtProtocol route.protocol
  tags := []

/-- The server ids of some rows. -/
def idsOf (rows : List WatchRoute) : List String := (rows.map WatchRoute.srmdId).filter (· ≠ "")

/-- The table after one event, and the calls that were made. -/
def nlWatchCb (answers : Answers) (routes : WatchRoutes) (event : NetlinkEvent)
    (route : NetlinkRoute32) : WatchRoutes × List RpcCall :=
  if mapRtProtocol route.protocol = .OSPF then
    let addRoute := RpcCall.addRoute route.addRequest answers.added
    let row := route.row (answers.added.getD "")
    match event with
    | .ADDED => (routes.put row, [addRoute])
    | .CHANGED =>
      -- every row of the destination goes, whatever its gateway
      let stale := fun r : WatchRoute => decide (r.dest = route.destText)
      ((routes.eraseIf stale).put row,
        (idsOf (routes.rows.filter stale)).map answers.removeRoute ++ [addRoute])
    | .REMOVED =>
      match routes.find row.key with
      | none => (routes, [])
      | some r => (routes.erase row.key, (idsOf [r]).map answers.removeRoute)
  else (routes, [])

/-! ### The table and the server -/

/-- The client's table, and the ids of the routes that it has added to the server and not removed. -/
structure WatchState where
  routes : WatchRoutes
  owned : List String

/-- An event, as it is delivered to the callback. -/
structure Delivery where
  event : NetlinkEvent
  route : NetlinkRoute32
  answers : Answers
  deriving DecidableEq, Repr

def RpcCall.record (owned : List String) : RpcCall → List String
  | .addRoute _ (some id) => id :: owned
  | .addRoute _ none => owned
  | .removeRoute id true => owned.filter (· ≠ id)
  | .removeRoute _ false => owned

def watchEvent (s : WatchState) (d : Delivery) : Option WatchState :=
  let (routes, calls) := nlWatchCb d.answers s.routes d.event d.route
  some ⟨routes, calls.foldl RpcCall.record s.owned⟩

/-- No tracked routes, nothing added. -/
def WatchState.initial : WatchState := ⟨.empty, []⟩

/-! ### Ids held by the table and ids owned on the server -/

variable {routes : WatchRoutes} {owned owned' : List String}

theorem mem_idsOf {rows : List WatchRoute} {id : String} :
    id ∈ idsOf rows ↔ id ≠ "" ∧ ∃ row ∈ rows, row.srmdId = id := by
  unfold idsOf
  rw [List.mem_filter, List.mem_map, decide_eq_true_iff]
  exact and_comm

theorem idsOf_sublist {rows rows' : List WatchRoute} (h : rows.Sublist rows') :
    (idsOf rows).Sublist (idsOf rows') := (h.map _).filter _

theorem mem_idsOf_eraseIf {gone : WatchRoute → Bool} {id : String}
    (h : id ∈ idsOf (routes.eraseIf gone).rows) : id ∈ idsOf routes.rows :=
  (idsOf_sublist List.filter_sublist).subset h

/-- What holds of the two sides after every event: no id is held twice, held ids are owned, and the
destinations are texts of addresses. -/
structure Held (routes : WatchRoutes) (owned : List String) : Prop where
  once : (idsOf routes.rows).Nodup
  owned : ∀ id ∈ idsOf routes.rows, id ∈ owned
  dests : ∀ row ∈ routes.rows, Unbarred row.dest

/-- Nothing on the server has been forgotten. -/
def Complete (routes : WatchRoutes) (owned : List String) : Prop :=
  ∀ id ∈ owned, id ∈ idsOf routes.rows

/-- Two rows do not hold the same id. -/
theorem Held.row_inj (h : Held routes owned) {v w : WatchRoute} (hv : v ∈ routes.rows)
    (hw : w ∈ routes.rows) (hne : v.srmdId ≠ "") (heq : v.srmdId = w.srmdId) : v = w := by
  have hids : idsOf routes.rows = (routes.rows.filter (·.srmdId ≠ "")).map WatchRoute.srmdId := by
    unfold idsOf
    rw [List.filter_map]
    rfl
  have hn := h.once
  rw [hids] at hn
  have hmem : ∀ {r : WatchRoute}, r ∈ routes.rows → r.srmdId ≠ "" →
      r ∈ routes.rows.filter (·.srmdId ≠ "") := fun hr hi =>
    List.mem_filter.mpr ⟨hr, decide_eq_true hi⟩
  exact List.inj_on_of_nodup_map hn (hmem hv hne) (hmem hw (heq ▸ hne)) heq

/-- **Dropping rows**: where the ids of the dropped rows leave the server too, nothing is forgotten that
was not forgotten before. -/
theorem Held.drop (h : Held routes owned) (gone : WatchRoute → Bool)
    (howned : ∀ id, id ∈ owned' ↔ id ∈ owned ∧ id ∉ idsOf (routes.rows.filter gone)) :
    Held (routes.eraseIf gone) owned' ∧
      (Complete (routes.eraseIf gone) owned' ↔ Complete routes owned) := by
  have hkept : ∀ id ∈ idsOf (routes.eraseIf gone).rows, id ∉ idsOf (routes.rows.filter gone) := by
    intro id hid hgone
    obtain ⟨hne, v, hv, rfl⟩ := mem_idsOf.mp hid
    obtain ⟨-, w, hw, heq⟩ := mem_idsOf.mp hgone
    obtain ⟨hv, hvg⟩ := Keyed.mem_eraseIf.mp hv
    obtain ⟨hw, hwg⟩ := List.mem_filter.mp hw
    rw [h.row_inj hv hw hne heq.symm, hwg] at hvg
    cases hvg
  refine ⟨⟨h.once.sublist (idsOf_sublist List.filter_sublist), fun id hid => ?_, fun row hrow => ?_⟩,
    fun hc id hid => ?_, fun hc id hid => ?_⟩
  · exact (howned id).mpr ⟨h.owned id (mem_idsOf_eraseIf hid), hkept id hid⟩
  · exact h.dests row (Keyed.mem_eraseIf.mp hrow).1
  · by_cases hgone : id ∈ idsOf (routes.rows.filter gone)
    · exact (idsOf_sublist List.filter_sublist).subset hgone
    · exact mem_idsOf_eraseIf (hc id ((howned id).mpr ⟨hid, hgone⟩))
  · obtain ⟨hid, hgone⟩ := (howned id).mp hid
    obtain ⟨hne, row, hrow, rfl⟩ := mem_idsOf.mp (hc id hid)
    refine mem_idsOf.mpr ⟨hne, row, Keyed.mem_eraseIf.mpr ⟨hrow, ?_⟩, rfl⟩
    by_contra hg
    exact hgone (mem_idsOf.mpr
      ⟨hne, row, List.mem_filter.mpr ⟨hrow, Bool.eq_true_of_not_eq_false hg⟩, rfl⟩)

/-- **Putting a row** with a new id, or without one: a row of the same key that has an id is forgotten. -/
theorem Held.put (h : Held routes owned) {row : WatchRoute} (hdest : Unbarred row.dest)
    (hfresh : row.srmdId ≠ "" → row.srmdId ∉ owned)
    (howned : ∀ id, id ∈ owned' ↔ id ≠ "" ∧ id = row.srmdId ∨ id ∈ owned) :
    Held (routes.put row) owned' ∧
      (Complete (routes.put row) owned' ↔
        Complete routes owned ∧ ∀ r ∈ routes.rows, r.key = row.key → r.srmdId = "") := by
  have hput : ∀ id, id ∈ idsOf (routes.put row).rows ↔
      id ≠ "" ∧ id = row.srmdId ∨ id ≠ "" ∧ ∃ r ∈ routes.rows, r.key ≠ row.key ∧ r.srmdId = id := by
    intro id
    rw [mem_idsOf, ← and_or_left]
    refine and_congr_right fun _ => ⟨fun ⟨r, hr, hid⟩ => ?_, fun hor => ?_⟩
    · rcases Keyed.mem_put.mp hr with rfl | ⟨hr, hk⟩
      · exact .inl hid.symm
      · exact .inr ⟨r, hr, hk, hid⟩
    · rcases hor with heq | ⟨r, hr, hk, hid⟩
      · exact ⟨row, Keyed.mem_put.mpr (.inl rfl), heq.symm⟩
      · exact ⟨r, Keyed.mem_put.mpr (.inr ⟨hr, hk⟩), hid⟩
  refine ⟨⟨?_, fun id hid => ?_, fun r hr => ?_⟩, fun hc => ⟨fun id hid => ?_, fun r hr hk => ?_⟩,
    fun ⟨hc, hover⟩ id hid => ?_⟩
  · have hrest : (idsOf (routes.erase row.key).rows).Nodup :=
      h.once.sublist (idsOf_sublist List.filter_sublist)
    by_cases hne : row.srmdId = ""
    · have hids : idsOf (routes.put row).rows = idsOf (routes.erase row.key).rows := by
        simp [idsOf, Keyed.put, hne]
      rw [hids]
      exact hrest
    · have hids : idsOf (routes.put row).rows =
          row.srmdId :: idsOf (routes.erase row.key).rows := by
        simp [idsOf, Keyed.put, hne]
      rw [hids, List.nodup_cons]
      exact ⟨fun hmem => hfresh hne (h.owned _ (mem_idsOf_eraseIf hmem)), hrest⟩
  · rcases (hput id).mp hid with hnew | ⟨hne, r, hr, -, hrid⟩
    · exact (howned id).mpr (.inl hnew)
    · exact (howned id).mpr (.inr (h.owned id (mem_idsOf.mpr ⟨hne, r, hr, hrid⟩)))
  · rcases Keyed.mem_put.mp hr with rfl | ⟨hr, -⟩
    · exact hdest
    · exact h.dests r hr
  · rcases (hput id).mp (hc id ((howned id).mpr (.inr hid))) with ⟨hne, rfl⟩ | ⟨hne, r, hr, -, hrid⟩
    · exact absurd hid (hfresh hne)
    · exact mem_idsOf.mpr ⟨hne, r, hr, hrid⟩
  · -- an overwritten id would have to be the new one or be held by another row
    by_contra hne
    have hold := h.owned _ (mem_idsOf.mpr ⟨hne, r, hr, rfl⟩)
    rcases (hput r.srmdId).mp (hc _ ((howned _).mpr (.inr hold))) with ⟨-, heq⟩ | ⟨-, w, hw, hwk, heq⟩
    · exact hfresh (heq ▸ hne) (heq ▸ hold)
    · rw [h.row_inj hr hw hne heq.symm] at hk
      exact hwk hk
  · rcases (howned id).mp hid with hnew | hid
    · exact (hput id).mpr (.inl hnew)
    · obtain ⟨hne, r, hr, rfl⟩ := mem_idsOf.mp (hc id hid)
      exact (hput _).mpr (.inr ⟨hne, r, hr, fun hk => hne (hover r hr hk), rfl⟩)

/-! ### One event -/

/-- The server removes what it is asked to remove, and the id of an added route is new. -/
def Granted (s : WatchState) (d : Delivery) : Prop :=
  d.answers.refused = [] ∧ ∀ id ∈ d.answers.added, id ≠ "" ∧ id ∉ s.owned

/-- An ADDED event does not find a row with an id under its key. -/
def NewKey (s : WatchState) (d : Delivery) : Prop :=
  d.event = .ADDED → mapRtProtocol d.route.protocol = .OSPF →
    ∀ r ∈ s.routes.rows, r.key = (d.route.row "").key → r.srmdId = ""

theorem mem_record_removals {answers : Answers} (h : answers.refused = []) {id : String} :
    ∀ (ids : List String) (owned : List String),
      id ∈ (ids.map answers.removeRoute).foldl RpcCall.record owned ↔ id ∈ owned ∧ id ∉ ids
  | [], owned => by simp
  | first :: ids, owned => by
    have hfirst : RpcCall.record owned (answers.removeRoute first) = owned.filter (· ≠ first) := by
      simp [Answers.removeRoute, h, RpcCall.record]
    rw [List.map_cons, List.foldl_cons, hfirst, mem_record_removals h ids, List.mem_filter,
      decide_eq_true_iff, List.mem_cons, not_or, and_assoc]

theorem mem_record_addRoute (req : AddRouteRequest) {added : Option String} {id : String}
    (h : ∀ id ∈ added, id ≠ "") :
    id ∈ RpcCall.record owned (.addRoute req added) ↔
      id ≠ "" ∧ id = added.getD "" ∨ id ∈ owned := by
  cases added with
  | none =>
    show id ∈ owned ↔ _
    simp
  | some new =>
    have hnew := h new rfl
    show id ∈ new :: owned ↔ id ≠ "" ∧ id = new ∨ id ∈ owned
    rw [List.mem_cons]
    refine or_congr_left ⟨fun heq => ⟨heq ▸ hnew, heq⟩, fun hand => hand.2⟩

/-- The row that an ADDED or CHANGED event stores. -/
def Delivery.row (d : Delivery) : WatchRoute := d.route.row (d.answers.added.getD "")

/-- The rows that a CHANGED event drops. -/
def Delivery.stale (d : Delivery) (r : WatchRoute) : Bool := r.dest = d.row.dest

variable {s s' : WatchState} {d : Delivery}

theorem watchEvent_other (h : mapRtProtocol d.route.protocol ≠ .OSPF) : watchEvent s d = some s := by
  rw [watchEvent, nlWatchCb, if_neg h]
  rfl

theorem watchEvent_added (h : mapRtProtocol d.route.protocol = .OSPF) (he : d.event = .ADDED) :
    watchEvent s d = some ⟨s.routes.put d.row,
      RpcCall.record s.owned (.addRoute d.route.addRequest d.answers.added)⟩ := by
  rw [watchEvent, nlWatchCb, if_pos h, he]
  rfl

theorem watchEvent_changed (h : mapRtProtocol d.route.protocol = .OSPF) (he : d.event = .CHANGED) :
    watchEvent s d = some ⟨(s.routes.eraseIf d.stale).put d.row,
      RpcCall.record (((idsOf (s.routes.rows.filter d.stale)).map d.answers.removeRoute).foldl
        RpcCall.record s.owned) (.addRoute d.route.addRequest d.answers.added)⟩ := by
  rw [watchEvent, nlWatchCb, if_pos h, he]
  dsimp only
  rw [List.foldl_append]
  rfl

theorem watchEvent_removed_unknown (h : mapRtProtocol d.route.protocol = .OSPF)
    (he : d.event = .REMOVED) (hfind : s.routes.find d.row.key = none) : watchEvent s d = some s := by
  have hfind' : s.routes.find (d.route.row (d.answers.added.getD "")).key = none := hfind
  rw [watchEvent, nlWatchCb, if_pos h, he]
  dsimp only
  rw [hfind']
  rfl

theorem watchEvent_removed {r : WatchRoute} (h : mapRtProtocol d.route.protocol = .OSPF)
    (he : d.event = .REMOVED) (hfind : s.routes.find d.row.key = some r) :
    watchEvent s d = some ⟨s.routes.erase d.row.key,
      ((idsOf [r]).map d.answers.removeRoute).foldl RpcCall.record s.owned⟩ := by
  have hfind' : s.routes.find (d.route.row (d.answers.added.getD "")).key = some r := hfind
  rw [watchEvent, nlWatchCb, if_pos h, he]
  dsimp only
  rw [hfind']
  rfl

/-- The row under a key is the only one that has it. -/
theorem mem_idsOf_found {k : String} {r : WatchRoute} (hfind : routes.find k = some r) (id : String) :
    id ∈ idsOf [r] ↔ id ∈ idsOf (routes.rows.filter fun v => decide (v.key = k)) := by
  obtain ⟨hr, hk⟩ := Keyed.find_eq_some.mp hfind
  rw [mem_idsOf, mem_idsOf]
  refine and_congr_right fun _ => ⟨fun ⟨v, hv, hid⟩ => ?_, fun ⟨v, hv, hid⟩ => ?_⟩
  · obtain rfl := List.mem_singleton.mp hv
    exact ⟨v, List.mem_filter.mpr ⟨hr, decide_eq_true hk⟩, hid⟩
  · obtain ⟨hv, hvk⟩ := List.mem_filter.mp hv
    have hsame : v = r := Keyed.key_inj hv hr ((of_decide_eq_true hvk).trans hk.symm)
    exact ⟨r, List.mem_singleton_self r, hsame ▸ hid⟩

/-- **One event**: the two sides stay in step exactly when the event does not add a route under a key
that has an id. -/
theorem watchEvent_held (hs : Held s.routes s.owned) (hg : Granted s d)
    (h : watchEvent s d = some s') :
    Held s'.routes s'.owned ∧
      (Complete s'.routes s'.owned ↔ Complete s.routes s.owned ∧ NewKey s d) := by
  by_cases hospf : mapRtProtocol d.route.protocol = .OSPF
  swap
  · rw [watchEvent_other hospf] at h
    obtain rfl := Option.some.inj h
    exact ⟨hs, (and_iff_left fun _ ho => absurd ho hospf).symm⟩
  obtain ⟨hrefused, hadded⟩ := hg
  have hids : ∀ id ∈ d.answers.added, id ≠ "" := fun id hid => (hadded id hid).1
  have hfresh : d.row.srmdId ≠ "" → d.row.srmdId ∉ s.owned := by
    show d.answers.added.getD "" ≠ "" → d.answers.added.getD "" ∉ s.owned
    cases hadd : d.answers.added with
    | none => exact fun hne => absurd rfl hne
    | some id => exact fun _ => (hadded id hadd).2
  have hdest : Unbarred d.row.dest := unbarred_prefixText _ _
  cases he : d.event with
  | ADDED =>
    rw [watchEvent_added hospf he] at h
    obtain rfl := Option.some.inj h
    have hput := hs.put hdest hfresh fun _ => mem_record_addRoute d.route.addRequest hids
    refine ⟨hput.1, hput.2.trans (and_congr_right fun _ => ?_)⟩
    exact ⟨fun hkey _ _ => hkey, fun hkey => hkey he hospf⟩
  | CHANGED =>
    rw [watchEvent_changed hospf he] at h
    obtain rfl := Option.some.inj h
    have hdrop := hs.drop d.stale fun _ => mem_record_removals hrefused _ _
    have hput := hdrop.1.put hdest
      (fun hne hmem => hfresh hne ((mem_record_removals hrefused _ _).mp hmem).1)
      fun _ => mem_record_addRoute d.route.addRequest hids
    refine ⟨hput.1, hput.2.trans ?_⟩
    rw [hdrop.2]
    refine and_congr_right fun _ => ⟨fun _ hadd => ?_, fun _ r hr hk => ?_⟩
    · rw [he] at hadd
      cases hadd
    · -- a row under the new key has the destination of the event, so it was dropped
      obtain ⟨hr, hkept⟩ := Keyed.mem_eraseIf.mp hr
      have hsame : r.dest = d.row.dest := dest_eq_of_key_eq (hs.dests r hr) hdest hk
      exact absurd (decide_eq_true hsame) (Bool.eq_false_iff.mp hkept)
  | REMOVED =>
    have hnew : NewKey s d := fun hadd => by
      rw [he] at hadd
      cases hadd
    cases hfind : s.routes.find d.row.key with
    | none =>
      rw [watchEvent_removed_unknown hospf he hfind] at h
      obtain rfl := Option.some.inj h
      exact ⟨hs, (and_iff_left hnew).symm⟩
    | some r =>
      rw [watchEvent_removed hospf he hfind] at h
      obtain rfl := Option.some.inj h
      have hdrop := hs.drop (fun v => decide (v.key = d.row.key)) fun id =>
        (mem_record_removals hrefused (idsOf [r]) s.owned).trans
          (and_congr_right fun _ => not_congr (mem_idsOf_found hfind id))
      exact ⟨hdrop.1, hdrop.2.trans (and_iff_left hnew).symm⟩

/-! ### Runs of events -/

/-- The ids that this client owns on the server are the ids that its rows hold, each held once. -/
structure Mirrored (s : WatchState) : Prop where
  once : (idsOf s.routes.rows).Nodup
  same : ∀ id, id ∈ s.owned ↔ id ∈ idsOf s.routes.rows

/-- **The mirror owns exactly what it created**: after a run of events the owned ids are the held ones
exactly when none of the events added a route under a key that had an id. -/
theorem mirrored_iff_newKey (ds : List Delivery) (s : WatchState)
    (hrun : run watchEvent .initial ds = some s) (hgranted : Along watchEvent Granted .initial ds) :
    Mirrored s ↔ Along watchEvent NewKey .initial ds := by
  have hinit : Held WatchState.initial.routes WatchState.initial.owned := by
    refine ⟨List.nodup_nil, fun id hid => ?_, fun row hrow => ?_⟩
    · exact absurd hid List.not_mem_nil
    · exact absurd hrow List.not_mem_nil
  have hstep : ∀ s d s', Held s.routes s.owned → Granted s d → watchEvent s d = some s' →
      Held s'.routes s'.owned ∧ (Complete s'.routes s'.owned ↔ Complete s.routes s.owned ∧ NewKey s d) :=
    fun _ _ _ hi hg h => watchEvent_held hi hg h
  have hheld : Held s.routes s.owned :=
    run_invariant (fun _ _ _ hi hg h => (hstep _ _ _ hi hg h).1) hinit hgranted hrun
  have hcomplete := run_iff_along hstep hinit hgranted hrun
  have hstart : Complete WatchState.initial.routes WatchState.initial.owned := fun id hid =>
    absurd hid List.not_mem_nil
  rw [and_iff_right hstart] at hcomplete
  rw [← hcomplete]
  refine ⟨fun hm id hid => (hm.same id).mp hid, fun hc => ⟨hheld.once, fun id => ?_⟩⟩
  exact ⟨hc id, hheld.owned id⟩

instance (s : WatchState) (d : Delivery) : Decidable (Granted s d) :=
  inferInstanceAs (Decidable (_ ∧ _))

instance (s : WatchState) (d : Delivery) : Decidable (NewKey s d) :=
  inferInstanceAs (Decidable (_ → _ → _))

/-- An OSPF host route with a metric. -/
def ospfRoute (metric : UInt32) : NetlinkRoute32 where
  family := 2
  dst_len := 32
  tos := 0
  scope := 0
  type := 1
  flags := 0
  protocol := RTPROT_OSPF
  table := 254
  dst := ipv4 10 0 0 1
  gateway := ipv4 192 168 0 1
  ifindex := 3
  ifname := "eth0"
  metric := metric

/-- The route is added, changed in place and removed. -/
def replacedRoute : List Delivery :=
  [⟨.ADDED, ospfRoute 10, ⟨some "a", []⟩⟩, ⟨.CHANGED, ospfRoute 20, ⟨some "b", []⟩⟩,
    ⟨.REMOVED, ospfRoute 20, ⟨none, []⟩⟩]

theorem mirrored_replacedRoute :
    ∃ s, run watchEvent .initial replacedRoute = some s ∧ Mirrored s :=
  ⟨_, rfl, (mirrored_iff_newKey replacedRoute _ rfl (by decide)).mpr (by decide)⟩

/-- Two routes that differ in their metric only share a key, and the first id is lost. -/
theorem not_mirrored_second_metric :
    ¬ ∀ (ds : List Delivery) (s : WatchState), run watchEvent .initial ds = some s →
      Along watchEvent Granted .initial ds → Mirrored s := by
  intro hall
  have hm := hall [⟨.ADDED, ospfRoute 10, ⟨some "a", []⟩⟩, ⟨.ADDED, ospfRoute 20, ⟨some "b", []⟩⟩] _
    rfl (by decide)
  exact absurd ((hm.same "a").mp (by decide)) (by decide)

end Rtsrv.Client
