import Mathlib.Data.Prod.Lex
import Mathlib.Data.String.Basic
import Rtsrv.Lib.OrderFree
import Rtsrv.Server.RouteManager

/-!
# Rtsrv.Server.RouteListing — the listing of the route table (`server/src/route_manager.cpp`)

`listRoutes` copies what passes its filters in the order in which the hash map is iterated, and sorts by
metric and id.  Every route is stored under its own id, so no two of them are equal in that order and the
listing is a function of the contents alone.
-/

namespace Rtsrv.Server

open Lib

/-- The stored routes in the order of the iteration. -/
def Routes.stored (routes : Routes) : List Route := routes.map.entries.map (·.2)

/-- What `listRoutes` may return when the routes are iterated in this order: `std::ranges::sort` promises a
permutation without an inversion, and nothing about routes of which neither comes first. -/
structure ListsSorted (order : List Route) (req : ListRoutesRequest) (result : List Route) : Prop where
  perm : result.Perm (order.filter (listed req))
  sorted : result.Pairwise fun a b => listedBefore b a = false

/-- The route satisfies all filters that are given. -/
structure Matches (req : ListRoutesRequest) (route : Route) : Prop where
  address_family : req.address_family ≠ .UNSPECIFIED → route.address_family = req.address_family
  protocol : req.protocol ≠ .UNSPECIFIED → route.protocol = req.protocol
  active : req.active_only = true → route.active = true

/-- The key that the listing is sorted by. -/
def sortKey (route : Route) : ℕ ×ₗ String := toLex (route.metric.toNat, route.id)

/-! ### The order -/

theorem listedBefore_iff {a b : Route} : listedBefore a b = true ↔ sortKey a < sortKey b := by
  rw [sortKey, sortKey, Prod.Lex.toLex_lt_toLex, listedBefore, UInt32.toNat_inj, ← UInt32.lt_iff_toNat_lt]
  by_cases hmetric : a.metric = b.metric
  · simp [hmetric]
  · simp [hmetric]

theorem listedBefore_false {a b : Route} : listedBefore b a = false ↔ sortKey a ≤ sortKey b := by
  rw [← Bool.not_eq_true, listedBefore_iff, not_lt]

theorem listed_iff {req : ListRoutesRequest} {route : Route} :
    listed req route = true ↔ Matches req route := by
  unfold listed
  simp only [Bool.and_eq_true, Bool.not_eq_true', Bool.and_eq_false_iff, bne_eq_false_iff_eq]
  constructor
  · rintro ⟨⟨hfamily, hprotocol⟩, hactive⟩
    exact ⟨fun h => hfamily.resolve_left h, fun h => hprotocol.resolve_left h, fun h => by simp_all⟩
  · intro h
    refine ⟨⟨?_, ?_⟩, ?_⟩
    · exact or_iff_not_imp_left.mpr h.address_family
    · exact or_iff_not_imp_left.mpr h.protocol
    · cases hactive : req.active_only with
      | false => exact .inl rfl
      | true => exact .inr (by simp [h.active hactive])

/-! ### The stored routes -/

theorem mem_stored {routes : Routes} {route : Route} :
    route ∈ routes.stored ↔ routes.contents route.id = some route := by
  rw [Routes.stored, List.mem_map]
  constructor
  · rintro ⟨⟨id, r⟩, hmem, rfl⟩
    have hl : routes.map.lookup id = some r := AList.mem_lookup_iff.mpr hmem
    show routes.map.lookup r.id = some r
    rw [routes.keyed id r hl]
    exact hl
  · exact fun h => ⟨⟨route.id, route⟩, AList.mem_lookup_iff.mp h, rfl⟩

/-- The ids of the stored routes are the keys of the map. -/
theorem stored_ids (routes : Routes) : routes.stored.map Route.id = routes.map.keys := by
  rw [Routes.stored, List.map_map]
  refine List.map_congr_left fun entry hentry => ?_
  exact routes.keyed entry.1 entry.2 (AList.mem_lookup_iff.mpr hentry)

theorem nodup_ids (routes : Routes) : (routes.stored.map Route.id).Nodup := by
  rw [stored_ids]
  exact routes.map.nodupKeys

theorem nodup_stored (routes : Routes) : routes.stored.Nodup := (nodup_ids routes).of_map _

/-- Tables with the same contents differ in the order of the iteration alone. -/
theorem stored_perm {routes routes' : Routes} (h : routes'.contents = routes.contents) :
    routes'.stored.Perm routes.stored := by
  refine (List.perm_ext_iff_of_nodup (nodup_stored _) (nodup_stored _)).mpr fun route => ?_
  rw [mem_stored, mem_stored, h]

/-- No two stored routes are equal in the order of the listing. -/
theorem sortKey_injOn (routes : Routes) : Set.InjOn sortKey {route | route ∈ routes.stored} := by
  intro a ha b hb hkey
  have hid : a.id = b.id := congrArg (fun k => (ofLex k).2) hkey
  exact List.inj_on_of_nodup_map (nodup_ids routes) ha hb hid

/-! ### The listing -/

theorem listsSorted_iff {order result : List Route} {req : ListRoutesRequest} :
    ListsSorted order req result ↔ Sorting sortKey (order.filter (listed req)) result := by
  constructor
  · exact fun h => ⟨h.perm, h.sorted.imp listedBefore_false.mp⟩
  · exact fun h => ⟨h.perm, h.sorted.imp listedBefore_false.mpr⟩

/-- The listing is what a sort of the stored routes may return. -/
theorem listRoutes_sorted (routes : Routes) (req : ListRoutesRequest) :
    ListsSorted routes.stored req (listRoutes routes req) := by
  have hle : ∀ {a b : Route}, (¬listedBefore b a) ↔ sortKey a ≤ sortKey b := by
    intro a b
    rw [Bool.not_eq_true, listedBefore_false]
  have : Std.Total fun a b : Route => ¬listedBefore b a :=
    ⟨fun a b => (le_total (sortKey a) (sortKey b)).imp hle.mpr hle.mpr⟩
  have : IsTrans Route fun a b : Route => ¬listedBefore b a :=
    ⟨fun a b c hab hbc => hle.mpr ((hle.mp hab).trans (hle.mp hbc))⟩
  refine ⟨List.perm_insertionSort _ _, ?_⟩
  exact (List.pairwise_insertionSort _ _).imp fun h => Bool.eq_false_iff.mpr h

theorem mem_listRoutes {routes : Routes} {req : ListRoutesRequest} {route : Route} :
    route ∈ listRoutes routes req ↔
      routes.contents route.id = some route ∧ listed req route = true := by
  rw [(listRoutes_sorted routes req).perm.mem_iff, List.mem_filter, mem_stored]

/-- **Whatever the order of the iteration and whatever the sort, the listing is the same.** -/
theorem listsSorted_unique {routes : Routes} {req : ListRoutesRequest} {order result : List Route}
    (horder : order.Perm routes.stored) (h : ListsSorted order req result) :
    result = listRoutes routes req := by
  refine (listsSorted_iff.mp (listRoutes_sorted routes req)).unique (listsSorted_iff.mp h)
    (horder.symm.filter _) ?_ |>.symm
  exact (sortKey_injOn routes).mono fun route hroute => List.mem_of_mem_filter hroute

theorem listRoutes_strict (routes : Routes) (req : ListRoutesRequest) :
    (listRoutes routes req).Pairwise fun a b => listedBefore a b = true := by
  refine ((listsSorted_iff.mp (listRoutes_sorted routes req)).strict ?_ ?_).imp listedBefore_iff.mpr
  · exact (sortKey_injOn routes).mono fun route hroute => List.mem_of_mem_filter hroute
  · exact (nodup_stored routes).filter _

/-- **The listing is canonical**: for every table, every order in which its map is iterated and every filter
it is the one list of the stored routes that match, each once, strictly increasing by metric and id.  Tables
with the same contents have the same listing. -/
theorem listRoutes_canonical (routes : Routes) (req : ListRoutesRequest) :
    (∀ order result, order.Perm routes.stored → ListsSorted order req result →
      result = listRoutes routes req) ∧
    (∀ routes' : Routes, routes'.contents = routes.contents →
      listRoutes routes' req = listRoutes routes req) ∧
    (∀ route, route ∈ listRoutes routes req ↔ routes.contents route.id = some route ∧ Matches req route) ∧
    (listRoutes routes req).Nodup ∧
    (listRoutes routes req).Pairwise fun a b =>
      a.metric < b.metric ∨ (a.metric = b.metric ∧ a.id < b.id) := by
  refine ⟨fun order result => listsSorted_unique, fun routes' h => ?_, fun route => ?_, ?_, ?_⟩
  · exact listsSorted_unique (stored_perm h) (listRoutes_sorted routes' req)
  · rw [mem_listRoutes, listed_iff]
  · exact (listRoutes_sorted routes req).perm.nodup_iff.mpr ((nodup_stored routes).filter _)
  · refine (listRoutes_strict routes req).imp fun {a b} h => ?_
    rw [listedBefore] at h
    split_ifs at h with hmetric
    · exact .inl (of_decide_eq_true h)
    · exact .inr ⟨not_not.mp hmetric, of_decide_eq_true h⟩

end Rtsrv.Server
