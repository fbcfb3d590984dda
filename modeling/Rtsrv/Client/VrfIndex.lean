import Rtsrv.Client.VrfTable

/-!
# Rtsrv.Client.VrfIndex — the two containers of `VrfTable` (`vrf_table.cpp`)

The type `VrfTable` has it built in that its index fits its routes.  The members of the class are a vector
and a map that know nothing of each other, and the map is used to index the vector unchecked.  Every
sequence of calls leaves them as a `VrfTable` has them (`represents_after`).
-/

namespace Rtsrv.Client

open Lib Server

/-- The members of the class: the routes, and positions of them by gateway. -/
structure VrfMembers where
  routes_ : List VrfRoute
  byNexthop_ : String → Option (List ℕ)

namespace VrfMembers

/-- A new table. -/
def fresh : VrfMembers := ⟨[], fun _ => none⟩

def clear (m : VrfMembers) : VrfMembers := { m with routes_ := [], byNexthop_ := fun _ => none }

/-- `byNexthop_[gateway].push_back(idx)`. -/
def noteIdx (byNexthop_ : String → Option (List ℕ)) (gateway : String) (idx : ℕ) :
    String → Option (List ℕ) :=
  Function.update byNexthop_ gateway (some ((byNexthop_ gateway).getD [] ++ [idx]))

/-- A round of the loop of `load`. -/
def push (m : VrfMembers) (r : VrfRoute) : VrfMembers :=
  let idx := m.routes_.length
  { routes_ := m.routes_ ++ [r]
    byNexthop_ := if r.nexthop ≠ "" then noteIdx m.byNexthop_ r.nexthop idx else m.byNexthop_ }

def load (m : VrfMembers) (resp : GetAllRoutesResponse) : VrfMembers := resp.routes.foldl push m.clear

def hasNexthop (m : VrfMembers) (gateway : String) : Bool := (m.byNexthop_ gateway).isSome

/-- `routes_[idx]`, which is not checked. -/
def routeAt (m : VrfMembers) (idx : ℕ) : Except (Fault Empty) VrfRoute :=
  match m.routes_[idx]? with
  | none => .error .outOfRange
  | some r => .ok r

def findByNexthop (m : VrfMembers) (gateway : String) : Except (Fault Empty) (List VrfRoute) :=
  match m.byNexthop_ gateway with
  | none => .ok []
  | some idxs => idxs.mapM m.routeAt

def all (m : VrfMembers) : List VrfRoute := m.routes_

/-- The calls that write. -/
inductive Call where
  | load (resp : GetAllRoutesResponse)
  | clear

def Call.run (m : VrfMembers) : Call → VrfMembers
  | .load resp => m.load resp
  | .clear => m.clear

/-- The members after a sequence of calls. -/
def after (calls : List Call) : VrfMembers := calls.foldl Call.run fresh

/-! ### The members are those of a `VrfTable` -/

/-- The members hold what the table holds. -/
structure Represents (m : VrfMembers) (t : VrfTable) : Prop where
  routes : m.routes_ = t.routes_
  index : ∀ gateway, m.byNexthop_ gateway = (t.byNexthop_.find gateway).map Posting.positions

theorem represents_empty (m : VrfMembers) (hroutes : m.routes_ = []) (hindex : m.byNexthop_ = fun _ => none) :
    m.Represents .empty :=
  ⟨hroutes, fun gateway => congrFun hindex gateway⟩

theorem Represents.positions {m : VrfMembers} {t : VrfTable} (h : m.Represents t) (gateway : String) :
    (m.byNexthop_ gateway).getD [] = t.byNexthop_.positions gateway := by
  rw [h.index, Postings.positions]
  cases t.byNexthop_.find gateway with
  | none => rfl
  | some row => rfl

theorem Represents.push {m : VrfMembers} {t : VrfTable} (h : m.Represents t) (r : VrfRoute) :
    (m.push r).Represents (t.push r) := by
  refine ⟨?_, fun gateway => ?_⟩
  · show m.routes_ ++ [r] = t.routes_ ++ [r]
    rw [h.routes]
  · show (if r.nexthop ≠ "" then noteIdx m.byNexthop_ r.nexthop m.routes_.length else m.byNexthop_) gateway =
      ((if r.nexthop ≠ "" then t.byNexthop_.note r.nexthop t.routes_.length else t.byNexthop_).find
        gateway).map Posting.positions
    by_cases hne : r.nexthop ≠ ""
    · rw [if_pos hne, if_pos hne, noteIdx, Function.update_apply, Postings.find_note, h.positions, h.routes]
      by_cases hg : gateway = r.nexthop
      · rw [if_pos hg, if_pos hg]
        rfl
      · rw [if_neg hg, if_neg hg]
        exact h.index gateway
    · rw [if_neg hne, if_neg hne]
      exact h.index gateway

theorem Represents.foldl_push : ∀ (rs : List VrfRoute) {m : VrfMembers} {t : VrfTable}, m.Represents t →
    (rs.foldl VrfMembers.push m).Represents (rs.foldl VrfTable.push t)
  | [], _, _, h => h
  | r :: rs, _, _, h => foldl_push rs (h.push r)

/-- Each call leaves the members of some table, whatever they were. -/
theorem represents_call (m : VrfMembers) (call : Call) : ∃ t : VrfTable, (call.run m).Represents t := by
  cases call with
  | load resp => exact ⟨.load resp, Represents.foldl_push resp.routes (represents_empty m.clear rfl rfl)⟩
  | clear => exact ⟨.empty, represents_empty m.clear rfl rfl⟩

theorem represents_after (calls : List Call) : ∃ t : VrfTable, (after calls).Represents t := by
  rcases List.eq_nil_or_concat' calls with rfl | ⟨calls, call, rfl⟩
  · exact ⟨.empty, represents_empty fresh rfl rfl⟩
  · rw [after, List.foldl_append]
    exact represents_call _ call

/-! ### What is looked up -/

/-- Positions that hold certain routes are read as these routes. -/
theorem mapM_routeAt {m : VrfMembers} : ∀ {idxs : List ℕ} {rs : List VrfRoute},
    (idxs.map fun idx => m.routes_[idx]?) = rs.map some → idxs.mapM m.routeAt = .ok rs
  | [], [], _ => rfl
  | [], r :: rs, h => by cases h
  | idx :: idxs, [], h => by cases h
  | idx :: idxs, r :: rs, h => by
    obtain ⟨hidx, hidxs⟩ := List.cons.inj h
    have hread : m.routeAt idx = .ok r := by
      rw [routeAt, show m.routes_[idx]? = some r from hidx]
    rw [List.mapM_cons, hread, ok_bind, mapM_routeAt hidxs]
    rfl

section Lookup

variable {m : VrfMembers} {t : VrfTable} (h : m.Represents t)

include h

theorem Represents.findByNexthop (gateway : String) :
    m.findByNexthop gateway = .ok (t.findByNexthop gateway) := by
  have hread : (t.byNexthop_.positions gateway).mapM m.routeAt = .ok (t.findByNexthop gateway) := by
    refine mapM_routeAt ?_
    rw [h.routes, t.indexed, t.findByNexthop_eq]
    exact map_positionsOf _ _
  rw [← h.positions] at hread
  rw [VrfMembers.findByNexthop]
  cases hidxs : m.byNexthop_ gateway with
  | none =>
    rw [hidxs] at hread
    exact hread
  | some idxs =>
    rw [hidxs] at hread
    exact hread

theorem Represents.hasNexthop (gateway : String) : m.hasNexthop gateway = t.hasNexthop gateway := by
  rw [VrfMembers.hasNexthop, h.index, Option.isSome_map, VrfTable.hasNexthop]

theorem Represents.positions_lt {gateway : String} {idxs : List ℕ}
    (hidxs : m.byNexthop_ gateway = some idxs) : ∀ idx ∈ idxs, idx < m.routes_.length := by
  have hpos := h.positions gateway
  rw [hidxs] at hpos
  obtain rfl : idxs = _ := hpos
  rw [h.routes]
  exact t.positions_lt gateway

theorem Represents.count {idx : ℕ} {r : VrfRoute} (hr : m.routes_[idx]? = some r) (gateway : String) :
    ((m.byNexthop_ gateway).getD []).count idx = if r.nexthop ≠ "" ∧ r.nexthop = gateway then 1 else 0 := by
  rw [h.routes] at hr
  rw [h.positions, t.indexed, count_positionsOf hr]
  simp only [decide_eq_true_eq]

/-- Under a key that is not empty the index finds the routes that have it. -/
theorem Represents.filter {gateway : String} (hne : gateway ≠ "") :
    t.findByNexthop gateway = m.all.filter fun r => r.nexthop = gateway := by
  rw [t.findByNexthop_eq, all, h.routes]
  refine List.filter_congr fun r _ => decide_eq_decide.mpr ⟨And.right, fun heq => ⟨?_, heq⟩⟩
  rw [heq]
  exact hne

end Lookup

end VrfMembers

/-- **The index of `VrfTable` is always consistent.**  After any calls each stored index is inside the
vector, each route has its index once under its nexthop and nowhere else, and what a nexthop is looked up as
is what filtering all the routes gives. -/
theorem vrfTable_consistent (calls : List VrfMembers.Call) :
    (∀ g idxs, (VrfMembers.after calls).byNexthop_ g = some idxs →
        ∀ idx ∈ idxs, idx < (VrfMembers.after calls).routes_.length) ∧
      (∀ idx r, (VrfMembers.after calls).routes_[idx]? = some r → ∀ g,
        (((VrfMembers.after calls).byNexthop_ g).getD []).count idx =
          if r.nexthop ≠ "" ∧ r.nexthop = g then 1 else 0) ∧
      ∀ g, g ≠ "" →
        (VrfMembers.after calls).findByNexthop g =
            .ok ((VrfMembers.after calls).all.filter fun r => r.nexthop = g) ∧
          ((VrfMembers.after calls).hasNexthop g = true ↔
            ((VrfMembers.after calls).all.filter fun r => r.nexthop = g) ≠ []) := by
  obtain ⟨t, h⟩ := VrfMembers.represents_after calls
  refine ⟨fun g idxs => h.positions_lt, fun idx r => h.count, fun g hne => ⟨?_, ?_⟩⟩
  · rw [h.findByNexthop, h.filter hne]
  · rw [h.hasNexthop, t.hasNexthop_iff, h.filter hne]

end Rtsrv.Client
