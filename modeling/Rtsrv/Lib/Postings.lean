import Rtsrv.Lib.Keyed

/-!
# Rtsrv.Lib.Postings — a list with an index by key

The index keeps, for each key, the positions of the items that have it, in the order in which the items were
appended.  An index that is kept beside the list finds the items that filtering finds.
-/

namespace Rtsrv.Lib

variable {κ α : Type}

/-! ### The positions of some items -/

/-- The positions of the items that `p` holds of. -/
def positionsOf (p : α → Bool) (as : List α) : List ℕ :=
  (as.zipIdx.filter fun ai => p ai.1).map Prod.snd

theorem positionsOf_concat (p : α → Bool) (as : List α) (a : α) :
    positionsOf p (as ++ [a]) = positionsOf p as ++ if p a then [as.length] else [] := by
  unfold positionsOf
  rw [List.zipIdx_append, List.filter_append, List.map_append]
  by_cases hp : p a = true
  · simp [hp]
  · simp [hp]

theorem positionsOf_lt {p : α → Bool} {as : List α} : ∀ idx ∈ positionsOf p as, idx < as.length := by
  intro idx hidx
  obtain ⟨⟨a, i⟩, hmem, rfl⟩ := List.mem_map.mp hidx
  obtain ⟨-, hlt, -⟩ := List.mem_zipIdx (List.mem_of_mem_filter hmem)
  simpa using hlt

theorem mem_positionsOf {p : α → Bool} {as : List α} {idx : ℕ} :
    idx ∈ positionsOf p as ↔ ∃ a, as[idx]? = some a ∧ p a = true := by
  rw [positionsOf, List.mem_map]
  constructor
  · rintro ⟨⟨a, i⟩, hmem, rfl⟩
    obtain ⟨hmem, hp⟩ := List.mem_filter.mp hmem
    exact ⟨a, List.mem_zipIdx_iff_getElem?.mp hmem, hp⟩
  · rintro ⟨a, ha, hp⟩
    exact ⟨(a, idx), List.mem_filter.mpr ⟨List.mem_zipIdx_iff_getElem?.mpr ha, hp⟩, rfl⟩

theorem nodup_positionsOf (p : α → Bool) (as : List α) : (positionsOf p as).Nodup := by
  have hall : (as.zipIdx.map Prod.snd).Nodup := by
    rw [List.zipIdx_map_snd]
    exact List.nodup_range'
  exact hall.sublist (List.filter_sublist.map Prod.snd)

/-- Each item has its position once, if `p` holds of it. -/
theorem count_positionsOf {p : α → Bool} {as : List α} {idx : ℕ} {a : α} (h : as[idx]? = some a) :
    (positionsOf p as).count idx = if p a then 1 else 0 := by
  have hmem : idx ∈ positionsOf p as ↔ p a = true := by
    rw [mem_positionsOf, h]
    simp
  rw [(nodup_positionsOf p as).count, if_congr hmem rfl rfl]

/-- The items at the positions of the items that `p` holds of are these items. -/
theorem map_positionsOf (p : α → Bool) (as : List α) :
    (positionsOf p as).map (fun idx => as[idx]?) = (as.filter p).map some := by
  have hitem : ∀ ai ∈ as.zipIdx.filter (fun ai => p ai.1), as[ai.2]? = some ai.1 := by
    rintro ⟨a, i⟩ hai
    exact List.mem_zipIdx_iff_getElem?.mp (List.mem_of_mem_filter hai)
  have hfst : (as.zipIdx.filter fun ai => p ai.1).map Prod.fst = as.filter p := by
    have hmap := List.filter_map (p := p) (f := Prod.fst) (l := as.zipIdx)
    rw [List.zipIdx_map_fst] at hmap
    exact hmap.symm
  rw [positionsOf, List.map_map, ← hfst, List.map_map]
  exact List.map_congr_left hitem

/-! ### The index -/

/-- A key and the positions that are noted under it; a key is there only with a position. -/
structure Posting (κ : Type) where
  key : κ
  positions : List ℕ
  nonempty : positions ≠ []

abbrev Postings (κ : Type) := Keyed (Posting.key : Posting κ → κ)

namespace Postings

variable [DecidableEq κ]

def positions (ps : Postings κ) (k : κ) : List ℕ :=
  match ps.find k with
  | none => []
  | some row => row.positions

/-- `ps[k].push_back(idx)`. -/
def note (ps : Postings κ) (k : κ) (idx : ℕ) : Postings κ :=
  ps.put ⟨k, ps.positions k ++ [idx], by simp⟩

theorem find_ne_none {ps : Postings κ} {k : κ} : ps.find k ≠ none ↔ ps.positions k ≠ [] := by
  unfold positions
  cases hfind : ps.find k with
  | none => simp
  | some row => simp [row.nonempty]

theorem positions_empty (k : κ) : positions .empty k = [] := rfl

theorem find_note (ps : Postings κ) (k k' : κ) (idx : ℕ) : (ps.note k idx).find k' =
    if k' = k then some ⟨k, ps.positions k ++ [idx], by simp⟩ else ps.find k' := by
  have hfind : (ps.note k idx).find k' =
      Function.update ps.contents k (some ⟨k, ps.positions k ++ [idx], by simp⟩) k' :=
    congrFun (Keyed.contents_put ps _) k'
  rw [hfind, Function.update_apply]
  rfl

theorem positions_note (ps : Postings κ) (k k' : κ) (idx : ℕ) :
    positions (ps.note k idx) k' = ps.positions k' ++ if k = k' then [idx] else [] := by
  rw [positions, find_note]
  by_cases hk : k = k'
  · subst hk
    rw [if_pos rfl, if_pos rfl]
  · rw [if_neg (Ne.symm hk), if_neg hk, List.append_nil]
    rfl

end Postings

end Rtsrv.Lib
