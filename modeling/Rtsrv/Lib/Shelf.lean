import Mathlib.Data.List.Sort
import Rtsrv.Lib.Keyed

/-!
# Rtsrv.Lib.Shelf — the rows of a group in the order of their ranks

Where the key of a row is a group and a rank, a keyed map is one shelf for each group: its rows from the least
rank up, no rank twice.  A fresh row goes to the place of its rank, and the row of least rank that meets a
condition is the first one on the shelf that does.
-/

namespace Rtsrv.Lib

variable {ν γ ρ κ : Type} [LinearOrder ρ] {rank : ν → ρ}

/-- Rows from the least rank up. -/
@[ext]
structure Shelf (rank : ν → ρ) where
  rows : List ν
  sorted : rows.Pairwise fun v w => rank v < rank w

namespace Shelf

variable {s t : Shelf rank} {v w : ν} {p : ν → Bool}

/-- A shelf is what is on it. -/
theorem ext_mem (h : ∀ v, v ∈ s.rows ↔ v ∈ t.rows) : s = t := by
  have hs : Std.Irrefl fun v w : ν => rank v < rank w := ⟨fun v => lt_irrefl (rank v)⟩
  have ha : Std.Antisymm fun v w : ν => rank v < rank w := ⟨fun _ _ h h' => absurd h (lt_asymm h')⟩
  exact Shelf.ext (s.sorted.eq_of_mem_iff t.sorted h)

theorem rank_inj (hv : v ∈ s.rows) (hw : w ∈ s.rows) (h : rank v = rank w) : v = w := by
  have hnodup : (s.rows.map rank).Nodup := List.pairwise_map.mpr (s.sorted.imp ne_of_lt)
  exact List.inj_on_of_nodup_map hnodup hv hw h

/-- A row of the shelf has the rank. -/
def Taken (s : Shelf rank) (r : ρ) : Prop := ∃ w ∈ s.rows, rank w = r

instance (s : Shelf rank) (r : ρ) : Decidable (s.Taken r) := inferInstanceAs (Decidable (∃ _ ∈ _, _))

theorem pairwise_orderedInsert {rows : List ν} (hsorted : rows.Pairwise fun v w => rank v < rank w)
    (hfree : ∀ w ∈ rows, rank w ≠ rank v) :
    (rows.orderedInsert (fun v w => rank v ≤ rank w) v).Pairwise fun v w => rank v < rank w := by
  induction rows with
  | nil => exact List.pairwise_singleton _ v
  | cons u rows ih =>
    obtain ⟨hu, hrows⟩ := List.pairwise_cons.mp hsorted
    obtain ⟨hne, hfree⟩ := List.forall_mem_cons.mp hfree
    rw [List.orderedInsert_cons]
    split_ifs with hle
    · have hlt : rank v < rank u := lt_of_le_of_ne hle hne.symm
      refine List.pairwise_cons.mpr ⟨fun w hw => ?_, hsorted⟩
      rcases List.mem_cons.mp hw with rfl | hw
      · exact hlt
      · exact hlt.trans (hu w hw)
    · refine List.pairwise_cons.mpr ⟨fun w hw => ?_, ih hrows hfree⟩
      rcases (List.mem_orderedInsert _).mp hw with rfl | hw
      · exact not_le.mp hle
      · exact hu w hw

/-- A row of a free rank at its place. -/
def insert (s : Shelf rank) (v : ν) (hfree : ¬ s.Taken (rank v)) : Shelf rank where
  rows := s.rows.orderedInsert (fun v w => rank v ≤ rank w) v
  sorted := pairwise_orderedInsert s.sorted fun w hw heq => hfree ⟨w, hw, heq⟩

theorem mem_insert {hfree : ¬ s.Taken (rank v)} : w ∈ (s.insert v hfree).rows ↔ w = v ∨ w ∈ s.rows :=
  List.mem_orderedInsert _

/-- The row of least rank that meets `p`. -/
def first (s : Shelf rank) (p : ν → Bool) : Option ν := s.rows.find? p

theorem first_eq_none : s.first p = none ↔ ∀ w ∈ s.rows, p w = false := by
  rw [first, List.find?_eq_none]
  simp

theorem first_split (h : s.first p = some v) :
    p v = true ∧ ∃ before after, s.rows = before ++ v :: after ∧ ∀ w ∈ before, p w = false := by
  obtain ⟨hp, before, after, hsplit, hbefore⟩ := List.find?_eq_some_iff_append.mp h
  exact ⟨hp, before, after, hsplit, fun w hw => by simpa using hbefore w hw⟩

theorem first_least (h : s.first p = some v) (hw : w ∈ s.rows) (hp : p w = true) : rank v ≤ rank w := by
  obtain ⟨-, before, after, hsplit, hbefore⟩ := first_split h
  have hsorted := s.sorted
  rw [hsplit] at hsorted hw
  obtain ⟨-, hafter, -⟩ := List.pairwise_append.mp hsorted
  obtain ⟨hlt, -⟩ := List.pairwise_cons.mp hafter
  rcases List.mem_append.mp hw with hw | hw
  · rw [hbefore w hw] at hp
    cases hp
  · rcases List.mem_cons.mp hw with rfl | hw
    · exact le_rfl
    · exact (hlt w hw).le

theorem first_eq_some :
    s.first p = some v ↔ v ∈ s.rows ∧ p v = true ∧ ∀ w ∈ s.rows, p w = true → rank v ≤ rank w := by
  constructor
  · intro h
    exact ⟨List.mem_of_find?_eq_some h, (first_split h).1, fun w => first_least h⟩
  · rintro ⟨hv, hp, hleast⟩
    have hsome : (s.first p).isSome := List.find?_isSome.mpr ⟨v, hv, hp⟩
    obtain ⟨u, hu⟩ := Option.isSome_iff_exists.mp hsome
    have hmem : u ∈ s.rows := List.mem_of_find?_eq_some hu
    have hle : rank v ≤ rank u := hleast u hmem (first_split hu).1
    rw [hu, rank_inj hmem hv ((first_least hu hv hp).antisymm hle)]

/-- The shelf without the first row that meets `p`. -/
def eraseFirst (s : Shelf rank) (p : ν → Bool) : Shelf rank where
  rows := s.rows.eraseP p
  sorted := s.sorted.sublist List.eraseP_sublist

theorem mem_eraseFirst (h : s.first p = some v) : w ∈ (s.eraseFirst p).rows ↔ w ∈ s.rows ∧ w ≠ v := by
  obtain ⟨hp, before, after, hsplit, hbefore⟩ := first_split h
  have hrows : (s.eraseFirst p).rows = before ++ after := by
    show s.rows.eraseP p = _
    rw [hsplit, List.eraseP_append_right _ fun w hw => by simp [hbefore w hw], List.eraseP_cons_of_pos hp]
  have hnodup : (before ++ v :: after).Nodup := by
    rw [← hsplit]
    exact s.sorted.imp fun hlt heq => hlt.ne (congrArg rank heq)
  have hout : v ∉ before ++ after := (List.nodup_middle.mp hnodup).notMem
  rw [hrows, hsplit, List.mem_append, List.mem_append, List.mem_cons]
  constructor
  · intro hw
    exact ⟨hw.imp_right .inr, fun heq => hout (heq ▸ List.mem_append.mpr hw)⟩
  · rintro ⟨hw | rfl | hw, hne⟩
    · exact .inl hw
    · exact absurd rfl hne
    · exact .inr hw

/-- A row that was inserted is the first one exactly when no row of a lower rank meets the condition. -/
theorem first_insert {hfree : ¬ s.Taken (rank v)} (hp : p v = true) :
    (s.insert v hfree).first p = some v ↔ ∀ w ∈ s.rows, p w = true → rank v < rank w := by
  rw [first_eq_some, and_iff_right (mem_insert.mpr (.inl rfl)), and_iff_right hp]
  constructor
  · intro hleast w hw hpw
    have hle : rank v ≤ rank w := hleast w (mem_insert.mpr (.inr hw)) hpw
    exact lt_of_le_of_ne hle fun hrank => hfree ⟨w, hw, hrank.symm⟩
  · intro hlower w hw hpw
    rcases mem_insert.mp hw with rfl | hw
    · exact le_rfl
    · exact (hlower w hw hpw).le

/-- **Erasing undoes inserting exactly when the inserted row is the first one.** -/
theorem eraseFirst_insert {hfree : ¬ s.Taken (rank v)} (hp : p v = true) :
    (s.insert v hfree).eraseFirst p = s ↔ (s.insert v hfree).first p = some v := by
  have hv : v ∉ s.rows := fun hv => hfree ⟨v, hv, rfl⟩
  constructor
  · intro heq
    obtain ⟨u, hu⟩ : ∃ u, (s.insert v hfree).first p = some u :=
      Option.isSome_iff_exists.mp (List.find?_isSome.mpr ⟨v, mem_insert.mpr (.inl rfl), hp⟩)
    have huv : v = u := by
      by_contra hne
      have hmem := (mem_eraseFirst hu).mpr ⟨mem_insert.mpr (.inl rfl), hne⟩
      rw [heq] at hmem
      exact hv hmem
    rw [hu, huv]
  · intro hfirst
    refine ext_mem fun w => ?_
    rw [mem_eraseFirst hfirst, mem_insert]
    constructor
    · rintro ⟨rfl | hw, hne⟩
      · exact absurd rfl hne
      · exact hw
    · exact fun hw => ⟨.inr hw, fun heq => hv (heq ▸ hw)⟩

end Shelf

/-- The key of a row says its group and its rank and nothing else. -/
structure Ranked {ν κ γ ρ : Type} (key : ν → κ) (group : ν → γ) (rank : ν → ρ) : Prop where
  eq_iff : ∀ v w, key v = key w ↔ group v = group w ∧ rank v = rank w

namespace Keyed

variable {key : ν → κ} {group : ν → γ} [DecidableEq γ] {m m' : Keyed key} {v w : ν} {g : γ}
  {p : ν → Bool}

theorem pairwise_shelf (m : Keyed key) (h : Ranked key group rank) (g : γ) :
    ((m.rows.filter fun v => group v = g).insertionSort fun v w => rank v ≤ rank w).Pairwise
      fun v w => rank v < rank w := by
  have htotal : Std.Total fun v w : ν => rank v ≤ rank w := ⟨fun v w => le_total (rank v) (rank w)⟩
  have htrans : IsTrans ν fun v w => rank v ≤ rank w := ⟨fun _ _ _ => le_trans⟩
  have hranks : (m.rows.filter fun v => group v = g).Pairwise fun v w => rank v ≠ rank w := by
    rw [List.pairwise_filter]
    refine (List.pairwise_map.mp m.distinct).imp fun {v w} hkey hv hw hrank => hkey ?_
    exact (h.eq_iff v w).mpr ⟨(of_decide_eq_true hv).trans (of_decide_eq_true hw).symm, hrank⟩
  have hsorted := List.pairwise_insertionSort (fun v w => rank v ≤ rank w)
    (m.rows.filter fun v => group v = g)
  have hne := ((List.perm_insertionSort (fun v w => rank v ≤ rank w) _).pairwise_iff
    fun {v w} (hrank : rank v ≠ rank w) => hrank.symm).mpr hranks
  exact (hsorted.and hne).imp fun {v w} hvw => lt_of_le_of_ne hvw.1 hvw.2

/-- The rows of a group on a shelf. -/
def shelf (m : Keyed key) (h : Ranked key group rank) (g : γ) : Shelf rank where
  rows := (m.rows.filter fun v => group v = g).insertionSort fun v w => rank v ≤ rank w
  sorted := m.pairwise_shelf h g

variable {h : Ranked key group rank}

theorem mem_shelf : v ∈ (m.shelf h g).rows ↔ v ∈ m.rows ∧ group v = g := by
  rw [shelf, List.mem_insertionSort, List.mem_filter, decide_eq_true_eq]

theorem taken_shelf : (m.shelf h (group v)).Taken (rank v) ↔ key v ∈ m.keys := by
  constructor
  · rintro ⟨w, hw, hrank⟩
    obtain ⟨hw, hgroup⟩ := mem_shelf.mp hw
    exact ⟨w, hw, (h.eq_iff w v).mpr ⟨hgroup, hrank⟩⟩
  · rintro ⟨w, hw, hkey⟩
    obtain ⟨hgroup, hrank⟩ := (h.eq_iff w v).mp hkey
    exact ⟨w, mem_shelf.mpr ⟨hw, hgroup⟩, hrank⟩

/-! ### One row more or less -/

theorem Same.shelf (hsame : m.Same m') : m'.shelf h g = m.shelf h g := by
  refine Shelf.ext_mem fun w => ?_
  rw [mem_shelf, mem_shelf, hsame w]

theorem Gains.shelf_of_ne (hgains : m.Gains m' v) (hg : group v ≠ g) : m'.shelf h g = m.shelf h g := by
  refine Shelf.ext_mem fun w => ?_
  rw [mem_shelf, mem_shelf, hgains.mem w]
  constructor
  · rintro ⟨rfl | hw, hgroup⟩
    · exact absurd hgroup hg
    · exact ⟨hw, hgroup⟩
  · exact fun ⟨hw, hgroup⟩ => ⟨.inr hw, hgroup⟩

theorem Gains.free_shelf (hgains : m.Gains m' v) : ¬ (m.shelf h (group v)).Taken (rank v) :=
  fun htaken => hgains.free (taken_shelf.mp htaken)

/-- A new row goes to its place on the shelf. -/
theorem Gains.shelf (hgains : m.Gains m' v) :
    m'.shelf h (group v) = (m.shelf h (group v)).insert v hgains.free_shelf := by
  refine Shelf.ext_mem fun w => ?_
  rw [mem_shelf, hgains.mem w, Shelf.mem_insert, mem_shelf]
  constructor
  · rintro ⟨rfl | hw, hgroup⟩
    · exact .inl rfl
    · exact .inr ⟨hw, hgroup⟩
  · rintro (rfl | ⟨hw, hgroup⟩)
    · exact ⟨.inl rfl, rfl⟩
    · exact ⟨.inr hw, hgroup⟩

theorem Loses.shelf_of_ne (hloses : m.Loses m' v) (hg : group v ≠ g) : m'.shelf h g = m.shelf h g := by
  refine Shelf.ext_mem fun w => ?_
  rw [mem_shelf, mem_shelf, hloses.mem w]
  exact ⟨fun ⟨⟨hw, _⟩, hgroup⟩ => ⟨hw, hgroup⟩,
    fun ⟨hw, hgroup⟩ => ⟨⟨hw, fun heq => hg (heq ▸ hgroup)⟩, hgroup⟩⟩

/-- A row that is lost leaves the shelf. -/
theorem Loses.shelf (hloses : m.Loses m' v) (hfirst : (m.shelf h g).first p = some v) :
    m'.shelf h g = (m.shelf h g).eraseFirst p := by
  refine Shelf.ext_mem fun w => ?_
  rw [Shelf.mem_eraseFirst hfirst, mem_shelf, mem_shelf, hloses.mem w, and_right_comm]

/-- The row of least rank among those of the group that meet `p` is the first one on the shelf. -/
theorem first_shelf (hv : v ∈ m.rows) (hgroup : group v = g) (hp : p v = true)
    (hleast : ∀ w ∈ m.rows, group w = g → p w = true → rank v ≤ rank w) :
    (m.shelf h g).first p = some v := by
  refine Shelf.first_eq_some.mpr ⟨mem_shelf.mpr ⟨hv, hgroup⟩, hp, fun w hw hpw => ?_⟩
  obtain ⟨hw, hgroup⟩ := mem_shelf.mp hw
  exact hleast w hw hgroup hpw

end Keyed

end Rtsrv.Lib
