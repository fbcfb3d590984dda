import Mathlib.Data.List.Nodup
import Mathlib.Data.Set.Insert
import Rtsrv.Lib.Replay

/-!
# Rtsrv.Lib.Keyed — finite maps whose keys are part of the values

The rows of the map in some order, no two with the same key.  Erasing rows is filtering, and putting a
row takes out the one that has its key.  `Fresh` says when a list of keys can be added to a map without
meeting a key that is there.
-/

namespace Rtsrv.Lib

variable {κ ν : Type} {key : ν → κ}

/-- The keys can be taken one after the other beside those that are taken. -/
def Fresh (taken : Set κ) (ks : List κ) : Prop := ks.Nodup ∧ ∀ k ∈ ks, k ∉ taken

theorem fresh_cons {taken : Set κ} {k : κ} {ks : List κ} :
    Fresh taken (k :: ks) ↔ k ∉ taken ∧ Fresh (insert k taken) ks := by
  unfold Fresh
  rw [List.nodup_cons, List.forall_mem_cons]
  refine ⟨fun ⟨⟨hk, hnodup⟩, htaken, hall⟩ => ?_, fun ⟨htaken, hnodup, hall⟩ => ?_⟩
  · refine ⟨htaken, hnodup, fun k' hk' hmem => ?_⟩
    rcases Set.mem_insert_iff.mp hmem with rfl | hmem
    · exact hk hk'
    · exact hall k' hk' hmem
  · refine ⟨⟨fun hk => hall k hk (Set.mem_insert k taken), hnodup⟩, htaken, fun k' hk' hmem => ?_⟩
    exact hall k' hk' (Set.mem_insert_of_mem k hmem)

theorem fresh_union {taken more : Set κ} {ks : List κ} :
    Fresh (taken ∪ more) ks ↔ Fresh taken ks ∧ ∀ k ∈ ks, k ∉ more := by
  unfold Fresh
  rw [and_assoc]
  refine and_congr_right fun _ => ?_
  rw [← forall₂_and]
  refine forall₂_congr fun k _ => ?_
  rw [Set.mem_union, not_or]

/-- Filtering by a label that each part hands to its items keeps whole parts. -/
theorem filter_flatMap_label {α β : Type} [DecidableEq κ] {part : α → κ} {label : β → κ}
    {items : α → List β} (h : ∀ a, ∀ b ∈ items a, label b = part a) (k : κ) (as : List α) :
    (as.flatMap items).filter (fun b => label b = k) = (as.filter fun a => part a = k).flatMap items := by
  induction as with
  | nil => rfl
  | cons a as ih =>
    rw [List.flatMap_cons, List.filter_append, ih, List.filter_cons]
    by_cases hk : part a = k
    · have hall : (items a).filter (fun b => label b = k) = items a :=
        List.filter_eq_self.mpr fun b hb => decide_eq_true ((h a b hb).trans hk)
      rw [hall, if_pos (decide_eq_true hk), List.flatMap_cons]
    · have hnone : (items a).filter (fun b => label b = k) = [] :=
        List.filter_eq_nil_iff.mpr fun b hb heq => hk ((h a b hb).symm.trans (of_decide_eq_true heq))
      rw [hnone, List.nil_append, if_neg fun heq => hk (of_decide_eq_true heq)]

structure Keyed (key : ν → κ) where
  rows : List ν
  distinct : (rows.map key).Nodup

namespace Keyed

def empty : Keyed key := ⟨[], List.nodup_nil⟩

/-- The rows that `gone` does not name. -/
def eraseIf (m : Keyed key) (gone : ν → Bool) : Keyed key where
  rows := m.rows.filter fun v => !gone v
  distinct := m.distinct.sublist (List.filter_sublist.map key)

theorem mem_eraseIf {m : Keyed key} {gone : ν → Bool} {v : ν} :
    v ∈ (m.eraseIf gone).rows ↔ v ∈ m.rows ∧ gone v = false := by
  show v ∈ m.rows.filter _ ↔ _
  rw [List.mem_filter, Bool.not_eq_true']

theorem key_inj {m : Keyed key} {v w : ν} (hv : v ∈ m.rows) (hw : w ∈ m.rows)
    (h : key v = key w) : v = w := List.inj_on_of_nodup_map m.distinct hv hw h

/-- The keys that have a row. -/
def keys (m : Keyed key) : Set κ := {k | ∃ v ∈ m.rows, key v = k}

theorem keys_empty : (empty : Keyed key).keys = ∅ := by
  ext k
  simp [keys, empty]

variable [DecidableEq κ]

def erase (m : Keyed key) (k : κ) : Keyed key := m.eraseIf fun v => key v = k

theorem mem_erase {m : Keyed key} {k : κ} {v : ν} :
    v ∈ (m.erase k).rows ↔ v ∈ m.rows ∧ key v ≠ k := by
  rw [erase, mem_eraseIf, decide_eq_false_iff_not]

/-- `m[key v] = v`. -/
def put (m : Keyed key) (v : ν) : Keyed key where
  rows := v :: (m.erase (key v)).rows
  distinct := by
    rw [List.map_cons, List.nodup_cons]
    refine ⟨fun h => ?_, (m.erase (key v)).distinct⟩
    obtain ⟨w, hw, heq⟩ := List.mem_map.mp h
    exact (mem_erase.mp hw).2 heq

def find (m : Keyed key) (k : κ) : Option ν := m.rows.find? fun v => key v = k

/-- The map as a partial function. -/
def contents (m : Keyed key) : Table κ ν := fun k => m.find k

theorem mem_put {m : Keyed key} {v w : ν} :
    w ∈ (m.put v).rows ↔ w = v ∨ w ∈ m.rows ∧ key w ≠ key v := by
  show w ∈ v :: (m.erase (key v)).rows ↔ _
  rw [List.mem_cons, mem_erase]

theorem find_eq_some {m : Keyed key} {k : κ} {v : ν} :
    m.find k = some v ↔ v ∈ m.rows ∧ key v = k := by
  refine ⟨fun h => ?_, fun ⟨hv, hk⟩ => ?_⟩
  · exact ⟨List.mem_of_find?_eq_some h, by simpa using List.find?_some h⟩
  · cases hfind : m.find k with
    | none =>
      have hno := List.find?_eq_none.mp hfind v hv
      exact absurd (decide_eq_true hk) hno
    | some w =>
      have hkw : key w = k := by simpa using List.find?_some hfind
      rw [key_inj (List.mem_of_find?_eq_some hfind) hv (hkw.trans hk.symm)]

/-- The rows that have a key. -/
theorem filter_key (m : Keyed key) (k : κ) : m.rows.filter (fun v => key v = k) = (m.find k).toList := by
  obtain ⟨rows, distinct⟩ := m
  show rows.filter _ = (rows.find? _).toList
  induction rows with
  | nil => rfl
  | cons v rows ih =>
    rw [List.map_cons, List.nodup_cons] at distinct
    by_cases hv : key v = k
    · have hnone : rows.filter (fun w => key w = k) = [] := by
        refine List.filter_eq_nil_iff.mpr fun w hw hkey => distinct.1 ?_
        rw [hv, ← of_decide_eq_true hkey]
        exact List.mem_map_of_mem hw
      rw [List.filter_cons, List.find?_cons, decide_eq_true hv, if_pos rfl, hnone]
      rfl
    · rw [List.filter_cons, List.find?_cons, decide_eq_false hv, if_neg Bool.false_ne_true, ih distinct.2]

theorem find_ne_none {m : Keyed key} {k : κ} : m.find k ≠ none ↔ k ∈ m.keys := by
  rw [Option.ne_none_iff_exists']
  exact exists_congr fun v => find_eq_some

/-- `m.emplace(key v, v)`: a row that has the key already stays. -/
def emplace (m : Keyed key) (v : ν) : Keyed key :=
  if h : key v ∈ m.rows.map key then m
  else
    { rows := m.rows ++ [v]
      distinct := by
        rw [List.map_append, List.map_singleton, ← List.concat_eq_append]
        exact m.distinct.concat h }

theorem emplace_fresh {m : Keyed key} {v : ν} (h : key v ∉ m.rows.map key) :
    (m.emplace v).rows = m.rows ++ [v] := by
  rw [emplace, dif_neg h]

/-- A found row and what is left without it. -/
theorem perm_erase {m : Keyed key} {k : κ} {v : ν} (h : m.find k = some v) :
    m.rows.Perm (v :: (m.erase k).rows) := by
  obtain ⟨hv, hk⟩ := find_eq_some.mp h
  have hnodup : (v :: (m.erase k).rows).Nodup :=
    List.nodup_cons.mpr ⟨fun hmem => (mem_erase.mp hmem).2 hk, (m.erase k).distinct.of_map⟩
  refine (List.perm_ext_iff_of_nodup m.distinct.of_map hnodup).mpr fun w => ?_
  rw [List.mem_cons, mem_erase]
  refine ⟨fun hw => ?_, fun hw => ?_⟩
  · by_cases hkey : key w = k
    · exact .inl (key_inj hw hv (hkey.trans hk.symm))
    · exact .inr ⟨hw, hkey⟩
  · rcases hw with rfl | ⟨hw, -⟩
    · exact hv
    · exact hw

theorem keys_put (m : Keyed key) (v : ν) : (m.put v).keys = insert (key v) m.keys := by
  ext k
  rw [Set.mem_insert_iff]
  show (∃ w ∈ (m.put v).rows, key w = k) ↔ k = key v ∨ ∃ w ∈ m.rows, key w = k
  refine ⟨fun ⟨w, hw, hk⟩ => ?_, fun h => ?_⟩
  · rcases mem_put.mp hw with rfl | ⟨hw, -⟩
    · exact .inl hk.symm
    · exact .inr ⟨w, hw, hk⟩
  · by_cases hkey : k = key v
    · exact ⟨v, mem_put.mpr (.inl rfl), hkey.symm⟩
    · obtain ⟨w, hw, rfl⟩ := h.resolve_left hkey
      exact ⟨w, mem_put.mpr (.inr ⟨hw, hkey⟩), rfl⟩

theorem keys_erase (m : Keyed key) (k : κ) : (m.erase k).keys = m.keys \ {k} := by
  ext k'
  rw [Set.mem_sdiff, Set.mem_singleton_iff]
  show (∃ w ∈ (m.erase k).rows, key w = k') ↔ (∃ w ∈ m.rows, key w = k') ∧ k' ≠ k
  refine ⟨?_, ?_⟩
  · rintro ⟨w, hw, rfl⟩
    exact ⟨⟨w, (mem_erase.mp hw).1, rfl⟩, (mem_erase.mp hw).2⟩
  · rintro ⟨⟨w, hw, rfl⟩, hne⟩
    exact ⟨w, mem_erase.mpr ⟨hw, hne⟩, rfl⟩

/-! ### One row more or less -/

section Change

variable {m m' : Keyed key} {v : ν}

/-- The rows are the same. -/
def Same (m m' : Keyed key) : Prop := ∀ w, w ∈ m'.rows ↔ w ∈ m.rows

/-- There is one row more, under a key that was free. -/
structure Gains (m m' : Keyed key) (v : ν) : Prop where
  free : key v ∉ m.keys
  mem : ∀ w, w ∈ m'.rows ↔ w = v ∨ w ∈ m.rows

/-- There is one row less. -/
structure Loses (m m' : Keyed key) (v : ν) : Prop where
  had : v ∈ m.rows
  mem : ∀ w, w ∈ m'.rows ↔ w ∈ m.rows ∧ w ≠ v

theorem gains_put (h : key v ∉ m.keys) : m.Gains (m.put v) v where
  free := h
  mem _ := mem_put.trans (or_congr_right (and_iff_left_of_imp fun hw heq => h ⟨_, hw, heq⟩))

theorem loses_erase (h : v ∈ m.rows) : m.Loses (m.erase (key v)) v where
  had := h
  mem _ := mem_erase.trans (and_congr_right fun hw =>
    not_congr ⟨fun hkey => key_inj hw h hkey, fun heq => congrArg key heq⟩)

omit [DecidableEq κ] in
theorem Same.trans {m'' : Keyed key} (h : m.Same m') (h' : m'.Same m'') : m.Same m'' :=
  fun w => (h' w).trans (h w)

omit [DecidableEq κ] in
theorem Same.keys (h : m.Same m') : m'.keys = m.keys := by
  ext k
  exact exists_congr fun w => and_congr_left fun _ => h w

omit [DecidableEq κ] in
theorem Gains.keys (h : m.Gains m' v) : m'.keys = insert (key v) m.keys := by
  ext k
  rw [Set.mem_insert_iff]
  constructor
  · rintro ⟨w, hw, rfl⟩
    rcases (h.mem w).mp hw with rfl | hw
    · exact .inl rfl
    · exact .inr ⟨w, hw, rfl⟩
  · rintro (rfl | ⟨w, hw, rfl⟩)
    · exact ⟨v, (h.mem v).mpr (.inl rfl), rfl⟩
    · exact ⟨w, (h.mem w).mpr (.inr hw), rfl⟩

end Change

theorem keys_put_empty (v : ν) : ((empty : Keyed key).put v).keys = {key v} := by
  rw [keys_put, keys_empty, insert_empty_eq]

theorem contents_put (m : Keyed key) (v : ν) :
    (m.put v).contents = Function.update m.contents (key v) (some v) := by
  funext k
  refine Option.ext fun w => ?_
  show (m.put v).find k = some w ↔ _
  rw [find_eq_some, mem_put]
  by_cases hk : k = key v
  · subst hk
    rw [Function.update_self, Option.some.injEq]
    refine ⟨fun h => ?_, fun h => ⟨.inl h.symm, by rw [h]⟩⟩
    rcases h.1 with rfl | hw
    · rfl
    · exact absurd h.2 hw.2
  · rw [Function.update_of_ne hk]
    show _ ↔ m.find k = some w
    rw [find_eq_some]
    refine ⟨fun h => ?_, fun h => ⟨.inr ⟨h.1, fun heq => hk (h.2.symm.trans heq)⟩, h.2⟩⟩
    rcases h.1 with rfl | hw
    · exact absurd h.2.symm hk
    · exact ⟨hw.1, h.2⟩

theorem contents_eraseIf (m : Keyed key) (gone : ν → Bool) (k : κ) :
    (m.eraseIf gone).contents k = (m.contents k).filter fun v => !gone v := by
  refine Option.ext fun w => ?_
  show (m.eraseIf gone).find k = some w ↔ (m.find k).filter _ = some w
  rw [Option.filter_eq_some_iff, find_eq_some, find_eq_some, mem_eraseIf, Bool.not_eq_true']
  exact and_right_comm

theorem contents_erase (m : Keyed key) (k : κ) :
    (m.erase k).contents = Function.update m.contents k none := by
  funext k'
  refine Option.ext fun w => ?_
  show (m.erase k).find k' = some w ↔ _
  rw [find_eq_some, mem_erase]
  by_cases hk : k' = k
  · subst hk
    rw [Function.update_self]
    refine ⟨fun h => absurd h.2 h.1.2, fun h => ?_⟩
    cases h
  · rw [Function.update_of_ne hk]
    show _ ↔ m.find k' = some w
    rw [find_eq_some]
    exact ⟨fun h => ⟨h.1.1, h.2⟩, fun h => ⟨⟨h.1, fun heq => hk (h.2.symm.trans heq)⟩, h.2⟩⟩

/-- **A map whose key is coarser than the identity of what its rows are made from.**  Erasing by key follows
erasing by identity exactly when no other item of the list has the key. -/
theorem erase_perm_iff {α ι : Type} [DecidableEq ι] {id : α → ι} {entry : α → ν} {m : Keyed key}
    {items : List α} {a : α} (hkey : ∀ w, id w = id a → key (entry w) = key (entry a))
    (hm : m.rows.Perm (items.map entry)) :
    (m.erase (key (entry a))).rows.Perm ((items.filter fun w => id w ≠ id a).map entry) ↔
      ∀ w ∈ items, key (entry w) = key (entry a) → id w = id a := by
  have herase : (m.erase (key (entry a))).rows.Perm
      ((items.filter fun w => key (entry w) ≠ key (entry a)).map entry) := by
    have hfilter := hm.filter fun v => !decide (key v = key (entry a))
    rw [List.filter_map] at hfilter
    simp only [decide_not]
    exact hfilter
  constructor
  · intro hperm w hw hsame
    -- the rows that are left by key are left by identity too, and there are as many of both
    have hsub : (items.filter fun w => key (entry w) ≠ key (entry a)).Sublist
        (items.filter fun w => id w ≠ id a) :=
      List.monotone_filter_right items fun w h =>
        decide_eq_true fun heq => of_decide_eq_true h (hkey w heq)
    have hlen := (herase.symm.trans hperm).length_eq
    rw [List.length_map, List.length_map] at hlen
    by_contra hne
    have hmem : w ∈ items.filter fun w => key (entry w) ≠ key (entry a) := by
      rw [hsub.eq_of_length hlen]
      exact List.mem_filter.mpr ⟨hw, decide_eq_true hne⟩
    exact of_decide_eq_true (List.mem_filter.mp hmem).2 hsame
  · intro hall
    have hsame : (items.filter fun w => key (entry w) ≠ key (entry a)) =
        items.filter fun w => id w ≠ id a :=
      List.filter_congr fun w hw => decide_eq_decide.mpr (not_congr ⟨hall w hw, hkey w⟩)
    rw [← hsame]
    exact herase

/-- So does putting. -/
theorem put_perm_iff {α ι : Type} [DecidableEq ι] {id : α → ι} {entry : α → ν} {m : Keyed key}
    {items : List α} {a : α} (hkey : ∀ w, id w = id a → key (entry w) = key (entry a))
    (hm : m.rows.Perm (items.map entry)) :
    (m.put (entry a)).rows.Perm (((items.filter fun w => id w ≠ id a) ++ [a]).map entry) ↔
      ∀ w ∈ items, key (entry w) = key (entry a) → id w = id a := by
  rw [← erase_perm_iff hkey hm, List.map_append, List.map_singleton]
  show (entry a :: _).Perm _ ↔ _
  rw [List.Perm.congr_right (List.perm_append_singleton (entry a) _)]
  exact List.perm_cons (entry a)

end Keyed

end Rtsrv.Lib
