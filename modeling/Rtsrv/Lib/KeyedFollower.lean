import Rtsrv.Lib.Mirror

/-!
# Rtsrv.Lib.KeyedFollower — followers that put and erase rows

The table is a keyed map.  An addition or a change puts the row that the notice is read to, a removal erases
its key, and the dump puts the rows that are read of all objects.  Rows are compared through `seen`, which may
leave out what the two ways of reading an object do not agree on; which rows an object should have is said
apart from both.
-/

namespace Rtsrv.Lib

variable {ω κ ρ : Type} [DecidableEq κ] {key : ρ → κ}

namespace Keyed

/-- Puts rows one after the other. -/
def putAll (m : Keyed key) (rows : List ρ) : Keyed key := rows.foldl put m

theorem mem_putAll {w : ρ} :
    ∀ {rows : List ρ} {m : Keyed key}, DistinctKeys key rows →
      (w ∈ (m.putAll rows).rows ↔ w ∈ rows ∨ w ∈ m.rows ∧ key w ∉ rows.map key)
  | [], m, _ => by simp [putAll]
  | v :: rows, m, hd => by
    obtain ⟨hnew, hd⟩ := List.nodup_cons.mp hd
    show w ∈ ((m.put v).putAll rows).rows ↔ _
    rw [mem_putAll hd, mem_put, List.mem_cons, List.map_cons, List.mem_cons, not_or]
    refine ⟨fun h => ?_, fun h => ?_⟩
    · rcases h with hw | ⟨rfl | ⟨hw, hk⟩, hnot⟩
      · exact .inl (.inr hw)
      · exact .inl (.inl rfl)
      · exact .inr ⟨hw, hk, hnot⟩
    · rcases h with (rfl | hw) | ⟨hw, hk, hnot⟩
      · exact .inr ⟨.inl rfl, hnew⟩
      · exact .inl hw
      · exact .inr ⟨.inr ⟨hw, hk⟩, hnot⟩

theorem mem_keys_putAll {k : κ} {rows : List ρ} :
    ∀ {m : Keyed key}, k ∈ (m.putAll rows).keys ↔ (∃ r ∈ rows, key r = k) ∨ k ∈ m.keys := by
  induction rows with
  | nil => intro m; simp [putAll]
  | cons r rows ih =>
    intro m
    show k ∈ ((m.put r).putAll rows).keys ↔ _
    rw [ih, keys_put, Set.mem_insert_iff, List.exists_mem_cons_iff, eq_comm (a := k)]
    exact or_left_comm.trans or_assoc.symm

/-- A map made of rows has one key when all of them have it. -/
theorem keys_putAll_eq_singleton {rows : List ρ} (hne : rows ≠ []) (k : κ) :
    (empty.putAll rows : Keyed key).keys = {k} ↔ ∀ r ∈ rows, key r = k := by
  have hkeys : ∀ k', k' ∈ (empty.putAll rows : Keyed key).keys ↔ ∃ r ∈ rows, key r = k' := by
    intro k'
    rw [mem_keys_putAll, keys_empty]
    exact or_iff_left (Set.notMem_empty k')
  obtain ⟨r, hr⟩ := List.exists_mem_of_ne_nil rows hne
  rw [Set.ext_iff]
  simp only [hkeys, Set.mem_singleton_iff]
  refine ⟨fun h r hr => (h (key r)).mp ⟨r, hr, rfl⟩, fun h k' => ⟨fun ⟨r, hr, hk⟩ => ?_, ?_⟩⟩
  · rw [← hk, h r hr]
  · rintro rfl
    exact ⟨r, hr, h r hr⟩

/-- The map as a table of what is seen of its rows. -/
def seenBy (seen : ρ → ρ) (m : Keyed key) : Table κ ρ := fun k => (m.find k).map seen

variable {seen : ρ → ρ}

theorem seenBy_shows (hseen : ∀ r, key (seen r) = key r) (m : Keyed key) :
    Shows key (m.seenBy seen) (m.rows.map seen) := by
  intro k v
  rw [seenBy, Option.map_eq_some_iff, List.mem_map]
  refine ⟨fun ⟨r, hr, heq⟩ => ?_, fun ⟨⟨r, hr, heq⟩, hk⟩ => ⟨r, ?_, heq⟩⟩
  · obtain ⟨hmem, hk⟩ := find_eq_some.mp hr
    refine ⟨⟨r, hmem, heq⟩, ?_⟩
    rw [← heq, hseen, hk]
  · refine find_eq_some.mpr ⟨hr, ?_⟩
    rw [← hseen, heq, hk]

theorem seenBy_put (hseen : ∀ r, key (seen r) = key r) (m : Keyed key) (r : ρ) :
    (m.put r).seenBy seen = putRow key (some (seen r)) (m.seenBy seen) := by
  funext k
  have hput := congrFun (contents_put m r) k
  show ((m.put r).contents k).map seen =
    Function.update (m.seenBy seen) (key (seen r)) (some (seen r)) k
  rw [hput, hseen]
  by_cases hk : k = key r
  · rw [hk, Function.update_self, Function.update_self]
    rfl
  · rw [Function.update_of_ne hk, Function.update_of_ne hk]
    rfl

theorem seenBy_erase (hseen : ∀ r, key (seen r) = key r) (m : Keyed key) (r : ρ) :
    (m.erase (key r)).seenBy seen = dropRow key (some (seen r)) (m.seenBy seen) := by
  funext k
  have herase := congrFun (contents_erase m (key r)) k
  show ((m.erase (key r)).contents k).map seen =
    Function.update (m.seenBy seen) (key (seen r)) none k
  rw [herase, hseen]
  by_cases hk : k = key r
  · rw [hk, Function.update_self, Function.update_self]
    rfl
  · rw [Function.update_of_ne hk, Function.update_of_ne hk]
    rfl

/-- A map made of rows with distinct keys has these rows. -/
theorem putAll_shows (hseen : ∀ r, key (seen r) = key r) {rows : List ρ}
    (hd : DistinctKeys key (rows.map seen)) :
    Shows key ((empty.putAll rows : Keyed key).seenBy seen) (rows.map seen) := by
  have hkey : key ∘ seen = key := funext hseen
  rw [DistinctKeys, List.map_map, hkey] at hd
  refine (seenBy_shows hseen _).congr fun v => ?_
  rw [List.mem_map, List.mem_map]
  refine exists_congr fun r => and_congr_left' ?_
  rw [mem_putAll hd]
  simp [empty]

end Keyed

/-- The rows that objects should have, and what a follower reads: the row in a notice about an object and
the rows in a dump of it.  The readings are right for objects that are `told` and `dumpable`. -/
structure RowReader (ω : Type) (key : ρ → κ) where
  rowsOf : ω → List ρ
  live : ω → Option ρ
  dump : ω → List ρ
  seen : ρ → ρ
  told : ω → Prop
  dumpable : ω → Prop
  key_seen : ∀ r, key (seen r) = key r
  told_seen : ∀ o, told o → ((live o).map seen).toList = rowsOf o
  dump_seen : ∀ o, dumpable o → (dump o).map seen = rowsOf o

namespace RowReader

variable (R : RowReader ω key)

/-- The table after a notice. -/
def apply (n : Notice ω) (m : Keyed key) : Keyed key :=
  match n with
  | .added o | .changed o =>
    match R.live o with
    | some r => m.put r
    | none => m
  | .removed o =>
    match R.live o with
    | some r => m.erase (key r)
    | none => m

/-- The row that is seen in a notice about an object. -/
def row (o : ω) : Option ρ := (R.live o).map R.seen

def effect (n : Notice ω) (T : Table κ ρ) : Table κ ρ :=
  match n with
  | .added o | .changed o => putRow key (R.row o) T
  | .removed o => dropRow key (R.row o) T

/-- The object that a notice is about is told, and it has the key of the one that it replaces. -/
def Tame : ObjChange ω → Prop
  | .replace old new => R.told new ∧ ∀ v ∈ R.rowsOf old, ∃ w ∈ R.rowsOf new, key w = key v
  | .add o | .remove o => R.told o

instance [∀ o, Decidable (R.told o)] : ∀ c, Decidable (R.Tame c)
  | .replace _ new => inferInstanceAs (Decidable (R.told new ∧ ∀ v ∈ _, ∃ w ∈ _, _))
  | .add o | .remove o => inferInstanceAs (Decidable (R.told o))

theorem seenBy_apply (n : Notice ω) (m : Keyed key) :
    (R.apply n m).seenBy R.seen = R.effect n (m.seenBy R.seen) := by
  have hput : ∀ o, (match R.live o with
      | some r => m.put r
      | none => m).seenBy R.seen = putRow key (R.row o) (m.seenBy R.seen) := by
    intro o
    rw [row]
    cases R.live o with
    | none => rfl
    | some r => exact Keyed.seenBy_put R.key_seen m r
  cases n with
  | added o => exact hput o
  | changed o => exact hput o
  | removed o =>
    show (match R.live o with
      | some r => m.erase (key r)
      | none => m).seenBy R.seen = dropRow key (R.row o) (m.seenBy R.seen)
    rw [row]
    cases R.live o with
    | none => rfl
    | some r => exact Keyed.seenBy_erase R.key_seen m r

omit [DecidableEq κ] in
theorem map_seen_dump {objs : List ω} (h : ∀ o ∈ objs, R.dumpable o) :
    (objs.flatMap R.dump).map R.seen = objs.flatMap R.rowsOf := by
  rw [List.map_flatMap]
  exact List.flatMap_congr fun o ho => R.dump_seen o (h o ho)

theorem fill_shows {objs : List ω} (hd : DistinctKeys key (objs.flatMap R.rowsOf))
    (h : ∀ o ∈ objs, R.dumpable o) :
    Shows key ((Keyed.empty.putAll (objs.flatMap R.dump) : Keyed key).seenBy R.seen)
      (objs.flatMap R.rowsOf) := by
  rw [← R.map_seen_dump h] at hd ⊢
  exact Keyed.putAll_shows R.key_seen hd

theorem effect_shows [DecidableEq ω] {objs objs' : List ω} {c : ObjChange ω} {T : Table κ ρ}
    (hd : DistinctKeys key (objs.flatMap R.rowsOf)) (ht : R.Tame c)
    (hc : c.apply objs = some objs') (hd' : DistinctKeys key (objs'.flatMap R.rowsOf))
    (h : Shows key T (objs.flatMap R.rowsOf)) :
    Shows key (R.effect c.notice T) (objs'.flatMap R.rowsOf) := by
  obtain ⟨o, rfl, rfl⟩ | ⟨old, new, rfl, hold, rfl⟩ | ⟨o, rfl, ho, rfl⟩ := ObjChange.apply_cases hc
  · have hrow : (R.row o).toList = R.rowsOf o := R.told_seen o ht
    rw [List.flatMap_cons, ← hrow] at hd' ⊢
    have h : Shows key T ([] ++ objs.flatMap R.rowsOf) := h
    exact h.putRow (fun u hu => absurd hu List.not_mem_nil) hd'
  · -- the rows of the old object are overwritten, so they need not be dropped first
    obtain ⟨hnew, hkeeps⟩ := ht
    have hrow : (R.row new).toList = R.rowsOf new := R.told_seen new hnew
    rw [List.flatMap_cons, ← hrow] at hd' ⊢
    refine (h.congr fun v => (rows_perm_erase R.rowsOf hold).mem_iff).putRow (fun u hu => ?_) hd'
    obtain ⟨w, hw, hkey⟩ := hkeeps u hu
    rw [← hrow] at hw
    exact ⟨w, Option.mem_toList.mp hw, hkey⟩
  · have hrow : (R.row o).toList = R.rowsOf o := R.told_seen o ht
    have hperm := rows_perm_erase R.rowsOf ho
    rw [← hrow] at hperm
    exact (h.congr fun v => hperm.mem_iff).dropRow (hd.perm hperm)

/-- The follower that a reader makes. -/
def follower [DecidableEq ω] : Follower ω κ ρ (Keyed key) Unit Unit where
  key := key
  rowsOf := R.rowsOf
  contents := Keyed.seenBy R.seen
  fill := fun _ objs => Keyed.empty.putAll (objs.flatMap R.dump)
  live := fun _ => R.apply
  effect := R.effect
  dumpable := R.dumpable
  tame := fun _ => R.Tame
  contents_live := fun _ => R.seenBy_apply
  fill_shows := fun _ _ hd h => R.fill_shows hd h
  effect_shows := fun _ _ _ _ hd ht hc hd' h => R.effect_shows hd ht hc hd' h

end RowReader

end Rtsrv.Lib
