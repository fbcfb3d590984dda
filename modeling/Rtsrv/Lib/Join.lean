import Mathlib.Data.List.Nodup

/-!
# Rtsrv.Lib.Join — items that are handed to the first row of their key

A loop that looks the row of each item up and pushes the item onto it joins rows and items: each row ends with
the items of its key, in the order in which they came.  Of two rows of one key the second gets none.
-/

namespace Rtsrv.Lib

/-- What rows and items are joined on, and how a row takes an item, which leaves its key. -/
structure Join (α β κ : Type) where
  keyOf : α → κ
  key : β → κ
  push : β → α → β
  key_push : ∀ row item, key (push row item) = key row

namespace Join

variable {α β κ : Type} [DecidableEq κ] (j : Join α β κ)

/-- The item goes to the first row of its key. -/
def attach (item : α) : List β → List β
  | [] => []
  | row :: rows => if j.key row = j.keyOf item then j.push row item :: rows else row :: attach item rows

/-- Each row with the items of its key, but for those that an earlier row has. -/
def join : List β → List α → List β
  | [], _ => []
  | row :: rows, items =>
    (items.filter fun item => j.keyOf item = j.key row).foldl j.push row ::
      join rows (items.filter fun item => j.keyOf item ≠ j.key row)

theorem join_nil (rows : List β) : j.join rows [] = rows := by
  induction rows with
  | nil => rfl
  | cons row rows ih => exact congrArg (row :: ·) ih

theorem join_attach (item : α) (rows : List β) :
    ∀ items, j.join (j.attach item rows) items = j.join rows (item :: items) := by
  induction rows with
  | nil => exact fun _ => rfl
  | cons row rows ih =>
    intro items
    by_cases hkey : j.key row = j.keyOf item
    · rw [attach, if_pos hkey, join, join, j.key_push, List.filter_cons_of_pos (by simpa using hkey.symm),
        List.filter_cons_of_neg (by simpa using hkey.symm), List.foldl_cons]
    · rw [attach, if_neg hkey, join, join, ih, List.filter_cons_of_neg (by simpa using Ne.symm hkey),
        List.filter_cons_of_pos (by simpa using Ne.symm hkey)]

/-- **Handing the items out one after the other joins them with the rows.** -/
theorem foldl_attach (items : List α) :
    ∀ rows, items.foldl (fun rows item => j.attach item rows) rows = j.join rows items := by
  induction items with
  | nil => exact fun rows => (j.join_nil rows).symm
  | cons item items ih =>
    intro rows
    rw [List.foldl_cons, ih, join_attach]

/-- Where no two rows have one key, each gets all items of its own. -/
theorem join_of_nodup {rows : List β} :
    ∀ {items : List α}, (rows.map j.key).Nodup → j.join rows items =
      rows.map fun row => (items.filter fun item => j.keyOf item = j.key row).foldl j.push row := by
  induction rows with
  | nil => exact fun _ => rfl
  | cons row rows ih =>
    intro items hnodup
    obtain ⟨hnew, hrows⟩ := List.nodup_cons.mp hnodup
    rw [join, List.map_cons, ih hrows]
    refine congrArg _ (List.map_congr_left fun row' hrow' => ?_)
    have hne : j.key row' ≠ j.key row := fun heq => hnew (heq ▸ List.mem_map_of_mem hrow')
    have hsame : ((items.filter fun item => j.keyOf item ≠ j.key row).filter
        fun item => j.keyOf item = j.key row') = items.filter fun item => j.keyOf item = j.key row' := by
      rw [List.filter_filter]
      refine List.filter_congr fun item _ => ?_
      by_cases hkey : j.keyOf item = j.key row'
      · simp [hkey, hne]
      · simp [hkey]
    rw [hsame]

section View

variable {j} {β' : Type} {j' : Join α β' κ} {view : β → β'} {seen : α → Bool}

omit [DecidableEq κ] in
theorem foldl_push_view
    (hpush : ∀ row item, view (j.push row item) = if seen item then j'.push (view row) item else view row)
    (items : List α) :
    ∀ row, view (items.foldl j.push row) = (items.filter seen).foldl j'.push (view row) := by
  induction items with
  | nil => exact fun _ => rfl
  | cons item items ih =>
    intro row
    rw [List.foldl_cons, ih, hpush]
    by_cases hseen : seen item = true
    · rw [if_pos hseen, List.filter_cons_of_pos hseen, List.foldl_cons]
    · rw [if_neg hseen, List.filter_cons_of_neg hseen]

/-- A view of the rows that shows a part of the items joins the views with this part. -/
theorem map_join (hkeyOf : j'.keyOf = j.keyOf) (hkey : ∀ row, j'.key (view row) = j.key row)
    (hpush : ∀ row item, view (j.push row item) = if seen item then j'.push (view row) item else view row)
    (rows : List β) :
    ∀ items, (j.join rows items).map view = j'.join (rows.map view) (items.filter seen) := by
  induction rows with
  | nil => exact fun _ => rfl
  | cons row rows ih =>
    intro items
    rw [join, List.map_cons, ih, foldl_push_view hpush, List.map_cons, join, hkeyOf, hkey,
      List.filter_comm, List.filter_comm seen]

end View

end Join

end Rtsrv.Lib
