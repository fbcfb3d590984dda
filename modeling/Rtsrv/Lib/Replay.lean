import Mathlib.Data.List.Induction
import Mathlib.Logic.Function.Basic

/-!
# Rtsrv.Lib.Replay — keyed tables and logs of changes

A table is a partial function of its keys, and a log is a list of insertions and deletions.  What a
log leaves at a key is decided by the last change of that key, so two logs that list the changes of
each key in the same order leave the same table, however they mix the keys.
-/

namespace Rtsrv.Lib

variable {κ ν : Type}

abbrev Table (κ ν : Type) := κ → Option ν

inductive Change (κ ν : Type) where
  | put (k : κ) (v : ν)
  | del (k : κ)
  deriving DecidableEq, Repr

def Change.key : Change κ ν → κ
  | .put k _ => k
  | .del k => k

/-- What the change leaves at its key. -/
def Change.value : Change κ ν → Option ν
  | .put _ v => some v
  | .del _ => none

variable [DecidableEq κ]

def applyChange (t : Table κ ν) (c : Change κ ν) : Table κ ν := Function.update t c.key c.value

def replay (t : Table κ ν) (log : List (Change κ ν)) : Table κ ν := log.foldl applyChange t

@[simp] theorem replay_nil (t : Table κ ν) : replay t [] = t := rfl

theorem replay_append (t : Table κ ν) (log log' : List (Change κ ν)) :
    replay t (log ++ log') = replay (replay t log) log' := List.foldl_append

theorem replay_concat (t : Table κ ν) (log : List (Change κ ν)) (c : Change κ ν) :
    replay t (log ++ [c]) = Function.update (replay t log) c.key c.value := replay_append t log [c]

/-- Changes of other keys do not matter. -/
theorem replay_filter (t : Table κ ν) (log : List (Change κ ν)) (k : κ) :
    replay t log k = replay t (log.filter (·.key = k)) k := by
  induction log using List.reverseRecOn with
  | nil => rfl
  | append_singleton log c ih =>
    rw [List.filter_append, replay_concat]
    by_cases hk : c.key = k
    · have hf : [c].filter (·.key = k) = [c] := by simp [hk]
      rw [hf, replay_concat, ← hk, Function.update_self, Function.update_self]
    · have hf : [c].filter (·.key = k) = [] := by simp [hk]
      rw [hf, List.append_nil, Function.update_of_ne (Ne.symm hk), ih]

/-- Logs that agree on the changes of each key leave the same table. -/
theorem replay_congr (t : Table κ ν) {log log' : List (Change κ ν)}
    (h : ∀ k, log.filter (·.key = k) = log'.filter (·.key = k)) : replay t log = replay t log' := by
  funext k
  rw [replay_filter t log k, replay_filter t log' k, h k]

/-- A key that the log does not mention keeps its value. -/
theorem replay_of_notMem (t : Table κ ν) {log : List (Change κ ν)} {k : κ}
    (h : ∀ c ∈ log, c.key ≠ k) : replay t log k = t k := by
  have hf : log.filter (·.key = k) = [] := by
    rw [List.filter_eq_nil_iff]
    intro c hc
    simpa using h c hc
  rw [replay_filter, hf, replay_nil]

/-- Insertions of values that are determined by their keys leave exactly these values. -/
theorem replay_puts {key : ν → κ} (l : List ν) (hkey : ∀ v ∈ l, ∀ w ∈ l, key v = key w → v = w)
    (k : κ) (v : ν) :
    replay (fun _ => none) (l.map fun w => .put (key w) w) k = some v ↔ v ∈ l ∧ key v = k := by
  induction l using List.reverseRecOn with
  | nil => simp
  | append_singleton l w ih =>
    have hw : w ∈ l ++ [w] := List.mem_append_right l (List.mem_singleton_self w)
    have ih := ih fun a ha b hb => hkey a (List.mem_append_left _ ha) b (List.mem_append_left _ hb)
    rw [List.map_append, List.map_singleton, replay_concat, Change.key, Change.value]
    by_cases hk : k = key w
    · subst hk
      rw [Function.update_self, Option.some.injEq]
      refine ⟨fun h => ?_, fun h => (hkey v h.1 w hw h.2).symm⟩
      subst h
      exact ⟨hw, rfl⟩
    · rw [Function.update_of_ne hk, ih, List.mem_append, List.mem_singleton]
      refine ⟨fun h => ⟨.inl h.1, h.2⟩, fun h => ⟨?_, h.2⟩⟩
      rcases h.1 with hmem | rfl
      · exact hmem
      · exact absurd h.2.symm hk

end Rtsrv.Lib
