import Mathlib.Data.List.Perm.Basic
import Rtsrv.Lib.Keyed
import Rtsrv.Lib.Run

/-!
# Rtsrv.Lib.Mirror — following a changing set of objects

A follower dumps the objects, fills a table with the rows of what it saw, subscribes to notices of
changes and applies them as they come.  Changes that fall between the dump and the subscription are in
neither, so the table is right from then on exactly when the subscription finds the rows of the dump.
-/

namespace Rtsrv.Lib

variable {ω κ ν τ φ η : Type}

inductive ObjChange (ω : Type) where
  | add (o : ω)
  | replace (old new : ω)
  | remove (o : ω)
  deriving DecidableEq, Repr

/-- What subscribers are told of a change. -/
inductive Notice (ω : Type) where
  | added (o : ω)
  | changed (o : ω)
  | removed (o : ω)
  deriving DecidableEq, Repr

def ObjChange.notice : ObjChange ω → Notice ω
  | .add o => .added o
  | .replace _ new => .changed new
  | .remove o => .removed o

def Notice.obj : Notice ω → ω
  | .added o | .changed o | .removed o => o

def ObjChange.apply [DecidableEq ω] (objs : List ω) : ObjChange ω → Option (List ω)
  | .add o => if o ∈ objs then none else some (o :: objs)
  | .replace old new => if old ∈ objs then some (new :: objs.erase old) else none
  | .remove o => if o ∈ objs then some (objs.erase o) else none

theorem ObjChange.apply_cases [DecidableEq ω] {c : ObjChange ω} {objs objs' : List ω}
    (h : c.apply objs = some objs') :
    (∃ o, c = .add o ∧ objs' = o :: objs) ∨
    (∃ old new, c = .replace old new ∧ old ∈ objs ∧ objs' = new :: objs.erase old) ∨
    ∃ o, c = .remove o ∧ o ∈ objs ∧ objs' = objs.erase o := by
  cases c with
  | add o =>
    rw [apply] at h
    split at h
    · cases h
    · exact .inl ⟨o, rfl, (Option.some.inj h).symm⟩
  | replace old new =>
    rw [apply] at h
    split at h
    next hold => exact .inr (.inl ⟨old, new, rfl, hold, (Option.some.inj h).symm⟩)
    next => cases h
  | remove o =>
    rw [apply] at h
    split at h
    next ho => exact .inr (.inr ⟨o, rfl, ho, (Option.some.inj h).symm⟩)
    next => cases h

/-! ### Rows -/

/-- The table has the rows `rows`, each under its key. -/
def Shows (key : ν → κ) (T : Table κ ν) (rows : List ν) : Prop :=
  ∀ k v, T k = some v ↔ v ∈ rows ∧ key v = k

/-- No two rows have the same key. -/
def DistinctKeys (key : ν → κ) (rows : List ν) : Prop := (rows.map key).Nodup

instance [DecidableEq κ] (key : ν → κ) (rows : List ν) : Decidable (DistinctKeys key rows) :=
  inferInstanceAs (Decidable (List.Nodup _))

section Rows

variable {key : ν → κ} {T : Table κ ν} {rows rows' : List ν} {v : ν}

theorem Shows.congr (h : Shows key T rows) (hsame : ∀ v, v ∈ rows ↔ v ∈ rows') :
    Shows key T rows' := fun k v => (h k v).trans (and_congr_left' (hsame v))

/-- A table has no other rows than those it shows. -/
theorem Shows.same (h : Shows key T rows) (h' : Shows key T rows') (v : ν) :
    v ∈ rows ↔ v ∈ rows' := by
  have hiff := (h (key v) v).symm.trans (h' (key v) v)
  rwa [and_iff_left rfl, and_iff_left rfl] at hiff

theorem DistinctKeys.perm (h : DistinctKeys key rows) (hp : rows.Perm rows') :
    DistinctKeys key rows' := (hp.map key).nodup_iff.mp h

variable [DecidableEq κ]

/-- A row takes the place of the rows that have its key. -/
theorem Shows.overwrite {gone : List ν} (h : Shows key T (gone ++ rows)) (hgone : ∀ u ∈ gone, key u = key v)
    (hd : DistinctKeys key (v :: rows)) :
    Shows key (Function.update T (key v) (some v)) (v :: rows) := by
  have hnew : key v ∉ rows.map key := (List.nodup_cons.mp hd).1
  intro k w
  by_cases hk : k = key v
  · subst hk
    rw [Function.update_self, Option.some.injEq, List.mem_cons]
    refine ⟨fun heq => ⟨.inl heq.symm, by rw [heq]⟩, fun ⟨hor, hkey⟩ => ?_⟩
    rcases hor with rfl | hw
    · rfl
    · exact absurd (hkey ▸ List.mem_map_of_mem hw) hnew
  · rw [Function.update_of_ne hk, h k w, List.mem_append, List.mem_cons]
    refine ⟨fun ⟨hor, hkey⟩ => ⟨?_, hkey⟩, fun ⟨hor, hkey⟩ => ⟨?_, hkey⟩⟩
    · rcases hor with hw | hw
      · exact absurd (hkey.symm.trans (hgone w hw)) hk
      · exact .inr hw
    · rcases hor with rfl | hw
      · exact absurd hkey.symm hk
      · exact .inr hw

theorem Shows.erase (h : Shows key T (v :: rows)) (hd : DistinctKeys key (v :: rows)) :
    Shows key (Function.update T (key v) none) rows := by
  have hgone : key v ∉ rows.map key := (List.nodup_cons.mp hd).1
  intro k w
  by_cases hk : k = key v
  · subst hk
    rw [Function.update_self]
    refine ⟨fun heq => ?_, fun ⟨hw, hkey⟩ => ?_⟩
    · cases heq
    · exact absurd (hkey ▸ List.mem_map_of_mem hw) hgone
  · rw [Function.update_of_ne hk, h k w, List.mem_cons]
    refine ⟨fun ⟨hor, hkey⟩ => ⟨?_, hkey⟩, fun ⟨hw, hkey⟩ => ⟨.inr hw, hkey⟩⟩
    rcases hor with rfl | hw
    · exact absurd hkey.symm hk
    · exact hw

omit [DecidableEq κ] in
/-- The table without some of its rows. -/
theorem Shows.filter (h : Shows key T rows) (p : ν → Bool) :
    Shows key (fun k => (T k).filter p) (rows.filter p) := by
  intro k v
  rw [Option.filter_eq_some_iff, h k v, List.mem_filter, and_right_comm]

/-- Writes a row, if there is one. -/
def putRow (key : ν → κ) (row : Option ν) (T : Table κ ν) : Table κ ν :=
  match row with
  | some v => Function.update T (key v) (some v)
  | none => T

/-- Clears the key of a row, if there is one. -/
def dropRow (key : ν → κ) (row : Option ν) (T : Table κ ν) : Table κ ν :=
  match row with
  | some v => Function.update T (key v) none
  | none => T

variable {row : Option ν} {gone : List ν}

theorem Shows.putRow (h : Shows key T (gone ++ rows)) (hgone : ∀ u ∈ gone, ∃ v ∈ row, key v = key u)
    (hd : DistinctKeys key (row.toList ++ rows)) : Shows key (putRow key row T) (row.toList ++ rows) := by
  cases row with
  | none =>
    cases gone with
    | nil => exact h
    | cons u gone =>
      obtain ⟨v, hv, -⟩ := hgone u List.mem_cons_self
      cases hv
  | some v =>
    refine h.overwrite (fun u hu => ?_) hd
    obtain ⟨w, hw, hkey⟩ := hgone u hu
    obtain rfl := Option.some.inj hw
    exact hkey.symm

theorem Shows.dropRow (h : Shows key T (row.toList ++ rows)) (hd : DistinctKeys key (row.toList ++ rows)) :
    Shows key (dropRow key row T) rows := by
  cases row with
  | none => exact h
  | some v => exact h.erase hd

omit [DecidableEq κ] in
/-- The rows of one of some objects stand beside those of the others. -/
theorem rows_perm_erase [DecidableEq ω] (rowsOf : ω → List ν) {objs : List ω} {o : ω} (ho : o ∈ objs) :
    (objs.flatMap rowsOf).Perm (rowsOf o ++ (objs.erase o).flatMap rowsOf) :=
  (List.perm_cons_erase ho).flatMap_right rowsOf

end Rows

/-! ### Followers -/

/-- A follower with a table of type `τ`: `fill` makes the table from a dump, `live` applies a notice, and
`φ` and `η` are what else these depend on.  `rowsOf` are the rows that an object should have, `effect` what a
notice does to the rows.  The laws hold for dumps of `dumpable` objects and for `tame` changes. -/
structure Follower (ω κ ν τ φ η : Type) [DecidableEq ω] where
  key : ν → κ
  rowsOf : ω → List ν
  contents : τ → Table κ ν
  fill : φ → List ω → τ
  live : η → Notice ω → τ → τ
  effect : Notice ω → Table κ ν → Table κ ν
  dumpable : ω → Prop
  tame : List ω → ObjChange ω → Prop
  contents_live : ∀ a n t, contents (live a n t) = effect n (contents t)
  fill_shows : ∀ a objs, DistinctKeys key (objs.flatMap rowsOf) → (∀ o ∈ objs, dumpable o) →
    Shows key (contents (fill a objs)) (objs.flatMap rowsOf)
  effect_shows : ∀ objs c objs' T, DistinctKeys key (objs.flatMap rowsOf) → tame objs c →
    c.apply objs = some objs' → DistinctKeys key (objs'.flatMap rowsOf) →
    Shows key T (objs.flatMap rowsOf) → Shows key (effect c.notice T) (objs'.flatMap rowsOf)

/-- How far the follower has come. -/
inductive MirrorPhase where
  | opened
  | dumped
  | filled
  | live
  deriving DecidableEq, Repr

/-- The objects, what the dump saw of them, the table, and the notices not yet applied. -/
structure Mirror (ω τ : Type) where
  objs : List ω
  dumped : List ω
  table : τ
  phase : MirrorPhase
  pending : List (Notice ω)

inductive MirrorAction (ω φ η : Type) where
  | change (c : ObjChange ω)
  | dump (ok : Bool)
  | fill (a : φ)
  | subscribe
  | process (a : η)

/-- Before the dump. -/
def Mirror.start (objs : List ω) (table : τ) : Mirror ω τ := ⟨objs, [], table, .opened, []⟩

/-- Objects change at any time; a subscribed follower gets a notice. -/
def Mirror.change [DecidableEq ω] (m : Mirror ω τ) (c : ObjChange ω) : Option (Mirror ω τ) :=
  match c.apply m.objs with
  | none => none
  | some objs =>
    match m.phase with
    | .live => some { m with objs := objs, pending := m.pending ++ [c.notice] }
    | _ => some { m with objs := objs }

variable [DecidableEq ω] (F : Follower ω κ ν τ φ η)

def mirrorStep (m : Mirror ω τ) : MirrorAction ω φ η → Option (Mirror ω τ)
  | .change c => m.change c
  | .dump ok =>
    match m.phase with
    | .opened => some { m with dumped := if ok then m.objs else [], phase := .dumped }
    | _ => none
  | .fill a =>
    match m.phase with
    | .dumped => some { m with table := F.fill a m.dumped, phase := .filled }
    | _ => none
  | .subscribe =>
    match m.phase with
    | .filled => some { m with phase := .live }
    | _ => none
  | .process a =>
    match m.phase, m.pending with
    | .live, n :: rest => some { m with table := F.live a n m.table, pending := rest }
    | _, _ => none

namespace Follower

/-- The rows that some objects should have. -/
def rows (objs : List ω) : List ν := objs.flatMap F.rowsOf

/-- The table has exactly the rows of the objects. -/
def Current (m : Mirror ω τ) : Prop := Shows F.key (F.contents m.table) (F.rows m.objs)

/-- The objects have the same rows as those that the dump saw. -/
def Undisturbed (m : Mirror ω τ) : Prop := ∀ v, v ∈ F.rows m.dumped ↔ v ∈ F.rows m.objs

/-- The changes and the dump are of the kind that the laws are about. -/
def Tame (m : Mirror ω τ) : MirrorAction ω φ η → Prop
  | .change c => (m.phase = .live → F.tame m.objs c) ∧
    ∀ objs ∈ c.apply m.objs, DistinctKeys F.key (F.rows objs)
  | .dump _ => ∀ o ∈ m.objs, F.dumpable o
  | .fill _ | .subscribe | .process _ => True

/-- The rows that the table will have when all notices have been applied. -/
def ahead (m : Mirror ω τ) : Table κ ν :=
  m.pending.foldl (fun T n => F.effect n T) (F.contents m.table)

/-- Before the subscription: the table is that of the dump. -/
structure Starting (m : Mirror ω τ) : Prop where
  distinct : DistinctKeys F.key (F.rows m.objs)
  notices : m.phase ≠ .live → m.pending = []
  dumped : m.phase = .dumped →
    DistinctKeys F.key (F.rows m.dumped) ∧ ∀ o ∈ m.dumped, F.dumpable o
  filled : m.phase = .filled → Shows F.key (F.contents m.table) (F.rows m.dumped)

/-- From the subscription on: nothing is missing but what the queue holds. -/
structure Following (m : Mirror ω τ) : Prop where
  live : m.phase = .live
  distinct : DistinctKeys F.key (F.rows m.objs)
  ahead : Shows F.key (F.ahead m) (F.rows m.objs)

variable {F}

theorem starting_start {objs : List ω} {table : τ} (h : DistinctKeys F.key (F.rows objs)) :
    F.Starting (.start objs table) := by
  refine ⟨h, fun _ => rfl, fun hp => ?_, fun hp => ?_⟩ <;> cases hp

variable {m m' : Mirror ω τ} {b : MirrorAction ω φ η}

theorem change_cases {c : ObjChange ω} (h : m.change c = some m') :
    ∃ objs, c.apply m.objs = some objs ∧
      (m.phase = .live ∧ m' = { m with objs := objs, pending := m.pending ++ [c.notice] } ∨
        m.phase ≠ .live ∧ m' = { m with objs := objs }) := by
  rw [Mirror.change] at h
  cases hc : c.apply m.objs with
  | none =>
    rw [hc] at h
    cases h
  | some objs =>
    rw [hc] at h
    refine ⟨objs, rfl, ?_⟩
    dsimp only at h
    split at h
    next hlive => exact .inl ⟨hlive, (Option.some.inj h).symm⟩
    next hnot => exact .inr ⟨hnot, (Option.some.inj h).symm⟩

theorem dump_some {ok : Bool} (h : mirrorStep F m (.dump ok) = some m') :
    m.phase = .opened ∧ m' = { m with dumped := if ok then m.objs else [], phase := .dumped } := by
  rw [mirrorStep] at h
  split at h
  next hp => exact ⟨hp, (Option.some.inj h).symm⟩
  next => cases h

theorem fill_some {a : φ} (h : mirrorStep F m (.fill a) = some m') :
    m.phase = .dumped ∧ m' = { m with table := F.fill a m.dumped, phase := .filled } := by
  rw [mirrorStep] at h
  split at h
  next hp => exact ⟨hp, (Option.some.inj h).symm⟩
  next => cases h

theorem subscribe_some (h : mirrorStep F m .subscribe = some m') :
    m.phase = .filled ∧ m' = { m with phase := .live } := by
  rw [mirrorStep] at h
  split at h
  next hp => exact ⟨hp, (Option.some.inj h).symm⟩
  next => cases h

theorem process_some {a : η} (h : mirrorStep F m (.process a) = some m') :
    ∃ n rest, m.phase = .live ∧ m.pending = n :: rest ∧
      m' = { m with table := F.live a n m.table, pending := rest } := by
  rw [mirrorStep] at h
  split at h
  next n rest hp hpend => exact ⟨n, rest, hp, hpend, (Option.some.inj h).symm⟩
  next => cases h

/-- Once live, only the keys count. -/
theorem starting_of_live (hlive : m.phase = .live) (hd : DistinctKeys F.key (F.rows m.objs)) :
    F.Starting m := by
  refine ⟨hd, fun hp => absurd hlive hp, fun hp => ?_, fun hp => ?_⟩
  · exact absurd (hp.symm.trans hlive) (by decide)
  · exact absurd (hp.symm.trans hlive) (by decide)

theorem starting_step (hm : F.Starting m) (ht : F.Tame m b) (h : mirrorStep F m b = some m') :
    F.Starting m' := by
  cases b with
  | change c =>
    obtain ⟨objs, hc, hor⟩ := change_cases h
    have hd : DistinctKeys F.key (F.rows objs) := ht.2 objs hc
    rcases hor with ⟨hlive, rfl⟩ | ⟨-, rfl⟩
    · exact starting_of_live hlive hd
    · exact ⟨hd, hm.notices, hm.dumped, hm.filled⟩
  | dump ok =>
    obtain ⟨hp, rfl⟩ := dump_some h
    have hnot : m.phase ≠ .live := by rw [hp]; decide
    refine ⟨hm.distinct, fun _ => hm.notices hnot, fun _ => ?_, fun hp' => ?_⟩
    · cases ok with
      | true => exact ⟨hm.distinct, ht⟩
      | false => exact ⟨List.nodup_nil, fun o ho => absurd ho List.not_mem_nil⟩
    · cases hp'
  | fill a =>
    obtain ⟨hp, rfl⟩ := fill_some h
    obtain ⟨hd, hdump⟩ := hm.dumped hp
    have hnot : m.phase ≠ .live := by rw [hp]; decide
    refine ⟨hm.distinct, fun _ => hm.notices hnot, fun hp' => ?_, fun _ => ?_⟩
    · cases hp'
    · exact F.fill_shows a m.dumped hd hdump
  | subscribe =>
    obtain ⟨-, rfl⟩ := subscribe_some h
    exact starting_of_live rfl hm.distinct
  | process a =>
    obtain ⟨n, rest, hlive, -, rfl⟩ := process_some h
    exact starting_of_live hlive hm.distinct

theorem following_step (hm : F.Following m) (ht : F.Tame m b) (h : mirrorStep F m b = some m') :
    F.Following m' := by
  have hlive := hm.live
  cases b with
  | change c =>
    obtain ⟨objs, hc, ⟨-, rfl⟩ | ⟨hnot, -⟩⟩ := change_cases h
    · have hd : DistinctKeys F.key (F.rows objs) := ht.2 objs hc
      refine ⟨hlive, hd, ?_⟩
      show Shows F.key ((m.pending ++ [c.notice]).foldl _ _) _
      rw [List.foldl_append]
      exact F.effect_shows m.objs c objs _ hm.distinct (ht.1 hlive) hc hd hm.ahead
    · exact absurd hlive hnot
  | dump ok => exact absurd ((dump_some h).1.symm.trans hlive) (by decide)
  | fill a => exact absurd ((fill_some h).1.symm.trans hlive) (by decide)
  | subscribe => exact absurd ((subscribe_some h).1.symm.trans hlive) (by decide)
  | process a =>
    obtain ⟨n, rest, -, hpend, rfl⟩ := process_some h
    refine ⟨hlive, hm.distinct, ?_⟩
    have hahead := hm.ahead
    rw [Follower.ahead, hpend, List.foldl_cons, ← F.contents_live a] at hahead
    exact hahead

theorem following_subscribe (hm : F.Starting m) (h : mirrorStep F m .subscribe = some m')
    (hsame : F.Undisturbed m) : F.Following m' := by
  obtain ⟨hp, rfl⟩ := subscribe_some h
  have hpend : m.pending = [] := hm.notices (by rw [hp]; decide)
  refine ⟨rfl, hm.distinct, ?_⟩
  show Shows F.key (m.pending.foldl _ _) _
  rw [hpend]
  exact (hm.filled hp).congr hsame

/-! ### Systems with followers in them -/

variable {σ α : Type} {step : σ → α → Option σ} {tame : σ → α → Prop}

/-- Each tame step of the system leaves the follower `proj` alone or is a tame step of it. -/
def Component (F : Follower ω κ ν τ φ η) (step : σ → α → Option σ) (tame : σ → α → Prop)
    (proj : σ → Mirror ω τ) : Prop :=
  ∀ s a s', tame s a → step s a = some s' →
    proj s' = proj s ∨ ∃ b, F.Tame (proj s) b ∧ mirrorStep F (proj s) b = some (proj s')

/-- What each tame step of the follower keeps, each run of the system keeps. -/
theorem component_invariant {proj : σ → Mirror ω τ} (hc : Component F step tame proj)
    {Inv : Mirror ω τ → Prop}
    (hinv : ∀ m b m', Inv m → F.Tame m b → mirrorStep F m b = some m' → Inv m')
    {s t : σ} {as : List α} (hs : Inv (proj s)) (ht : Along step tame s as)
    (hrun : run step s as = some t) : Inv (proj t) := by
  have hstep : ∀ s a s', Inv (proj s) → tame s a → step s a = some s' → Inv (proj s') := by
    intro s a s' hi hta h
    rcases hc s a s' hta h with heq | ⟨b, hb, hmirror⟩
    · rw [heq]
      exact hi
    · exact hinv _ b _ hi hb hmirror
  exact @run_invariant σ α step tame (fun s => Inv (proj s)) hstep s t as hs ht hrun

/-- From the state `s` on, the follower is right whenever no notice waits. -/
def FollowsFrom (F : Follower ω κ ν τ φ η) (step : σ → α → Option σ) (tame : σ → α → Prop)
    (proj : σ → Mirror ω τ) (s : σ) : Prop :=
  ∀ as t, run step s as = some t → Along step tame s as → (proj t).pending = [] → F.Current (proj t)

/-- **Following from the subscription on**: every later state without pending notices shows the objects,
exactly when the subscription found the rows that the dump had seen. -/
theorem component_follows_iff {proj : σ → Mirror ω τ} (hc : Component F step tame proj)
    {s₀ s s' : σ} {as : List α} (hstart : F.Starting (proj s₀)) (ht : Along step tame s₀ as)
    (hrun : run step s₀ as = some s) (hsub : mirrorStep F (proj s) .subscribe = some (proj s')) :
    F.FollowsFrom step tame proj s' ↔ F.Undisturbed (proj s) := by
  have hm : F.Starting (proj s) :=
    component_invariant hc (fun _ _ _ hi hb h => starting_step hi hb h) hstart ht hrun
  refine ⟨fun hall => ?_, fun hsame as' t hrun' ht' hpend => ?_⟩
  · -- at the subscription itself the table is still that of the dump
    obtain ⟨hp, heq⟩ := subscribe_some hsub
    have hpend : (proj s').pending = [] := by
      rw [heq]
      exact hm.notices (by rw [hp]; decide)
    have hnow := hall [] s' rfl trivial hpend
    rw [heq] at hnow
    exact (hm.filled hp).same hnow
  · have hfollow : F.Following (proj t) :=
      component_invariant hc (fun _ _ _ hi hb h => following_step hi hb h)
        (following_subscribe hm hsub hsame) ht' hrun'
    have hahead := hfollow.ahead
    rw [Follower.ahead, hpend] at hahead
    exact hahead

end Follower

end Rtsrv.Lib
