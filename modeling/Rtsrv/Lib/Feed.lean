import Rtsrv.Lib.KeyedFollower

/-!
# Rtsrv.Lib.Feed — subscribing before the dump

A follower that subscribes first gets everything through one queue: a notice of each change and, once it has
asked for a dump, objects as they are when their turn comes, then a mark.  Dump and notices overlap in any
order.  The table has no stale row at any time, and behind the mark it misses none.
-/

namespace Rtsrv.Lib

variable {ω κ ν : Type}

/-- What the follower is sent. -/
inductive FeedMsg (ω : Type) where
  | notice (n : Notice ω)
  | dumped (o : ω)
  | done
  deriving DecidableEq, Repr

inductive DumpPhase where
  | idle
  | sending
  | sent
  deriving DecidableEq, Repr

/-- The objects, those that were there at the subscription and that nothing has been sent about, and what was
sent so far. -/
structure Feed (ω : Type) where
  objs : List ω
  unsent : List ω
  sent : List (FeedMsg ω)
  phase : DumpPhase
  deriving DecidableEq, Repr

inductive FeedAction (ω : Type) where
  | change (c : ObjChange ω)
  | request
  | send (o : ω)
  | finish
  deriving DecidableEq, Repr

/-- At the subscription. -/
def Feed.start (objs : List ω) : Feed ω := ⟨objs, objs, [], .idle⟩

/-- The object that is no more. -/
def ObjChange.old : ObjChange ω → Option ω
  | .add _ => none
  | .replace old _ => some old
  | .remove o => some o

section Feed

variable [DecidableEq ω]

/-- A dump sends objects that are there, in any order and more than once, and comes to its end when each
object that has not changed since the subscription has been sent. -/
def feedStep (f : Feed ω) : FeedAction ω → Option (Feed ω)
  | .change c =>
    match c.apply f.objs with
    | none => none
    | some objs => some { f with
        objs := objs
        unsent := f.unsent.filter fun o => some o ≠ c.old
        sent := f.sent ++ [.notice c.notice] }
  | .request =>
    match f.phase with
    | .idle => some { f with phase := .sending }
    | .sending | .sent => none
  | .send o =>
    if f.phase = .sending ∧ o ∈ f.objs then
      some { f with unsent := f.unsent.filter (· ≠ o), sent := f.sent ++ [.dumped o] }
    else none
  | .finish =>
    if f.phase = .sending ∧ f.unsent = [] then some { f with sent := f.sent ++ [.done], phase := .sent }
    else none

variable {f f' : Feed ω} {b : FeedAction ω}

/-- All that a step can do. -/
theorem feedStep_cases (h : feedStep f b = some f') :
    (∃ c objs, b = .change c ∧ c.apply f.objs = some objs ∧ f' = { f with
      objs := objs
      unsent := f.unsent.filter fun o => some o ≠ c.old
      sent := f.sent ++ [.notice c.notice] }) ∨
    (b = .request ∧ f.phase = .idle ∧ f' = { f with phase := .sending }) ∨
    (∃ o, b = .send o ∧ f.phase = .sending ∧ o ∈ f.objs ∧
      f' = { f with unsent := f.unsent.filter (· ≠ o), sent := f.sent ++ [.dumped o] }) ∨
    (b = .finish ∧ f.phase = .sending ∧ f.unsent = [] ∧
      f' = { f with sent := f.sent ++ [.done], phase := .sent }) := by
  cases b with
  | change c =>
    rw [feedStep] at h
    cases hc : c.apply f.objs with
    | none => rw [hc] at h; cases h
    | some objs =>
      rw [hc] at h
      exact .inl ⟨c, objs, rfl, hc, (Option.some.inj h).symm⟩
  | request =>
    rw [feedStep] at h
    split at h
    next hp => exact .inr (.inl ⟨rfl, hp, (Option.some.inj h).symm⟩)
    all_goals cases h
  | send o =>
    rw [feedStep] at h
    split_ifs at h with hsend
    exact .inr (.inr (.inl ⟨o, rfl, hsend.1, hsend.2, (Option.some.inj h).symm⟩))
  | finish =>
    rw [feedStep] at h
    split_ifs at h with hfinish
    exact .inr (.inr (.inr ⟨rfl, hfinish.1, hfinish.2, (Option.some.inj h).symm⟩))

/-! ### The mark -/

/-- The mark is sent once, at the end of the dump, and by then nothing is unsent. -/
structure Feed.Marked (f : Feed ω) : Prop where
  unmarked : f.phase ≠ .sent → FeedMsg.done ∉ f.sent
  marked : f.phase = .sent → f.unsent = [] ∧
    ∃ before after, f.sent = before ++ .done :: after ∧ FeedMsg.done ∉ before ∧ FeedMsg.done ∉ after

omit [DecidableEq ω] in
theorem marked_start (objs : List ω) : (Feed.start objs).Marked := by
  refine ⟨fun _ => List.not_mem_nil, fun hp => ?_⟩
  cases hp

omit [DecidableEq ω] in
theorem not_done_append {msgs : List (FeedMsg ω)} {msg : FeedMsg ω} (h : FeedMsg.done ∉ msgs)
    (hmsg : msg ≠ .done) : FeedMsg.done ∉ msgs ++ [msg] := by
  intro hmem
  rcases List.mem_append.mp hmem with hmem | hmem
  · exact h hmem
  · exact hmsg (List.mem_singleton.mp hmem).symm

theorem marked_step (hf : f.Marked) (h : feedStep f b = some f') : f'.Marked := by
  obtain ⟨c, objs, rfl, -, rfl⟩ | ⟨rfl, hidle, rfl⟩ | ⟨o, rfl, hsending, -, rfl⟩ |
    ⟨rfl, hsending, hunsent, rfl⟩ := feedStep_cases h
  · refine ⟨fun hp => not_done_append (hf.unmarked hp) (by simp), fun hp => ?_⟩
    obtain ⟨hunsent, before, after, hsent, hbefore, hafter⟩ := hf.marked hp
    refine ⟨by simp [hunsent], before, after ++ [.notice c.notice], ?_, hbefore,
      not_done_append hafter (by simp)⟩
    simp [hsent]
  · refine ⟨fun _ => hf.unmarked (by rw [hidle]; decide), fun hp => ?_⟩
    cases hp
  · have hnot : f.phase ≠ .sent := by rw [hsending]; decide
    exact ⟨fun _ => not_done_append (hf.unmarked hnot) (by simp), fun hp => absurd hp hnot⟩
  · have hnot : f.phase ≠ .sent := by rw [hsending]; decide
    exact ⟨fun hp => absurd rfl hp, fun _ => ⟨hunsent, f.sent, [], rfl, hf.unmarked hnot, List.not_mem_nil⟩⟩

end Feed

/-! ### The table -/

variable (key : ν → κ) (row : ω → ν) [DecidableEq κ]

/-- What a message does to the rows. -/
def FeedMsg.effect : FeedMsg ω → Table κ ν → Table κ ν
  | .notice (.added o) | .notice (.changed o) | .dumped o => putRow key (some (row o))
  | .notice (.removed o) => dropRow key (some (row o))
  | .done => id

/-- The rows after what was sent. -/
def Feed.table (f : Feed ω) : Table κ ν := f.sent.foldl (fun T msg => msg.effect key row T) fun _ => none

/-- The changes are of the kind that a keyed table can follow: a replaced object keeps its key, and no two
objects have the same one. -/
def Feed.Tame [DecidableEq ω] (f : Feed ω) : FeedAction ω → Prop
  | .change c =>
    (∀ old new, c = .replace old new → key (row new) = key (row old)) ∧
      ∀ objs ∈ c.apply f.objs, DistinctKeys key (objs.map row)
  | .request | .send _ | .finish => True

/-- Each row is the row of an object, and an object without row is one of the unsent. -/
structure ShowsBut (T : Table κ ν) (objs unsent : List ω) : Prop where
  sound : ∀ k v, T k = some v → v ∈ objs.map row ∧ key v = k
  complete : ∀ o ∈ objs, o ∉ unsent → T (key (row o)) = some (row o)

structure Feed.Tracked (f : Feed ω) : Prop where
  distinct : DistinctKeys key (f.objs.map row)
  shown : ShowsBut key row (f.table key row) f.objs f.unsent

variable {key row}

omit [DecidableEq κ] in
/-- A removal is a change of that kind. -/
theorem Feed.Tame.remove [DecidableEq ω] {f : Feed ω} (hd : DistinctKeys key (f.objs.map row)) (o : ω) :
    f.Tame key row (.change (.remove o)) := by
  refine ⟨fun _ _ h => (by cases h), fun objs hobjs => ?_⟩
  obtain ⟨o, hc, -⟩ | ⟨old, new, hc, -⟩ | ⟨o, -, -, rfl⟩ := ObjChange.apply_cases hobjs
  · cases hc
  · cases hc
  · exact hd.sublist ((List.erase_sublist.map row).map key)

omit [DecidableEq κ] in
theorem distinctKeys_map {objs : List ω} :
    DistinctKeys key (objs.map row) ↔ objs.Pairwise fun o o' => key (row o) ≠ key (row o') := by
  rw [DistinctKeys, List.map_map, List.Nodup, List.pairwise_map]
  rfl

omit [DecidableEq κ] in
/-- The keys may be replaced by anything that tells the same objects apart. -/
theorem DistinctKeys.of_told {ι : Type} {told : ω → ι}
    (h : ∀ o o', key (row o) = key (row o') ↔ told o = told o') {objs : List ω}
    (hd : DistinctKeys told objs) : DistinctKeys key (objs.map row) := by
  rw [distinctKeys_map]
  simp only [ne_eq, h]
  exact List.pairwise_map.mp hd

omit [DecidableEq κ] in
theorem Feed.Tame.of_told [DecidableEq ω] {ι : Type} {told : ω → ι}
    (h : ∀ o o', key (row o) = key (row o') ↔ told o = told o') {f : Feed ω} {b : FeedAction ω}
    (ht : f.Tame told id b) : f.Tame key row b := by
  cases b with
  | change c =>
    refine ⟨fun old new hc => (h new old).mpr (ht.1 old new hc), fun objs hobjs => ?_⟩
    have hd := ht.2 objs hobjs
    rw [List.map_id] at hd
    exact hd.of_told h
  | request => trivial
  | send o => trivial
  | finish => trivial

omit [DecidableEq κ] in
/-- Objects are told apart by the keys of their rows. -/
theorem DistinctKeys.obj_inj {objs : List ω} (h : DistinctKeys key (objs.map row)) {o o' : ω} (ho : o ∈ objs)
    (ho' : o' ∈ objs) (hkey : key (row o) = key (row o')) : o = o' := by
  rw [DistinctKeys, List.map_map] at h
  exact List.inj_on_of_nodup_map h ho ho' hkey

theorem table_snoc {f : Feed ω} {msg : FeedMsg ω} {objs unsent : List ω} {phase : DumpPhase} :
    Feed.table key row ⟨objs, unsent, f.sent ++ [msg], phase⟩ = msg.effect key row (f.table key row) := by
  rw [Feed.table, List.foldl_append]
  rfl

theorem tracked_start {objs : List ω} (h : DistinctKeys key (objs.map row)) :
    (Feed.start objs).Tracked key row :=
  ⟨h, ⟨fun _ _ hv => (by cases hv), fun _ ho hun => absurd ho hun⟩⟩

variable {f f' : Feed ω} {b : FeedAction ω}

/-- A row that is put is the row of an object, and no other object has its key. -/
theorem ShowsBut.put {T : Table κ ν} {objs objs' unsent unsent' : List ω} {o : ω}
    (h : ShowsBut key row T objs unsent) (ho : o ∈ objs') (hd : DistinctKeys key (objs'.map row))
    (hold : ∀ o' ∈ objs, key (row o') ≠ key (row o) → o' ∈ objs')
    (hnew : ∀ o' ∈ objs', o' ≠ o → o' ∈ objs ∧ (o' ∉ unsent' → o' ∉ unsent)) :
    ShowsBut key row (putRow key (some (row o)) T) objs' unsent' := by
  have hself : putRow key (some (row o)) T (key (row o)) = some (row o) := Function.update_self _ _ _
  have hother : ∀ {k}, k ≠ key (row o) → putRow key (some (row o)) T k = T k :=
    fun hk => Function.update_of_ne hk _ _
  constructor
  · intro k v hv
    by_cases hk : k = key (row o)
    · subst hk
      obtain rfl := Option.some.inj (hself.symm.trans hv)
      exact ⟨List.mem_map_of_mem ho, rfl⟩
    · obtain ⟨hmem, hkey⟩ := h.sound k v ((hother hk).symm.trans hv)
      obtain ⟨o', ho', rfl⟩ := List.mem_map.mp hmem
      exact ⟨List.mem_map_of_mem (hold o' ho' (hkey.trans_ne hk)), hkey⟩
  · intro o' ho' hsent
    by_cases heq : o' = o
    · rw [heq]
      exact hself
    · obtain ⟨hmem, hun⟩ := hnew o' ho' heq
      have hk : key (row o') ≠ key (row o) := fun hk => heq (hd.obj_inj ho' ho hk)
      exact (hother hk).trans (h.complete o' hmem (hun hsent))

/-- Without the row of an object the table shows the others. -/
theorem ShowsBut.drop {T : Table κ ν} {objs objs' unsent unsent' : List ω} {o : ω}
    (h : ShowsBut key row T objs unsent) (ho : o ∈ objs) (hd : DistinctKeys key (objs.map row))
    (hold : ∀ o' ∈ objs, o' ≠ o → o' ∈ objs')
    (hnew : ∀ o' ∈ objs', o' ≠ o ∧ o' ∈ objs ∧ (o' ∉ unsent' → o' ∉ unsent)) :
    ShowsBut key row (dropRow key (some (row o)) T) objs' unsent' := by
  have hself : dropRow key (some (row o)) T (key (row o)) = none := Function.update_self _ _ _
  have hother : ∀ {k}, k ≠ key (row o) → dropRow key (some (row o)) T k = T k :=
    fun hk => Function.update_of_ne hk _ _
  constructor
  · intro k v hv
    have hk : k ≠ key (row o) := by
      rintro rfl
      cases hself.symm.trans hv
    obtain ⟨hmem, hkey⟩ := h.sound k v ((hother hk).symm.trans hv)
    obtain ⟨o', ho', rfl⟩ := List.mem_map.mp hmem
    exact ⟨List.mem_map_of_mem (hold o' ho' fun heq => hk (by rw [← hkey, heq])), hkey⟩
  · intro o' ho' hsent
    obtain ⟨hne, hmem, hun⟩ := hnew o' ho'
    have hk : key (row o') ≠ key (row o) := fun hk => hne (hd.obj_inj hmem ho hk)
    exact (hother hk).trans (h.complete o' hmem (hun hsent))

variable [DecidableEq ω]

theorem Feed.Tracked.change (hf : f.Tracked key row) {c : ObjChange ω} (ht : f.Tame key row (.change c))
    {objs : List ω} (hc : c.apply f.objs = some objs) :
    Feed.Tracked key row { f with
      objs := objs
      unsent := f.unsent.filter fun o => some o ≠ c.old
      sent := f.sent ++ [.notice c.notice] } := by
  have hd : DistinctKeys key (objs.map row) := ht.2 objs hc
  have hnodup : f.objs.Nodup := List.Nodup.of_map row (List.Nodup.of_map key hf.distinct)
  have hunsent : ∀ {o : ω}, some o ≠ c.old → o ∉ f.unsent.filter (fun o => some o ≠ c.old) → o ∉ f.unsent :=
    fun hne hnot hmem => hnot (List.mem_filter.mpr ⟨hmem, decide_eq_true hne⟩)
  refine ⟨hd, ?_⟩
  rw [table_snoc]
  obtain ⟨o, rfl, rfl⟩ | ⟨old, new, rfl, hold, rfl⟩ | ⟨o, rfl, ho, rfl⟩ := ObjChange.apply_cases hc
  · refine hf.shown.put List.mem_cons_self hd (fun o' ho' _ => List.mem_cons_of_mem o ho')
      fun o' ho' hne => ?_
    exact ⟨List.mem_of_ne_of_mem hne ho', hunsent nofun⟩
  · have hkeep := ht.1 old new rfl
    refine hf.shown.put List.mem_cons_self hd (fun o' ho' hk => List.mem_cons_of_mem new ?_)
      fun o' ho' hne => ?_
    · exact (List.mem_erase_of_ne fun heq => hk (by rw [heq, hkeep])).mpr ho'
    · obtain ⟨hne', hmem⟩ := hnodup.mem_erase_iff.mp (List.mem_of_ne_of_mem hne ho')
      exact ⟨hmem, hunsent fun heq => hne' (Option.some.inj heq)⟩
  · refine hf.shown.drop ho hf.distinct (fun o' ho' hne => (List.mem_erase_of_ne hne).mpr ho')
      fun o' ho' => ?_
    obtain ⟨hne, hmem⟩ := hnodup.mem_erase_iff.mp ho'
    exact ⟨hne, hmem, hunsent fun heq => hne (Option.some.inj heq)⟩

theorem tracked_step (hf : f.Tracked key row) (ht : f.Tame key row b) (h : feedStep f b = some f') :
    f'.Tracked key row := by
  obtain ⟨c, objs, rfl, hc, rfl⟩ | ⟨rfl, -, rfl⟩ | ⟨o, rfl, -, ho, rfl⟩ | ⟨rfl, -, -, rfl⟩ := feedStep_cases h
  · exact hf.change ht hc
  · exact ⟨hf.distinct, hf.shown⟩
  · refine ⟨hf.distinct, ?_⟩
    rw [table_snoc]
    refine hf.shown.put ho hf.distinct (fun o' ho' _ => ho') fun o' ho' hne => ⟨ho', fun hnot hmem => ?_⟩
    exact hnot (List.mem_filter.mpr ⟨hmem, decide_eq_true hne⟩)
  · refine ⟨hf.distinct, ?_⟩
    rw [table_snoc]
    exact hf.shown

/-- **From the mark on the table has exactly the rows of the objects**, whatever changed while the dump was
under way and since. -/
theorem feed_shows {objs : List ω} {as : List (FeedAction ω)} (h0 : DistinctKeys key (objs.map row))
    (ht : Along feedStep (Feed.Tame key row) (.start objs) as) (h : run feedStep (.start objs) as = some f) :
    f.Tracked key row ∧ f.Marked ∧ (f.phase = .sent → Shows key (f.table key row) (f.objs.map row)) := by
  have htracked : f.Tracked key row :=
    run_invariant (fun _ _ _ hf ht h => tracked_step hf ht h) (tracked_start h0) ht h
  have hmarked : f.Marked := run_preserves (fun _ _ _ hf h => marked_step hf h) (marked_start objs) h
  refine ⟨htracked, hmarked, fun hsent k v => ⟨htracked.shown.sound k v, ?_⟩⟩
  rintro ⟨hmem, rfl⟩
  obtain ⟨o, ho, rfl⟩ := List.mem_map.mp hmem
  refine htracked.shown.complete o ho ?_
  rw [(hmarked.marked hsent).1]
  exact List.not_mem_nil

end Rtsrv.Lib
