import Mathlib.Data.List.Basic

/-!
# Rtsrv.Lib.Run — runs of a labelled step function

A system is a partial step function: `step s a` is the state after action `a`, or `none` where `a` is
not possible.  `run` takes a list of actions in order; `Along` says that a condition on the state and
the next action holds at each step of a run.
-/

namespace Rtsrv.Lib

variable {σ α : Type} (step : σ → α → Option σ)

def run (s : σ) : List α → Option σ
  | [] => some s
  | a :: as =>
    match step s a with
    | some s' => run s' as
    | none => none

/-- `P` holds of every state and the action taken in it. -/
def Along (P : σ → α → Prop) (s : σ) : List α → Prop
  | [] => True
  | a :: as => P s a ∧
    match step s a with
    | some s' => Along P s' as
    | none => True

/-- `Along` can be evaluated. -/
def decidableAlong {P : σ → α → Prop} [∀ s a, Decidable (P s a)] (s : σ) :
    (as : List α) → Decidable (Along step P s as)
  | [] => .isTrue trivial
  | a :: as =>
    haveI : Decidable (match step s a with
        | some s' => Along step P s' as
        | none => True) :=
      match step s a with
      | some s' => decidableAlong s' as
      | none => .isTrue trivial
    inferInstanceAs (Decidable (P s a ∧ _))

instance {P : σ → α → Prop} [∀ s a, Decidable (P s a)] (s : σ) (as : List α) :
    Decidable (Along step P s as) := decidableAlong step s as

variable {step}

theorem run_cons {s t : σ} {a : α} {as : List α} :
    run step s (a :: as) = some t ↔ ∃ s', step s a = some s' ∧ run step s' as = some t := by
  rw [run]
  cases step s a with
  | none => simp
  | some s' => simp

theorem run_append {s t : σ} {as bs : List α} :
    run step s (as ++ bs) = some t ↔ ∃ s', run step s as = some s' ∧ run step s' bs = some t := by
  induction as generalizing s with
  | nil => simp [run]
  | cons a as ih =>
    simp only [List.cons_append, run_cons, ih]
    refine ⟨?_, ?_⟩
    · rintro ⟨s', h1, s'', h2, h3⟩
      exact ⟨s'', ⟨s', h1, h2⟩, h3⟩
    · rintro ⟨s'', ⟨s', h1, h2⟩, h3⟩
      exact ⟨s', h1, s'', h2, h3⟩

theorem along_cons {P : σ → α → Prop} {s s' : σ} {a : α} {as : List α} (h : step s a = some s') :
    Along step P s (a :: as) ↔ P s a ∧ Along step P s' as := by
  rw [Along, h]

theorem Along.and {P Q : σ → α → Prop} {s : σ} {as : List α} (hp : Along step P s as)
    (hq : Along step Q s as) : Along step (fun s a => P s a ∧ Q s a) s as := by
  induction as generalizing s with
  | nil => trivial
  | cons a as ih =>
    cases hs : step s a with
    | none =>
      rw [Along, hs] at hp hq ⊢
      exact ⟨⟨hp.1, hq.1⟩, trivial⟩
    | some s' =>
      rw [along_cons hs] at hp hq ⊢
      exact ⟨⟨hp.1, hq.1⟩, ih hp.2 hq.2⟩

/-- A condition on the actions alone. -/
theorem along_of_mem {P : σ → α → Prop} {as : List α} (h : ∀ a ∈ as, ∀ s, P s a) :
    ∀ s, Along step P s as := by
  induction as with
  | nil => intro s; trivial
  | cons a as ih =>
    intro s
    obtain ⟨ha, has⟩ := List.forall_mem_cons.mp h
    cases hs : step s a with
    | none =>
      rw [Along, hs]
      exact ⟨ha s, trivial⟩
    | some s' => exact (along_cons hs).mpr ⟨ha s, ih has s'⟩

/-- **Invariant rule**: what holds at the start and is kept by each step that meets the condition holds
at the end of the run. -/
theorem run_invariant {P : σ → α → Prop} {Inv : σ → Prop}
    (hstep : ∀ s a s', Inv s → P s a → step s a = some s' → Inv s') {s t : σ} {as : List α}
    (hs : Inv s) (hP : Along step P s as) (hrun : run step s as = some t) : Inv t := by
  induction as generalizing s with
  | nil =>
    obtain rfl := Option.some.inj hrun
    exact hs
  | cons a as ih =>
    obtain ⟨s', h1, h2⟩ := run_cons.mp hrun
    rw [along_cons h1] at hP
    exact ih (hstep s a s' hs hP.1 h1) hP.2 h2

/-- What holds at the start and is kept by each step that meets the condition holds before each step. -/
theorem along_invariant {P : σ → α → Prop} {Inv : σ → Prop}
    (hstep : ∀ s a s', Inv s → P s a → step s a = some s' → Inv s') {s : σ} {as : List α}
    (hs : Inv s) (hP : Along step P s as) : Along step (fun s _ => Inv s) s as := by
  induction as generalizing s with
  | nil => trivial
  | cons a as ih =>
    cases h : step s a with
    | none =>
      rw [Along, h]
      exact ⟨hs, trivial⟩
    | some s' =>
      rw [along_cons h] at hP ⊢
      exact ⟨hs, ih (hstep s a s' hs hP.1 h) hP.2⟩

theorem Along.mono {P Q : σ → α → Prop} (hPQ : ∀ s a, P s a → Q s a) {s : σ} {as : List α}
    (hP : Along step P s as) : Along step Q s as := by
  induction as generalizing s with
  | nil => trivial
  | cons a as ih =>
    cases h : step s a with
    | none =>
      rw [Along, h] at hP ⊢
      exact ⟨hPQ s a hP.1, trivial⟩
    | some s' =>
      rw [along_cons h] at hP ⊢
      exact ⟨hPQ s a hP.1, ih hP.2⟩

/-- The rule for an invariant that every step keeps. -/
theorem run_preserves {Inv : σ → Prop} (hstep : ∀ s a s', Inv s → step s a = some s' → Inv s')
    {s t : σ} {as : List α} (hs : Inv s) (hrun : run step s as = some t) : Inv t :=
  run_invariant (P := fun _ _ => True) (fun s a s' hi _ h => hstep s a s' hi h) hs
    (along_of_mem (fun _ _ _ => trivial) s) hrun

/-- **Exact rule**: where a step keeps `Q` exactly when it meets `P`, and `Q` never comes back, `Q` holds
at the end of a run exactly when it held at the start and each step met `P`. -/
theorem run_iff_along {P G : σ → α → Prop} {Inv Q : σ → Prop}
    (hstep : ∀ s a s', Inv s → G s a → step s a = some s' → Inv s' ∧ (Q s' ↔ Q s ∧ P s a))
    {s t : σ} {as : List α} (hs : Inv s) (hG : Along step G s as) (hrun : run step s as = some t) :
    Q t ↔ Q s ∧ Along step P s as := by
  induction as generalizing s with
  | nil =>
    obtain rfl := Option.some.inj hrun
    exact (and_iff_left trivial).symm
  | cons a as ih =>
    obtain ⟨s', h1, h2⟩ := run_cons.mp hrun
    rw [along_cons h1] at hG ⊢
    obtain ⟨hs', hiff⟩ := hstep s a s' hs hG.1 h1
    rw [ih hs' hG.2 h2, hiff, and_assoc]

/-- **Exact rule for every state reached**: where a step from a state with `Q` keeps it exactly when it
meets `P`, `Q` holds after every part of a run exactly when each step of it met `P`. -/
theorem run_all_iff_along {P : σ → α → Prop} {Inv Q : σ → Prop}
    (hstep : ∀ s a s', Inv s → Q s → step s a = some s' → Inv s' ∧ (Q s' ↔ P s a)) {as : List α} :
    ∀ {s t : σ}, Inv s → Q s → run step s as = some t →
      ((∀ bs u, bs <+: as → run step s bs = some u → Q u) ↔ Along step P s as) := by
  induction as with
  | nil =>
    intro s t _ hq _
    refine iff_of_true (fun bs u hbs hu => ?_) trivial
    rw [List.prefix_nil.mp hbs] at hu
    obtain rfl := Option.some.inj hu
    exact hq
  | cons a as ih =>
    intro s t hs hq hrun
    obtain ⟨s', h1, h2⟩ := run_cons.mp hrun
    obtain ⟨hs', hiff⟩ := hstep s a s' hs hq h1
    rw [along_cons h1]
    refine ⟨fun hall => ?_, fun ⟨hp, hrest⟩ bs u hbs hu => ?_⟩
    · have hq' := hall [a] s' (List.cons_prefix_cons.mpr ⟨rfl, List.nil_prefix⟩) (run_cons.mpr ⟨s', h1, rfl⟩)
      refine ⟨hiff.mp hq', (ih hs' hq' h2).mp fun bs u hbs hu => ?_⟩
      exact hall (a :: bs) u (List.cons_prefix_cons.mpr ⟨rfl, hbs⟩) (run_cons.mpr ⟨s', h1, hu⟩)
    · cases bs with
      | nil =>
        obtain rfl := Option.some.inj hu
        exact hq
      | cons b bs =>
        obtain ⟨rfl, htail⟩ := List.cons_prefix_cons.mp hbs
        obtain ⟨s'', h3, h4⟩ := run_cons.mp hu
        obtain rfl := Option.some.inj (h1.symm.trans h3)
        exact (ih hs' (hiff.mpr hp) h2).mpr hrest bs u htail h4

/-! ### States made of components -/

/-- A list of components in which component `i` is `a`, and the same list after it became `b`. -/
theorem split_set {β : Type} {l : List β} {i : ℕ} {a : β} (h : l[i]? = some a) (b : β) :
    ∃ l₁ l₂, l = l₁ ++ a :: l₂ ∧ l.take i = l₁ ∧ l.set i b = l₁ ++ b :: l₂ := by
  obtain ⟨hi, rfl⟩ := List.getElem?_eq_some_iff.mp h
  refine ⟨l.take i, l.drop (i + 1), ?_, rfl, ?_⟩
  · rw [List.getElem_cons_drop, List.take_append_drop]
  · rw [List.set_eq_take_append_cons_drop, if_pos hi]

end Rtsrv.Lib
