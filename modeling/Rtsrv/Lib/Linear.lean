import Mathlib.Data.List.Induction
import Mathlib.Data.List.Nodup
import Rtsrv.Lib.Run

/-!
# Rtsrv.Lib.Linear — calls of a shared object whose handlers take effect at once

Callers make calls, handlers take effect on the object one at a time, and a caller is given the answer or the
error of a channel; anything may come in between, and the handler of a call whose caller has been given an
error may still take effect.  The order of the effects is a linearization: a run of the object's
specification with the answers that were given, which keeps the order of calls that do not overlap.
-/

namespace Rtsrv.Lib

variable {σ τ ι ω δ ρ : Type}

/-- An effect: the call, its operation, and the answer. -/
structure Effect (ι ω ρ : Type) where
  call : ι
  op : ω
  answer : ρ
  deriving DecidableEq, Repr

/-- `δ` is what a handler draws: a new identifier, a reading of the clock. -/
inductive CallAction (ι ω δ : Type) where
  | invoke (call : ι) (op : ω)
  | handle (call : ι) (drawn : δ)
  | reply (call : ι)
  | fail (call : ι)
  deriving DecidableEq, Repr

/-- The object, the calls that were made, the effects so far, and what callers were given, which is nothing on
an error of the channel. -/
structure Calls (σ ι ω ρ : Type) where
  obj : σ
  made : List (ι × ω)
  effects : List (Effect ι ω ρ)
  given : List (ι × Option ρ)

def Calls.start (obj : σ) : Calls σ ι ω ρ := ⟨obj, [], [], []⟩

section Step

variable [DecidableEq ι] (serve : σ → ω → δ → σ × ρ)

/-- Each call is made once, takes effect at most once, and ends once. -/
def callsStep (s : Calls σ ι ω ρ) : CallAction ι ω δ → Option (Calls σ ι ω ρ)
  | .invoke c op =>
    if c ∈ s.made.map Prod.fst then none else some { s with made := s.made ++ [(c, op)] }
  | .handle c d =>
    match s.made.find? (fun call => call.1 = c) with
    | none => none
    | some call =>
      if c ∈ s.effects.map Effect.call then none
      else
        let r := serve s.obj call.2 d
        some { s with obj := r.1, effects := s.effects ++ [⟨c, call.2, r.2⟩] }
  | .reply c =>
    match s.effects.find? (fun e => e.call = c) with
    | none => none
    | some e =>
      if c ∈ s.given.map Prod.fst then none else some { s with given := s.given ++ [(c, some e.answer)] }
  | .fail c =>
    if c ∈ s.made.map Prod.fst ∧ c ∉ s.given.map Prod.fst then
      some { s with given := s.given ++ [(c, none)] }
    else none

variable {serve} {s s' : Calls σ ι ω ρ} {a : CallAction ι ω δ}

/-- All that a step can do. -/
theorem callsStep_cases (h : callsStep serve s a = some s') :
    (∃ c op, a = .invoke c op ∧ c ∉ s.made.map Prod.fst ∧ s' = { s with made := s.made ++ [(c, op)] }) ∨
    (∃ c d op, a = .handle c d ∧ (c, op) ∈ s.made ∧ c ∉ s.effects.map Effect.call ∧
      s' = { s with
        obj := (serve s.obj op d).1
        effects := s.effects ++ [⟨c, op, (serve s.obj op d).2⟩] }) ∨
    (∃ e ∈ s.effects, a = .reply e.call ∧
      s' = { s with given := s.given ++ [(e.call, some e.answer)] }) ∨
    (∃ c, a = .fail c ∧ s' = { s with given := s.given ++ [(c, none)] }) := by
  cases a with
  | invoke c op =>
    rw [callsStep] at h
    split_ifs at h with hmade
    exact .inl ⟨c, op, rfl, hmade, (Option.some.inj h).symm⟩
  | handle c d =>
    rw [callsStep] at h
    cases hfind : s.made.find? (fun call => call.1 = c) with
    | none => rw [hfind] at h; cases h
    | some call =>
      rw [hfind] at h
      dsimp only at h
      split_ifs at h with heffect
      obtain rfl : call.1 = c := by simpa using List.find?_some hfind
      exact .inr (.inl ⟨call.1, d, call.2, rfl, List.mem_of_find?_eq_some hfind, heffect,
        (Option.some.inj h).symm⟩)
  | reply c =>
    rw [callsStep] at h
    cases hfind : s.effects.find? (fun e => e.call = c) with
    | none => rw [hfind] at h; cases h
    | some e =>
      rw [hfind] at h
      dsimp only at h
      split_ifs at h
      obtain rfl : e.call = c := by simpa using List.find?_some hfind
      exact .inr (.inr (.inl ⟨e, List.mem_of_find?_eq_some hfind, rfl, (Option.some.inj h).symm⟩))
  | fail c =>
    rw [callsStep] at h
    split_ifs at h
    exact .inr (.inr (.inr ⟨c, rfl, (Option.some.inj h).symm⟩))

end Step

/-! ### Linearizations -/

section Linear

variable (spec : τ → ω → ρ → τ → Prop)

/-- The effects are a run of the specification. -/
inductive Legal : τ → List (Effect ι ω ρ) → τ → Prop where
  | nil (t : τ) : Legal t [] t
  | cons {t t' t'' : τ} {e : Effect ι ω ρ} {es : List (Effect ι ω ρ)} (first : spec t e.op e.answer t')
      (rest : Legal t' es t'') : Legal t (e :: es) t''

/-- The effects explain the run `as`, which has given callers `given`, from `t₀` to `t`. -/
structure Linearizes (as : List (CallAction ι ω δ)) (given : List (ι × Option ρ)) (t₀ t : τ)
    (es : List (Effect ι ω ρ)) : Prop where
  legal : Legal spec t₀ es t
  once : (es.map Effect.call).Nodup
  made : ∀ e ∈ es, .invoke e.call e.op ∈ as
  answered : ∀ c r, (c, some r) ∈ given → ∃ e ∈ es, e.call = c ∧ e.answer = r
  inTime : ∀ c d op, [.reply c, .invoke d op].Sublist as → d ∈ es.map Effect.call →
    [c, d].Sublist (es.map Effect.call)

/-- What a handler does is a step of the specification, between states that stand for one another. -/
def Implements (serve : σ → ω → δ → σ × ρ) (Stands : σ → τ → Prop) : Prop :=
  ∀ s t op d, Stands s t → ∃ t', spec t op (serve s op d).2 t' ∧ Stands (serve s op d).1 t'

variable {spec}

theorem Legal.snoc {t t' t'' : τ} {es : List (Effect ι ω ρ)} {e : Effect ι ω ρ} (h : Legal spec t es t')
    (he : spec t' e.op e.answer t'') : Legal spec t (es ++ [e]) t'' := by
  induction h with
  | nil t => exact .cons he (.nil _)
  | cons first _ ih => exact .cons first (ih he)

/-- A pair in a list with another last element is in the list before that. -/
theorem pair_of_snoc {α : Type} {ys : List α} {w x y : α} (h : [w, x].Sublist (ys ++ [y])) (hne : x ≠ y) :
    [w, x].Sublist ys := by
  rw [← List.reverse_sublist, List.reverse_append] at h
  rcases List.sublist_cons_iff.mp h with h | ⟨r, hr, -⟩
  · exact List.reverse_sublist.mp h
  · exact absurd (List.cons.inj hr).1 hne

variable [DecidableEq ι] {serve : σ → ω → δ → σ × ρ} {Stands : σ → τ → Prop}

/-- The calls that were made are those of the run, and each caller that was given an answer has its effect. -/
structure Calls.Kept (s : Calls σ ι ω ρ) (as : List (CallAction ι ω δ)) : Prop where
  made : ∀ c op, (c, op) ∈ s.made ↔ .invoke c op ∈ as
  replied : ∀ c, .reply c ∈ as → c ∈ s.effects.map Effect.call

variable {s s' : Calls σ ι ω ρ} {a : CallAction ι ω δ} {as : List (CallAction ι ω δ)}

theorem Calls.Kept.step (hs : s.Kept as) (h : callsStep serve s a = some s') : s'.Kept (as ++ [a]) := by
  have hmade : ∀ c op, CallAction.invoke c op ∈ as ++ [a] ↔ (c, op) ∈ s.made ∨ a = .invoke c op := by
    intro c op
    rw [List.mem_append, List.mem_singleton, ← hs.made, eq_comm (a := a)]
  have hreplied : ∀ c, CallAction.reply c ∈ as ++ [a] → c ∈ s.effects.map Effect.call ∨ a = .reply c := by
    intro c hc
    rcases List.mem_append.mp hc with hc | hc
    · exact .inl (hs.replied c hc)
    · exact .inr (List.mem_singleton.mp hc).symm
  obtain ⟨c, op, rfl, -, rfl⟩ | ⟨c, d, op, rfl, -, -, rfl⟩ | ⟨e, he, rfl, rfl⟩ | ⟨c, rfl, rfl⟩ :=
    callsStep_cases h
  · refine ⟨fun c' op' => ?_, fun c' hc' => (hreplied c' hc').resolve_right (by simp)⟩
    rw [hmade, List.mem_append, List.mem_singleton, CallAction.invoke.injEq, Prod.mk.injEq, eq_comm (a := c),
      @eq_comm _ op]
  · refine ⟨fun c' op' => ?_, fun c' hc' => ?_⟩
    · rw [hmade, or_iff_left (by simp)]
    · rw [List.map_append]
      exact List.mem_append_left _ ((hreplied c' hc').resolve_right (by simp))
  · refine ⟨fun c' op' => ?_, fun c' hc' => ?_⟩
    · rw [hmade, or_iff_left (by simp)]
    · rcases hreplied c' hc' with hc' | hc'
      · exact hc'
      · obtain rfl := CallAction.reply.inj hc'
        exact List.mem_map_of_mem he
  · refine ⟨fun c' op' => ?_, fun c' hc' => (hreplied c' hc').resolve_right (by simp)⟩
    rw [hmade, or_iff_left (by simp)]

/-- The effects so far are a linearization of the run so far. -/
theorem linearizes_step (himpl : Implements spec serve Stands) {t₀ t : τ} (hs : s.Kept as)
    (hl : Linearizes spec as s.given t₀ t s.effects) (hst : Stands s.obj t)
    (h : callsStep serve s a = some s') :
    ∃ t', Linearizes spec (as ++ [a]) s'.given t₀ t' s'.effects ∧ Stands s'.obj t' := by
  have hmade : ∀ e ∈ s.effects, CallAction.invoke e.call e.op ∈ as ++ [a] :=
    fun e he => List.mem_append_left _ (hl.made e he)
  have hkept : (∀ d op, a ≠ .invoke d op) → ∀ c d op, [.reply c, .invoke d op].Sublist (as ++ [a]) →
      [CallAction.reply c, .invoke d op].Sublist as :=
    fun hne c d op hsub => pair_of_snoc hsub (hne d op).symm
  obtain ⟨c, op, rfl, hnew, rfl⟩ | ⟨c, d, op, rfl, hcall, hnew, rfl⟩ | ⟨e, he, rfl, rfl⟩ | ⟨c, rfl, rfl⟩ :=
    callsStep_cases h
  · refine ⟨t, ⟨hl.legal, hl.once, hmade, hl.answered, fun c' d' op' hsub hd' => ?_⟩, hst⟩
    -- the call that is made just now has no effect yet
    by_cases heq : .invoke d' op' = (.invoke c op : CallAction ι ω δ)
    · obtain ⟨rfl, rfl⟩ := CallAction.invoke.inj heq
      obtain ⟨e, he, rfl⟩ := List.mem_map.mp hd'
      exact absurd (List.mem_map_of_mem ((hs.made _ _).mpr (hl.made e he))) hnew
    · exact hl.inTime c' d' op' (pair_of_snoc hsub heq) hd'
  · obtain ⟨t', hspec, hst'⟩ := himpl s.obj t op d hst
    refine ⟨t', ⟨hl.legal.snoc hspec, ?_, fun e he => ?_, fun c' r hr => ?_, fun c' d' op' hsub hd' => ?_⟩,
      hst'⟩
    · rw [List.map_append, List.map_singleton]
      refine List.nodup_append.mpr ⟨hl.once, List.nodup_singleton _, fun x hx y hy heq => hnew ?_⟩
      rwa [← show y = c from List.mem_singleton.mp hy, ← heq]
    · rcases List.mem_append.mp he with he | he
      · exact hmade e he
      · obtain rfl := List.mem_singleton.mp he
        exact List.mem_append_left _ ((hs.made c op).mp hcall)
    · obtain ⟨e, he, hcr⟩ := hl.answered c' r hr
      exact ⟨e, List.mem_append_left _ he, hcr⟩
    · have hsub' := hkept (by simp) c' d' op' hsub
      rw [List.map_append, List.map_singleton] at hd' ⊢
      rcases List.mem_append.mp hd' with hd' | hd'
      · exact (hl.inTime c' d' op' hsub' hd').trans (List.sublist_append_left _ _)
      · -- what was answered before has its effect, and this one comes behind it
        obtain rfl := List.mem_singleton.mp hd'
        have hc' := hs.replied c' (hsub'.subset (by simp))
        exact (List.singleton_sublist.mpr hc').append (List.Sublist.refl [d'])
  · refine ⟨t, ⟨hl.legal, hl.once, hmade, fun c' r hr => ?_, fun c' d' op' hsub hd' =>
      hl.inTime c' d' op' (hkept (by simp) c' d' op' hsub) hd'⟩, hst⟩
    rcases List.mem_append.mp hr with hr | hr
    · exact hl.answered c' r hr
    · obtain ⟨hcall, hanswer⟩ := Prod.mk.inj (List.mem_singleton.mp hr)
      exact ⟨e, he, hcall.symm, (Option.some.inj hanswer).symm⟩
  · refine ⟨t, ⟨hl.legal, hl.once, hmade, fun c' r hr => ?_, fun c' d' op' hsub hd' =>
      hl.inTime c' d' op' (hkept (by simp) c' d' op' hsub) hd'⟩, hst⟩
    rcases List.mem_append.mp hr with hr | hr
    · exact hl.answered c' r hr
    · cases (Prod.mk.inj (List.mem_singleton.mp hr)).2

/-- **Every run is linearizable**, when the handlers implement the specification. -/
theorem linearizable (himpl : Implements spec serve Stands) {obj : σ} {t₀ : τ} (h0 : Stands obj t₀)
    {s : Calls σ ι ω ρ} (h : run (callsStep serve) (.start obj) as = some s) :
    ∃ t, Linearizes spec as s.given t₀ t s.effects ∧ Stands s.obj t := by
  suffices hall : s.Kept as ∧ ∃ t, Linearizes spec as s.given t₀ t s.effects ∧ Stands s.obj t from hall.2
  induction as using List.reverseRecOn generalizing s with
  | nil =>
    obtain rfl := Option.some.inj h
    refine ⟨⟨fun c op => by simp [Calls.start], fun c hc => absurd hc List.not_mem_nil⟩, t₀, ⟨.nil t₀,
      List.nodup_nil, fun e he => absurd he List.not_mem_nil, fun c r hr => absurd hr List.not_mem_nil,
      fun c d op hsub => ?_⟩, h0⟩
    exact absurd (List.sublist_nil.mp hsub) (by simp)
  | append_singleton as a ih =>
    obtain ⟨s₁, hs₁, hlast⟩ := run_append.mp h
    obtain ⟨s₂, hstep, hend⟩ := run_cons.mp hlast
    obtain rfl : s₂ = s := Option.some.inj hend
    obtain ⟨hkept, t, hl, hst⟩ := ih hs₁
    exact ⟨hkept.step hstep, linearizes_step himpl hkept hl hst hstep⟩

end Linear

end Rtsrv.Lib
