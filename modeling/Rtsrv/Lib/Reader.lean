import Mathlib.Data.List.Basic

/-!
# Rtsrv.Lib.Reader — decoders that walk a finite buffer

A `Reader` consumes the unread suffix of a buffer.  Besides its own errors it has two outcomes that
no correct decoder shows: an access past the end and a loop that makes no progress.  `Parses p enc ok`
says that `p` accepts exactly the encodings `enc a` of the values with `ok a`; the rules below give
it for fixed blocks, counted sequences and sequences that run to the end of the buffer.
-/

namespace Rtsrv.Lib

/-- Why a decoder stops: an error of its protocol, an access outside the buffer, or a loop whose
body consumes nothing. -/
inductive Fault (ε : Type) where
  | error (e : ε)
  | outOfRange
  | diverges
  deriving DecidableEq, Repr

/-- A block of exactly `n` items. -/
structure Block (β : Type) (n : ℕ) where
  items : List β
  length_eq : items.length = n
  deriving DecidableEq, Repr

/-- `n` times the same item. -/
def Block.replicate {β : Type} (n : ℕ) (b : β) : Block β n :=
  ⟨List.replicate n b, List.length_replicate⟩

abbrev Reader (β ε α : Type) := StateT (List β) (Except (Fault ε)) α

variable {β ε α γ : Type}

theorem Block.ext_items {n : ℕ} {a b : Block β n} (h : a.items = b.items) : a = b := by
  cases a; cases b; simpa using h

@[simp] theorem ok_bind (a : α) (f : α → Except ε γ) : (Except.ok a >>= f) = f a := rfl

@[simp] theorem error_bind (e : ε) (f : α → Except ε γ) :
    ((Except.error e : Except ε α) >>= f) = .error e := rfl

theorem except_bind_ok {x : Except ε α} {f : α → Except ε β} {b : β} :
    (x >>= f) = .ok b ↔ ∃ a, x = .ok a ∧ f a = .ok b := by
  cases x with
  | error e => simp [bind, Except.bind]
  | ok a => simp [bind, Except.bind]

theorem except_pure_ok {a b : α} : (pure a : Except ε α) = .ok b ↔ a = b := by
  show Except.ok a = .ok b ↔ _
  rw [Except.ok.injEq]

theorem except_map_ok {x : Except ε α} {f : α → β} {b : β} :
    f <$> x = .ok b ↔ ∃ a, x = .ok a ∧ f a = b := by
  cases x with
  | error e => simp [Functor.map, Except.map]
  | ok a => simp [Functor.map, Except.map]

theorem except_isOk {x : Except ε α} : x.isOk = true ↔ ∃ a, x = .ok a := by
  cases x with
  | error e => simp [Except.isOk, Except.toBool]
  | ok a => simp [Except.isOk, Except.toBool]

/-- `buf.subspan(offset, count)`. -/
def subspan (buf : List β) (offset count : ℕ) : Except (Fault ε) (List β) :=
  if offset + count ≤ buf.length then .ok ((buf.drop offset).take count) else .error .outOfRange

namespace Reader

/-! ### Primitives -/

def fail (e : ε) : Reader β ε α := fun _ => .error (.error e)

/-- Fails with `e` when fewer than `n` items are left. -/
def need (n : ℕ) (e : ε) : Reader β ε Unit := fun s =>
  if s.length < n then .error (.error e) else .ok ((), s)

/-- Fails with `e` unless `c` holds. -/
def check (c : Bool) (e : ε) : Reader β ε Unit := fun s =>
  if c then .ok ((), s) else .error (.error e)

/-- The next `n` items, as a block of that length. -/
def block (n : ℕ) : Reader β ε (Block β n) := fun s =>
  if h : n ≤ s.length then .ok (⟨s.take n, by simp [h]⟩, s.drop n) else .error .outOfRange

def item : Reader β ε β
  | [] => .error .outOfRange
  | b :: s => .ok (b, s)

/-- `size - pos`. -/
def remaining : Reader β ε ℕ := fun s => .ok (s.length, s)

/-- The next `n` items, where `n` was read from the buffer. -/
def slice (n : ℕ) : Reader β ε (List β) := fun s =>
  if n ≤ s.length then .ok (s.take n, s.drop n) else .error .outOfRange

/-! ### Loops -/

/-- `for i < n`: the body `n` times. -/
def counted (p : Reader β ε α) : ℕ → Reader β ε (List α)
  | 0 => pure []
  | n + 1 => do
    let a ← p
    let as ← counted p n
    pure (a :: as)

/-- `while pos < size`, at most `n` rounds. -/
def rounds (p : Reader β ε α) : ℕ → Reader β ε (List α)
  | 0 => fun s => if s = [] then .ok ([], s) else .error .diverges
  | n + 1 => fun s =>
    if s = [] then .ok ([], s)
    else (do let a ← p; let as ← rounds p n; pure (a :: as) : Reader β ε (List α)) s

/-- `while pos < size`: a body that consumes something ends within `size` rounds. -/
def untilEnd (p : Reader β ε α) : Reader β ε (List α) := fun s => rounds p s.length s

/-- `while pos < size` with a `break`: a body that returns `none` ends the loop. -/
def roundsBreak (p : Reader β ε (Option α)) : ℕ → Reader β ε (List α)
  | 0 => fun s => if s = [] then .ok ([], s) else .error .diverges
  | n + 1 => fun s =>
    if s = [] then .ok ([], s)
    else
      (do
        match ← p with
        | none => pure []
        | some a =>
          let as ← roundsBreak p n
          pure (a :: as) : Reader β ε (List α)) s

def untilBreak (p : Reader β ε (Option α)) : Reader β ε (List α) := fun s =>
  roundsBreak p s.length s

/-! ### What a successful read says -/

theorem bind_ok {p : Reader β ε α} {q : α → Reader β ε γ} {s t : List β} {c : γ} :
    (p >>= q) s = .ok (c, t) ↔ ∃ a s', p s = .ok (a, s') ∧ q a s' = .ok (c, t) := by
  change (p s >>= fun r => q r.1 r.2) = .ok (c, t) ↔ _
  cases p s with
  | error e => simp [bind, Except.bind]
  | ok r =>
    obtain ⟨a, s'⟩ := r
    simp [bind, Except.bind]

theorem pure_ok {a b : α} {s t : List β} :
    (pure a : Reader β ε α) s = .ok (b, t) ↔ a = b ∧ s = t := by
  change Except.ok (a, s) = .ok (b, t) ↔ _
  simp

theorem need_ok {n : ℕ} {e : ε} {s t : List β} {u : Unit} :
    need n e s = .ok (u, t) ↔ n ≤ s.length ∧ s = t := by
  unfold need
  split_ifs with h
  · simp [Nat.not_le.mpr h]
  · simp [Nat.not_lt.mp h]

theorem check_ok {c : Bool} {e : ε} {s t : List β} {u : Unit} :
    check c e s = .ok (u, t) ↔ c = true ∧ s = t := by
  cases c <;> simp [check]

theorem block_ok {n : ℕ} {s t : List β} {v : Block β n} :
    (block n : Reader β ε _) s = .ok (v, t) ↔ s = v.items ++ t := by
  unfold block
  constructor
  · intro h
    split_ifs at h with hn
    rw [Except.ok.injEq, Prod.mk.injEq] at h
    obtain ⟨rfl, rfl⟩ := h
    exact (List.take_append_drop n s).symm
  · rintro rfl
    rw [dif_pos (by simp [v.length_eq]), Except.ok.injEq, Prod.mk.injEq]
    exact ⟨Block.ext_items (List.take_left' v.length_eq), List.drop_left' v.length_eq⟩

theorem item_ok {s t : List β} {b : β} : (item : Reader β ε β) s = .ok (b, t) ↔ s = b :: t := by
  cases s with
  | nil => simp [item]
  | cons c s => simp [item]

theorem slice_ok {n : ℕ} {s t v : List β} :
    (slice n : Reader β ε _) s = .ok (v, t) ↔ v.length = n ∧ s = v ++ t := by
  unfold slice
  constructor
  · intro h
    split_ifs at h with hn
    rw [Except.ok.injEq, Prod.mk.injEq] at h
    obtain ⟨rfl, rfl⟩ := h
    exact ⟨List.length_take_of_le hn, (List.take_append_drop n s).symm⟩
  · rintro ⟨rfl, rfl⟩
    rw [if_pos (by simp), List.take_left, List.drop_left]

theorem roundsBreak_nil {p : Reader β ε (Option α)} (n : ℕ) : roundsBreak p n [] = .ok ([], []) := by
  cases n <;> rfl

/-- What a loop with a `break` returns, by its first round. -/
theorem roundsBreak_ok {p : Reader β ε (Option α)} {n : ℕ} {s t : List β} {as : List α} (hs : s ≠ []) :
    roundsBreak p (n + 1) s = .ok (as, t) ↔
      (p s = .ok (none, t) ∧ as = []) ∨
        ∃ a as' s', p s = .ok (some a, s') ∧ roundsBreak p n s' = .ok (as', t) ∧ as = a :: as' := by
  have hround : roundsBreak p (n + 1) s = (do
      match ← p with
      | none => pure []
      | some a =>
        let as ← roundsBreak p n
        pure (a :: as) : Reader β ε (List α)) s := if_neg hs
  rw [hround, bind_ok]
  constructor
  · rintro ⟨o, s', hp, hrest⟩
    cases o with
    | none =>
      obtain ⟨rfl, rfl⟩ := pure_ok.mp hrest
      exact .inl ⟨hp, rfl⟩
    | some a =>
      obtain ⟨as', t', hrounds, hpure⟩ := bind_ok.mp hrest
      obtain ⟨rfl, rfl⟩ := pure_ok.mp hpure
      exact .inr ⟨a, as', s', hp, hrounds, rfl⟩
  · rintro (⟨hp, rfl⟩ | ⟨a, as', s', hp, hrounds, rfl⟩)
    · exact ⟨none, t, hp, pure_ok.mpr ⟨rfl, rfl⟩⟩
    · exact ⟨some a, s', hp, bind_ok.mpr ⟨as', t, hrounds, pure_ok.mpr ⟨rfl, rfl⟩⟩⟩

/-- A loop whose body never fails, and consumes something whenever it goes on, runs to its end. -/
theorem untilBreak_total {p : Reader β ε (Option α)}
    (hp : ∀ s, s ≠ [] → ∃ o t, p s = .ok (o, t) ∧ (o ≠ none → t.length < s.length)) (s : List β) :
    ∃ as t, untilBreak p s = .ok (as, t) := by
  have hrounds : ∀ n s, s.length ≤ n → ∃ as t, roundsBreak p n s = .ok (as, t) := by
    intro n
    induction n with
    | zero =>
      intro s hs
      exact ⟨[], [], by rw [roundsBreak, List.length_eq_zero_iff.mp (Nat.le_zero.mp hs)]; rfl⟩
    | succ n ih =>
      intro s hs
      by_cases hnil : s = []
      · exact ⟨[], [], by rw [hnil, roundsBreak_nil]⟩
      · obtain ⟨o, t, hpo, hlt⟩ := hp s hnil
        cases o with
        | none => exact ⟨[], t, (roundsBreak_ok hnil).mpr (.inl ⟨hpo, rfl⟩)⟩
        | some a =>
          obtain ⟨as, t', hrest⟩ := ih t (by have := hlt (by simp); omega)
          exact ⟨a :: as, t', (roundsBreak_ok hnil).mpr (.inr ⟨a, as, t, hpo, hrest, rfl⟩)⟩
  exact hrounds s.length s (Nat.le_refl _)

/-- A loop with a `break` reads a sequence of whole encodings back. -/
theorem untilBreak_flatMap {p : Reader β ε (Option α)} {enc : α → List β} {ok : α → Prop}
    (hread : ∀ a s, ok a → p (enc a ++ s) = .ok (some a, s)) (hne : ∀ a, enc a ≠ []) {as : List α}
    (hok : ∀ a ∈ as, ok a) : untilBreak p (as.flatMap enc) = .ok (as, []) := by
  have hrounds : ∀ (as : List α) (n : ℕ), (∀ a ∈ as, ok a) → (as.flatMap enc).length ≤ n →
      roundsBreak p n (as.flatMap enc) = .ok (as, []) := by
    intro as
    induction as with
    | nil => intro n _ _; exact roundsBreak_nil n
    | cons a as ih =>
      intro n hok hn
      obtain ⟨ha, has⟩ := List.forall_mem_cons.mp hok
      have hpos := List.length_pos_iff.mpr (hne a)
      rw [List.flatMap_cons, List.length_append] at hn
      obtain ⟨n, rfl⟩ : ∃ m, n = m + 1 := ⟨n - 1, by omega⟩
      have hcons : enc a ++ as.flatMap enc ≠ [] := by simp [hne a]
      rw [List.flatMap_cons]
      exact (roundsBreak_ok hcons).mpr (.inr ⟨a, as, _, hread a _ ha, ih n has (by omega), rfl⟩)
  exact hrounds as _ hok (Nat.le_refl _)

/-- When every round that goes on undoes an encoding, the encodings of the results are what the buffer
starts with. -/
theorem untilBreak_prefix {p : Reader β ε (Option α)} {enc : α → List β} {ok : α → Prop}
    (hp : ∀ a s t, p s = .ok (some a, t) → ok a ∧ s = enc a ++ t) {s t : List β} {as : List α}
    (h : untilBreak p s = .ok (as, t)) : (∀ a ∈ as, ok a) ∧ as.flatMap enc <+: s := by
  have hrounds : ∀ n s as, roundsBreak p n s = .ok (as, t) →
      (∀ a ∈ as, ok a) ∧ as.flatMap enc <+: s := by
    intro n
    induction n with
    | zero =>
      intro s as h
      unfold roundsBreak at h
      split_ifs at h
      obtain ⟨rfl, -⟩ := Prod.mk.inj (Except.ok.inj h)
      exact ⟨by simp, List.nil_prefix⟩
    | succ n ih =>
      intro s as h
      by_cases hnil : s = []
      · rw [hnil, roundsBreak_nil] at h
        obtain ⟨rfl, -⟩ := Prod.mk.inj (Except.ok.inj h)
        exact ⟨by simp, List.nil_prefix⟩
      · rcases (roundsBreak_ok hnil).mp h with ⟨-, rfl⟩ | ⟨a, as, s', ha, hrest, rfl⟩
        · exact ⟨by simp, List.nil_prefix⟩
        · obtain ⟨hok, rfl⟩ := hp a s s' ha
          obtain ⟨hoks, hfront⟩ := ih s' as hrest
          rw [List.flatMap_cons]
          exact ⟨List.forall_mem_cons.mpr ⟨hok, hoks⟩, (List.prefix_append_right_inj _).mpr hfront⟩
  exact hrounds s.length s as h

/-! ### Readers that fail only by their own errors -/

/-- `p` reads inside its buffer and its loops end: it fails with errors of its protocol only. -/
def Safe (p : Reader β ε α) : Prop := ∀ s f, p s = .error f → ∃ e, f = .error e

/-- Whatever `p` reads, it reads something. -/
def Consumes (p : Reader β ε α) : Prop := ∀ s a t, p s = .ok (a, t) → t.length < s.length

theorem bind_error {p : Reader β ε α} {q : α → Reader β ε γ} {s : List β} {f : Fault ε} :
    (p >>= q) s = .error f ↔ p s = .error f ∨ ∃ a t, p s = .ok (a, t) ∧ q a t = .error f := by
  change (p s >>= fun r => q r.1 r.2) = .error f ↔ _
  cases p s with
  | error e => simp [bind, Except.bind]
  | ok r =>
    obtain ⟨a, s'⟩ := r
    simp [bind, Except.bind]

theorem Safe.bind {p : Reader β ε α} {q : α → Reader β ε γ} (hp : Safe p) (hq : ∀ a, Safe (q a)) :
    Safe (p >>= q) := by
  intro s f h
  rcases bind_error.mp h with h | ⟨a, t, -, h⟩
  · exact hp s f h
  · exact hq a t f h

theorem Safe.pure (a : α) : Safe (Pure.pure a : Reader β ε α) := by
  intro s f h
  cases h

theorem Safe.counted {p : Reader β ε α} (hp : Safe p) (n : ℕ) : Safe (Reader.counted p n) := by
  induction n with
  | zero => exact Safe.pure []
  | succ n ih => exact hp.bind fun a => ih.bind fun as => Safe.pure (a :: as)

/-! ### Readers of a fixed size -/

/-- With `n` items left, `p` reads exactly these or reports an error. -/
def Reads (n : ℕ) (p : Reader β ε α) : Prop :=
  ∀ s, n ≤ s.length → (∃ e, p s = .error (.error e)) ∨ ∃ a, p s = .ok (a, s.drop n)

theorem Reads.pure (a : α) : Reads 0 (Pure.pure a : Reader β ε α) := fun _ _ => .inr ⟨a, rfl⟩

theorem Reads.item : Reads 1 (Reader.item : Reader β ε β) := by
  intro s hs
  obtain ⟨b, t, rfl⟩ := List.exists_cons_of_length_pos (l := s) hs
  exact .inr ⟨b, rfl⟩

theorem Reads.check (c : Bool) (e : ε) : Reads 0 (Reader.check c e : Reader β ε Unit) := by
  intro s _
  unfold Reader.check
  split_ifs
  · exact .inr ⟨(), rfl⟩
  · exact .inl ⟨e, rfl⟩

theorem Reads.block (n : ℕ) : Reads n (Reader.block n : Reader β ε (Block β n)) := by
  intro s hs
  exact .inr ⟨_, by rw [Reader.block, dif_pos hs]⟩

theorem Reads.slice (n : ℕ) : Reads n (Reader.slice n : Reader β ε (List β)) := by
  intro s hs
  exact .inr ⟨_, by rw [Reader.slice, if_pos hs]⟩

theorem Reads.bind {m n : ℕ} {p : Reader β ε α} {q : α → Reader β ε γ} (hp : Reads m p)
    (hq : ∀ a, Reads n (q a)) : Reads (m + n) (p >>= q) := by
  intro s hs
  rcases hp s (by omega) with ⟨e, he⟩ | ⟨a, ha⟩
  · exact .inl ⟨e, bind_error.mpr (.inl he)⟩
  · rcases hq a (s.drop m) (by rw [List.length_drop]; omega) with ⟨e, he⟩ | ⟨c, hc⟩
    · exact .inl ⟨e, bind_error.mpr (.inr ⟨a, _, ha, he⟩)⟩
    · rw [List.drop_drop] at hc
      exact .inr ⟨c, bind_ok.mpr ⟨a, _, ha, hc⟩⟩

theorem Reads.counted {m : ℕ} {p : Reader β ε α} (hp : Reads m p) (n : ℕ) :
    Reads (n * m) (Reader.counted p n) := by
  induction n with
  | zero =>
    rw [Nat.zero_mul]
    exact Reads.pure []
  | succ n ih =>
    rw [Nat.add_mul, Nat.one_mul, Nat.add_comm]
    exact hp.bind fun a => ih.bind fun as => Reads.pure (a :: as)

/-! ### Readers that are safe on enough items -/

/-- With `n` items left, `p` fails with errors of its protocol only. -/
def SafeFrom (n : ℕ) (p : Reader β ε α) : Prop :=
  ∀ s f, n ≤ s.length → p s = .error f → ∃ e, f = .error e

theorem Safe.safeFrom {n : ℕ} {p : Reader β ε α} (hp : Safe p) : SafeFrom n p := fun s f _ h => hp s f h

theorem Reads.safeFrom {n : ℕ} {p : Reader β ε α} (hp : Reads n p) : SafeFrom n p := by
  intro s f hs h
  rcases hp s hs with ⟨e, he⟩ | ⟨a, ha⟩
  · rw [he] at h
    exact ⟨e, (Except.error.inj h).symm⟩
  · rw [ha] at h
    cases h

theorem SafeFrom.bind {n : ℕ} {p : Reader β ε α} {q : α → Reader β ε γ} (hp : SafeFrom n p)
    (hq : ∀ a, Safe (q a)) : SafeFrom n (p >>= q) := by
  intro s f hs h
  rcases bind_error.mp h with h | ⟨a, t, -, h⟩
  · exact hp s f hs h
  · exact hq a t f h

/-- A read of a fixed size uses up that many of the items. -/
theorem SafeFrom.read {m n : ℕ} {p : Reader β ε α} {q : α → Reader β ε γ} (hp : Reads m p)
    (hq : ∀ a, SafeFrom n (q a)) : SafeFrom (m + n) (p >>= q) := by
  intro s f hs h
  rcases bind_error.mp h with h | ⟨a, t, ha, h⟩
  · exact hp.safeFrom s f (by omega) h
  · rcases hp s (by omega) with ⟨e, he⟩ | ⟨a', ha'⟩
    · rw [he] at ha
      cases ha
    · obtain ⟨-, rfl⟩ := Prod.mk.inj (Except.ok.inj (ha.symm.trans ha'))
      exact hq a _ f (by rw [List.length_drop]; omega) h

/-- A check of the size in front makes the reader safe. -/
theorem SafeFrom.need {n : ℕ} {p : Reader β ε α} (hp : SafeFrom n p) (e : ε) :
    Safe (Reader.need n e >>= fun _ => p) := by
  intro s f h
  rcases bind_error.mp h with h | ⟨_, t, hneed, h⟩
  · unfold Reader.need at h
    split_ifs at h
    exact ⟨e, (Except.error.inj h).symm⟩
  · obtain ⟨hlen, rfl⟩ := need_ok.mp hneed
    exact hp s f hlen h

theorem SafeFrom.rounds {p : Reader β ε α} (hp : SafeFrom 1 p) (hc : Consumes p) (n : ℕ) :
    ∀ s f, s.length ≤ n → Reader.rounds p n s = .error f → ∃ e, f = .error e := by
  induction n with
  | zero =>
    intro s f hs h
    have hnil : s = [] := List.length_eq_zero_iff.mp (by omega)
    change (if s = [] then _ else _) = _ at h
    rw [if_pos hnil] at h
    cases h
  | succ n ih =>
    intro s f hs h
    unfold Reader.rounds at h
    split_ifs at h with hnil
    rcases bind_error.mp h with h | ⟨a, t, ha, h⟩
    · exact hp s f (List.length_pos_iff.mpr hnil) h
    · have hlt := hc s a t ha
      rcases bind_error.mp h with h | ⟨as, t', -, h⟩
      · exact ih t f (by omega) h
      · cases h

/-- A loop to the end of the buffer ends when every round reads something; its body runs on one item
at least. -/
theorem SafeFrom.untilEnd {p : Reader β ε α} (hp : SafeFrom 1 p) (hc : Consumes p) :
    Safe (Reader.untilEnd p) := fun s f h => SafeFrom.rounds hp hc s.length s f (Nat.le_refl _) h

theorem Safe.untilEnd {p : Reader β ε α} (hp : Safe p) (hc : Consumes p) : Safe (Reader.untilEnd p) :=
  hp.safeFrom.untilEnd hc

end Reader

/-! ### Folds over what was read -/

/-- A fold that may fail does what an abstract fold does, when each step does; `inv` is what is known
of the items that are left. -/
theorem foldlM_refines {σ τ : Type} (f : σ → α → Except ε σ) (g : τ → α → τ) (abs : τ → σ)
    (inv : List α → τ → Prop)
    (hstep : ∀ a as t, inv (a :: as) t → f (abs t) a = .ok (abs (g t a)) ∧ inv as (g t a)) :
    ∀ (as : List α) (t : τ), inv as t → as.foldlM f (abs t) = .ok (abs (as.foldl g t))
  | [], _, _ => rfl
  | a :: as, t, h => by
    obtain ⟨hf, hinv⟩ := hstep a as t h
    rw [List.foldlM_cons, hf, ok_bind, List.foldl_cons]
    exact foldlM_refines f g abs inv hstep as (g t a) hinv

theorem mapM_refines {f : α → Except ε γ} {g : α → γ} :
    ∀ {as : List α}, (∀ a ∈ as, f a = .ok (g a)) → as.mapM f = .ok (as.map g)
  | [], _ => rfl
  | a :: as, h => by
    obtain ⟨ha, has⟩ := List.forall_mem_cons.mp h
    rw [List.mapM_cons, ha, ok_bind, mapM_refines has]
    rfl

/-- What only wraps a result up succeeds with it. -/
theorem bind_pure_iff {x : Except ε α} {f : α → γ} :
    (∃ c, (x >>= fun a => pure (f a)) = .ok c) ↔ ∃ a, x = .ok a := by
  cases x with
  | error e => simp [bind, Except.bind]
  | ok a => exact iff_of_true ⟨f a, rfl⟩ ⟨a, rfl⟩

theorem bind_total {x : Except ε α} {f : α → Except ε γ} (hx : ∃ a, x = .ok a)
    (hf : ∀ a, ∃ c, f a = .ok c) : ∃ c, (x >>= f) = .ok c := by
  obtain ⟨a, rfl⟩ := hx
  exact hf a

theorem ite_total {c : Prop} [Decidable c] {x y : Except ε α} (hx : ∃ a, x = .ok a) (hy : ∃ a, y = .ok a) :
    ∃ a, (if c then x else y) = .ok a := by
  by_cases h : c
  · rw [if_pos h]
    exact hx
  · rw [if_neg h]
    exact hy

theorem bind_const_iff {x : Except ε α} {y : Except ε γ} :
    (∃ c, (x >>= fun _ => y) = .ok c) ↔ (∃ a, x = .ok a) ∧ ∃ c, y = .ok c := by
  cases x with
  | error e => simp [bind, Except.bind]
  | ok a => exact (and_iff_right ⟨a, rfl⟩).symm

theorem bind_fails {x : Except ε α} {f : α → Except ε γ} (hf : ∀ a, ¬∃ c, f a = .ok c) :
    ¬∃ c, (x >>= f) = .ok c := by
  rintro ⟨c, h⟩
  obtain ⟨a, -, hc⟩ := except_bind_ok.mp h
  exact hf a ⟨c, hc⟩

theorem mapM_total {f : α → Except ε γ} : ∀ {as : List α}, (∀ a ∈ as, ∃ c, f a = .ok c) →
    ∃ cs, as.mapM f = .ok cs
  | [], _ => ⟨[], rfl⟩
  | a :: as, h => by
    obtain ⟨ha, has⟩ := List.forall_mem_cons.mp h
    rw [List.mapM_cons]
    exact bind_total ha fun c => bind_total (mapM_total has) fun cs => ⟨_, rfl⟩

/-! ### Writers -/

/-- The outputs of `w` one after the other, or the first error. -/
def writeAll (w : α → Except ε (List β)) : List α → Except ε (List β)
  | [] => .ok []
  | a :: as => do
    let out ← w a
    let rest ← writeAll w as
    pure (out ++ rest)

/-- `w` writes `enc a` for the values in `ok` and refuses the others. -/
def Writes (w : α → Except ε (List β)) (enc : α → List β) (ok : α → Prop) : Prop :=
  ∀ a out, w a = .ok out ↔ ok a ∧ out = enc a

theorem Writes.all {w : α → Except ε (List β)} {enc : α → List β} {ok : α → Prop}
    (h : Writes w enc ok) : Writes (writeAll w) (·.flatMap enc) (∀ a ∈ ·, ok a) := by
  intro as
  induction as with
  | nil => intro out; simp [writeAll, eq_comm]
  | cons a as ih =>
    intro out
    show writeAll w (a :: as) = .ok out ↔ (∀ x ∈ a :: as, ok x) ∧ out = (a :: as).flatMap enc
    rw [List.forall_mem_cons, List.flatMap_cons, writeAll]
    constructor
    · intro hw
      cases ha : w a with
      | error e => rw [ha] at hw; cases hw
      | ok fst =>
        rw [ha, ok_bind] at hw
        cases hr : writeAll w as with
        | error e => rw [hr] at hw; cases hw
        | ok rest =>
          rw [hr] at hw
          obtain ⟨hok, rfl⟩ := (h a fst).mp ha
          obtain ⟨hoks, rfl⟩ := (ih rest).mp hr
          exact ⟨⟨hok, hoks⟩, (Except.ok.inj hw).symm⟩
    · rintro ⟨⟨hok, hoks⟩, rfl⟩
      rw [(h a _).mpr ⟨hok, rfl⟩, (ih _).mpr ⟨hoks, rfl⟩]
      rfl

/-- What is put around a part that is written. -/
theorem writes_bind {x : Except ε (List β)} {ok : Prop} {part : List β}
    (hx : ∀ out, x = .ok out ↔ ok ∧ out = part) (f : List β → List β) (out : List β) :
    (x >>= fun part => pure (f part)) = .ok out ↔ ok ∧ out = f part := by
  rw [except_bind_ok]
  constructor
  · rintro ⟨a, ha, hout⟩
    obtain ⟨hok, rfl⟩ := (hx a).mp ha
    exact ⟨hok, (except_pure_ok.mp hout).symm⟩
  · rintro ⟨hok, rfl⟩
    exact ⟨part, (hx part).mpr ⟨hok, rfl⟩, rfl⟩

/-- What is written behind a check. -/
theorem writes_check {x : Except ε (List β)} {ok : Prop} {part : List β} {P : Prop} [Decidable P] {e : ε}
    (hx : ∀ out, x = .ok out ↔ ok ∧ out = part) (out : List β) :
    (if P then .error e else x) = .ok out ↔ (¬ P ∧ ok) ∧ out = part := by
  by_cases h : P
  · rw [if_pos h]
    simp [h]
  · rw [if_neg h, hx out, and_iff_right h]

/-! ### Readers of an encoding -/

/-- `p` reads what is written of a record and gives what it sees of it. -/
def Views (p : Reader β ε α) (enc : γ → List β) (view : γ → α) : Prop :=
  ∀ s a t, p s = .ok (a, t) ↔ ∃ r, s = enc r ++ t ∧ view r = a

namespace Views

variable {p : Reader β ε α} {enc : γ → List β} {view : γ → α}

/-- A bounded loop to the end reads whole records; `n` rounds are enough for `n` items because no record is
written as nothing. -/
theorem rounds (h : Views p enc view) (hne : ∀ r, enc r ≠ []) (n : ℕ) :
    ∀ s as t, s.length ≤ n →
      (Reader.rounds p n s = .ok (as, t) ↔
        t = [] ∧ ∃ rs : List γ, s = rs.flatMap enc ∧ rs.map view = as) := by
  have hbase : ∀ as t, (Except.ok (([] : List α), ([] : List β)) : Except (Fault ε) _) = .ok (as, t) ↔
      t = [] ∧ ∃ rs : List γ, [] = rs.flatMap enc ∧ rs.map view = as := by
    intro as t
    constructor
    · intro heq
      obtain ⟨rfl, rfl⟩ := Prod.mk.inj (Except.ok.inj heq)
      exact ⟨rfl, [], rfl, rfl⟩
    · rintro ⟨rfl, _ | ⟨r, rs⟩, hrs, rfl⟩
      · rfl
      · rw [List.flatMap_cons, eq_comm, List.append_eq_nil_iff] at hrs
        exact absurd hrs.1 (hne r)
  induction n with
  | zero =>
    intro s as t hs
    obtain rfl : s = [] := List.length_eq_zero_iff.mp (by omega)
    exact hbase as t
  | succ n ih =>
    intro s as t hs
    unfold Reader.rounds
    by_cases hs0 : s = []
    · subst hs0
      exact hbase as t
    · rw [if_neg hs0]
      simp only [Reader.bind_ok, Reader.pure_ok, h _ _ _]
      -- the first record is not empty, so the rest is shorter and `ih` applies to it
      constructor
      · rintro ⟨a, s', ⟨r, rfl, rfl⟩, bs, t', hr, rfl, rfl⟩
        have hpos := List.length_pos_iff.mpr (hne r)
        rw [List.length_append] at hs
        obtain ⟨rfl, rs, rfl, rfl⟩ := (ih s' bs t' (by omega)).mp hr
        exact ⟨rfl, r :: rs, rfl, rfl⟩
      · rintro ⟨rfl, _ | ⟨r, rs⟩, rfl, rfl⟩
        · exact absurd rfl hs0
        · have hpos := List.length_pos_iff.mpr (hne r)
          rw [List.flatMap_cons, List.length_append] at hs
          exact ⟨view r, rs.flatMap enc, ⟨r, rfl, rfl⟩, rs.map view, [],
            (ih _ _ [] (by omega)).mpr ⟨rfl, rs, rfl, rfl⟩, rfl, rfl⟩

theorem untilEnd (h : Views p enc view) (hne : ∀ r, enc r ≠ []) (s : List β) (as : List α) (t : List β) :
    Reader.untilEnd p s = .ok (as, t) ↔ t = [] ∧ ∃ rs : List γ, s = rs.flatMap enc ∧ rs.map view = as :=
  rounds h hne s.length s as t (Nat.le_refl _)

end Views

/-- `p` accepts exactly the encodings of the values in `ok`, and consumes nothing else. -/
def Parses (p : Reader β ε α) (enc : α → List β) (ok : α → Prop) : Prop :=
  ∀ s a t, p s = .ok (a, t) ↔ ok a ∧ s = enc a ++ t

namespace Parses

variable {p : Reader β ε α} {enc : α → List β} {ok : α → Prop}

theorem counted (h : Parses p enc ok) (n : ℕ) :
    Parses (Reader.counted p n) (·.flatMap enc) (fun as => as.length = n ∧ ∀ a ∈ as, ok a) := by
  induction n with
  | zero =>
    intro s as t
    rw [Reader.counted, Reader.pure_ok]
    constructor
    · rintro ⟨rfl, rfl⟩; simp
    · rintro ⟨⟨hlen, -⟩, rfl⟩
      rw [List.length_eq_zero_iff] at hlen
      simp [hlen]
  | succ n ih =>
    intro s as t
    simp only [Reader.counted, Reader.bind_ok, Reader.pure_ok, h _ _ _, ih _ _ _]
    constructor
    · rintro ⟨a, _, ⟨ha, rfl⟩, bs, _, ⟨⟨hlen, hbs⟩, rfl⟩, rfl, rfl⟩
      refine ⟨⟨by simp [hlen], ?_⟩, by simp⟩
      exact List.forall_mem_cons.mpr ⟨ha, hbs⟩
    · rintro ⟨⟨hlen, hok⟩, rfl⟩
      obtain ⟨a, bs, rfl⟩ := List.exists_cons_of_length_eq_add_one hlen
      obtain ⟨ha, hbs⟩ := List.forall_mem_cons.mp hok
      exact ⟨a, _, ⟨ha, by simp⟩, bs, _, ⟨⟨by simpa using hlen, hbs⟩, rfl⟩, rfl, rfl⟩

/-- It views what it accepts as it is. -/
theorem views (h : Parses p enc ok) : Views p (fun a : {a // ok a} => enc a) Subtype.val := by
  intro s a t
  rw [h]
  constructor
  · rintro ⟨ha, rfl⟩
    exact ⟨⟨a, ha⟩, rfl, rfl⟩
  · rintro ⟨⟨a, ha⟩, rfl, rfl⟩
    exact ⟨ha, rfl⟩

/-- A loop to the end reads whole encodings. -/
theorem untilEnd (h : Parses p enc ok) (hne : ∀ a, ok a → enc a ≠ []) (s : List β)
    (as : List α) (t : List β) :
    Reader.untilEnd p s = .ok (as, t) ↔ t = [] ∧ (∀ a ∈ as, ok a) ∧ s = as.flatMap enc := by
  rw [h.views.untilEnd (fun a => hne a a.2)]
  refine and_congr_right fun _ => ⟨?_, ?_⟩
  · rintro ⟨as, rfl, rfl⟩
    refine ⟨fun a ha => ?_, (List.flatMap_map Subtype.val enc as).symm⟩
    obtain ⟨a, -, rfl⟩ := List.mem_map.mp ha
    exact a.2
  · rintro ⟨hok, rfl⟩
    have hvals : (as.attachWith ok hok).map Subtype.val = as := List.attachWith_map_subtype_val hok
    refine ⟨as.attachWith ok hok, ?_, hvals⟩
    rw [← List.flatMap_map Subtype.val enc, hvals]

end Parses

end Rtsrv.Lib
