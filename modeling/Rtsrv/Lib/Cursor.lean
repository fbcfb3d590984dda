import Rtsrv.Lib.BigEndian

/-!
# Rtsrv.Lib.Cursor — decoders that keep a position

A `Cursor` keeps an index into a buffer, as a loop over `pos` does: nothing stops the index from passing
the end, an access there is a trap, and so is `end - pos` when it would be below zero.  `Simulates p q`
says that `p` at a position does what the reader `q` does on the items from there on, and that it leaves
the position inside; a simulated reader that is `Safe` makes the cursor free of traps.
-/

namespace Rtsrv.Lib

/-- Why a decoder with positions stops: as a reader does, or at a subtraction below zero. -/
inductive Trap (ε : Type) where
  | fault (f : Fault ε)
  | underflow
  deriving DecidableEq, Repr

/-- A buffer and the position in it where a walk ends. -/
structure Extent (β : Type) where
  buf : List β
  stop : ℕ
  stop_le : stop ≤ buf.length

abbrev Cursor (β ε α : Type) := ReaderT (Extent β) (StateT ℕ (Except (Trap ε))) α

variable {β ε α γ : Type}

/-- The whole buffer. -/
def Extent.whole (buf : List β) : Extent β := ⟨buf, buf.length, Nat.le_refl _⟩

/-- The items from a position to the end. -/
def Extent.items (x : Extent β) (pos : ℕ) : List β := (x.buf.take x.stop).drop pos

namespace Trap

/-- A computation without subtractions. -/
def of (x : Except (Fault ε) α) : Except (Trap ε) α := x.mapError .fault

def fail (e : ε) : Except (Trap ε) α := .error (.fault (.error e))

/-- `a - b` on unsigned numbers. -/
def sub (a b : ℕ) : Except (Trap ε) ℕ := if b ≤ a then .ok (a - b) else .error .underflow

/-- Only errors of the protocol come out: no access outside, no subtraction below zero, no endless loop. -/
def OnlyErrors (x : Except (Trap ε) α) : Prop := ∀ t, x = .error t → ∃ e, t = .fault (.error e)

theorem sub_of_le {a b : ℕ} (h : b ≤ a) : (sub a b : Except (Trap ε) ℕ) = .ok (a - b) := if_pos h

theorem of_bind (x : Except (Fault ε) α) (f : α → Except (Fault ε) γ) :
    of (x >>= f) = of x >>= fun a => of (f a) := by
  cases x <;> rfl

theorem of_ok (a : α) : of (Except.ok a : Except (Fault ε) α) = .ok a := rfl

theorem of_pure (a : α) : of (pure a : Except (Fault ε) α) = pure a := rfl

theorem of_error (e : ε) : of (.error (.error e) : Except (Fault ε) α) = fail e := rfl

theorem of_ite (c : Prop) [Decidable c] (x y : Except (Fault ε) α) :
    of (if c then x else y) = if c then of x else of y := apply_ite of c x y

/-- What fails with errors of its protocol only still does so. -/
theorem onlyErrors_of {x : Except (Fault ε) α} (h : ∀ f, x = .error f → ∃ e, f = .error e) :
    OnlyErrors (of x) := by
  intro t ht
  cases x with
  | ok a => cases ht
  | error f =>
    obtain ⟨e, rfl⟩ := h f rfl
    exact ⟨e, (Except.error.inj ht).symm⟩

theorem onlyErrors_ok (a : α) : OnlyErrors (.ok a : Except (Trap ε) α) := fun _ h => by cases h

theorem onlyErrors_fail (e : ε) : OnlyErrors (fail e : Except (Trap ε) α) := fun _ h =>
  ⟨e, (Except.error.inj h).symm⟩

theorem OnlyErrors.bind {x : Except (Trap ε) α} {f : α → Except (Trap ε) γ} (hx : OnlyErrors x)
    (hf : ∀ a, x = .ok a → OnlyErrors (f a)) : OnlyErrors (x >>= f) := by
  intro t ht
  cases hr : x with
  | error t' =>
    rw [hr, error_bind] at ht
    exact hx t (by rw [hr, Except.error.inj ht])
  | ok a =>
    rw [hr] at ht
    exact hf a hr t ht

theorem OnlyErrors.ite {c : Prop} [Decidable c] {x y : Except (Trap ε) α} (hx : c → OnlyErrors x)
    (hy : ¬c → OnlyErrors y) : OnlyErrors (if c then x else y) := by
  by_cases hc : c
  · rw [if_pos hc]
    exact hx hc
  · rw [if_neg hc]
    exact hy hc

theorem onlyErrors_sub {a b : ℕ} (h : b ≤ a) : OnlyErrors (sub a b : Except (Trap ε) ℕ) := by
  rw [sub_of_le h]
  exact onlyErrors_ok _

theorem onlyErrors_subspan {buf : List β} {offset count : ℕ} (h : offset + count ≤ buf.length) :
    OnlyErrors (of (subspan buf offset count) : Except (Trap ε) (List β)) := by
  rw [subspan, if_pos h]
  exact onlyErrors_ok _

theorem onlyErrors_readAt {buf : List UInt8} {i : ℕ} (h : i < buf.length) :
    OnlyErrors (of (readAt buf i) : Except (Trap ε) UInt8) := by
  rw [readAt, List.getElem?_eq_getElem h]
  exact onlyErrors_ok _

theorem onlyErrors_readBe16 {buf : List UInt8} {offset : ℕ} (h : offset + 2 ≤ buf.length) :
    OnlyErrors (of (readBe16 buf offset) : Except (Trap ε) UInt16) := by
  obtain ⟨v, t, hv⟩ := exists_be16 (s := buf.drop offset) (by rw [List.length_drop]; omega)
  rw [readBe16_of_drop hv]
  exact onlyErrors_ok _

theorem onlyErrors_readBe32 {buf : List UInt8} {offset : ℕ} (h : offset + 4 ≤ buf.length) :
    OnlyErrors (of (readBe32 buf offset) : Except (Trap ε) UInt32) := by
  obtain ⟨v, t, hv⟩ := exists_be32 (s := buf.drop offset) (by rw [List.length_drop]; omega)
  rw [readBe32_of_drop hv]
  exact onlyErrors_ok _

end Trap

namespace Cursor

/-! ### Primitives -/

/-- A computation that leaves the position alone. -/
def lift (r : Except (Trap ε) α) : Cursor β ε α := fun _ pos => r.map (·, pos)

def fail (e : ε) : Cursor β ε α := lift (Trap.fail e)

/-- `end - pos`. -/
def left : Cursor β ε ℕ := fun x pos => (Trap.sub x.stop pos).map (·, pos)

/-- `pos += n`: nothing is compared with the end. -/
def advance (n : ℕ) : Cursor β ε Unit := fun _ pos => .ok ((), pos + n)

/-- The items from `pos` to the end, as a span of their own. -/
def rest : Cursor β ε (List β) := fun x pos =>
  if pos ≤ x.stop then .ok (x.items pos, pos) else .error (.fault .outOfRange)

/-- The items at `[pos, pos + n)`. -/
def range (n : ℕ) : Cursor β ε (List β) := fun x pos => (Trap.of (subspan x.buf pos n)).map (·, pos)

/-- The items at `[pos, pos + n)`, as a block. -/
def copy (n : ℕ) : Cursor β ε (Block β n) := fun x pos =>
  if h : pos + n ≤ x.buf.length then
    .ok (⟨(x.buf.drop pos).take n, by rw [List.length_take, List.length_drop]; omega⟩, pos)
  else .error (.fault .outOfRange)

/-- `raw[pos]`. -/
def peek : Cursor β ε β := fun x pos =>
  match x.buf[pos]? with
  | some b => .ok (b, pos)
  | none => .error (.fault .outOfRange)

/-- `if (end - pos < n) return e;` -/
def need (n : ℕ) (e : ε) : Cursor β ε Unit := do
  if (← left) < n then fail e else pure ()

def check (c : Bool) (e : ε) : Cursor β ε Unit := if c then pure () else fail e

def item : Cursor β ε β := do
  let b ← peek
  advance 1
  pure b

def block (n : ℕ) : Cursor β ε (Block β n) := do
  let b ← copy n
  advance n
  pure b

def slice (n : ℕ) : Cursor β ε (List β) := do
  let s ← range n
  advance n
  pure s

/-- A read at an offset from the position. -/
def readBe16At (offset : ℕ) : Cursor UInt8 ε UInt16 := fun x pos =>
  (Trap.of (Lib.readBe16 x.buf (pos + offset))).map (·, pos)

def be16 : Cursor UInt8 ε UInt16 := do
  let v ← readBe16At 0
  advance 2
  pure v

def be32 : Cursor UInt8 ε UInt32 := do
  let v ← (fun x pos => (Trap.of (readBe32 x.buf pos)).map (·, pos) : Cursor UInt8 ε UInt32)
  advance 4
  pure v

/-! ### Loops -/

/-- `for i < n`. -/
def counted (p : Cursor β ε α) : ℕ → Cursor β ε (List α)
  | 0 => pure []
  | n + 1 => do
    let a ← p
    let as ← counted p n
    pure (a :: as)

/-- `while pos < end`, at most `n` rounds. -/
def rounds (p : Cursor β ε α) : ℕ → Cursor β ε (List α)
  | 0 => fun x pos => if x.stop ≤ pos then .ok ([], pos) else .error (.fault .diverges)
  | n + 1 => fun x pos =>
    if x.stop ≤ pos then .ok ([], pos)
    else (do let a ← p; let as ← rounds p n; pure (a :: as) : Cursor β ε (List α)) x pos

def untilEnd (p : Cursor β ε α) : Cursor β ε (List α) := fun x pos => rounds p (x.stop - pos) x pos

/-- `while pos < end` with a `break`. -/
def roundsBreak (p : Cursor β ε (Option α)) : ℕ → Cursor β ε (List α)
  | 0 => fun x pos => if x.stop ≤ pos then .ok ([], pos) else .error (.fault .diverges)
  | n + 1 => fun x pos =>
    if x.stop ≤ pos then .ok ([], pos)
    else
      (do
        match ← p with
        | none => pure []
        | some a =>
          let as ← roundsBreak p n
          pure (a :: as) : Cursor β ε (List α)) x pos

def untilBreak (p : Cursor β ε (Option α)) : Cursor β ε (List α) := fun x pos =>
  roundsBreak p (x.stop - pos) x pos

end Cursor

/-! ### Cursors that do what a reader does -/

theorem items_length (x : Extent β) (pos : ℕ) : (x.items pos).length = x.stop - pos := by
  rw [Extent.items, List.length_drop, List.length_take_of_le x.stop_le]

theorem items_drop (x : Extent β) (pos n : ℕ) : (x.items pos).drop n = x.items (pos + n) :=
  List.drop_drop

/-- Inside the end, the items are those of the buffer. -/
theorem items_take {x : Extent β} {pos n : ℕ} (h : pos + n ≤ x.stop) :
    (x.items pos).take n = (x.buf.drop pos).take n := by
  rw [Extent.items, List.drop_take, List.take_take, Nat.min_eq_left (by omega)]

theorem items_getElem? {x : Extent β} {pos : ℕ} (h : pos < x.stop) : (x.items pos)[0]? = x.buf[pos]? := by
  rw [Extent.items, List.getElem?_drop, List.getElem?_take_of_lt (by omega)]
  rfl

theorem drop_of_items {x : Extent β} {pos : ℕ} {s t : List β} (h : pos ≤ x.stop) (hs : x.items pos = s ++ t) :
    x.buf.drop pos = s ++ (t ++ x.buf.drop x.stop) := by
  have hlen : pos ≤ (x.buf.take x.stop).length := by
    rw [List.length_take_of_le x.stop_le]
    exact h
  rw [← List.append_assoc, ← hs, Extent.items, ← List.drop_append_of_le_length hlen, List.take_append_drop]

theorem items_eq_nil {x : Extent β} {pos : ℕ} : x.items pos = [] ↔ x.stop ≤ pos := by
  rw [← List.length_eq_zero_iff, items_length]
  omega

theorem items_whole (buf : List β) (pos : ℕ) : (Extent.whole buf).items pos = buf.drop pos :=
  congrArg (List.drop pos) (List.take_of_length_le (Nat.le_refl _))

/-- The outcome of a cursor that goes with the outcome of a reader.  Nothing is asked where the reader
itself traps. -/
def Follows (x : Extent β) (r : Except (Trap ε) (α × ℕ)) : Except (Fault ε) (α × List β) → Prop
  | .ok (a, t) => ∃ pos, pos ≤ x.stop ∧ r = .ok (a, pos) ∧ t = x.items pos
  | .error (.error e) => r = Trap.fail e
  | .error _ => True

/-- From a position inside, `p` does what `q` does on the items that are left, and stays inside. -/
def Simulates (p : Cursor β ε α) (q : Reader β ε α) : Prop :=
  ∀ (x : Extent β) (pos : ℕ), pos ≤ x.stop → Follows x (p x pos) (q (x.items pos))

namespace Simulates

theorem pure (a : α) : Simulates (Pure.pure a : Cursor β ε α) (Pure.pure a) := fun _ pos h =>
  ⟨pos, h, rfl, rfl⟩

theorem fail (e : ε) : Simulates (Cursor.fail e : Cursor β ε α) (Reader.fail e) := fun _ _ _ => rfl

theorem bind {p : Cursor β ε α} {q : Reader β ε α} {p' : α → Cursor β ε γ} {q' : α → Reader β ε γ}
    (hp : Simulates p q) (hp' : ∀ a, Simulates (p' a) (q' a)) : Simulates (p >>= p') (q >>= q') := by
  intro x pos hpos
  show Follows x (p x pos >>= fun r => p' r.1 x r.2) (q (x.items pos) >>= fun r => q' r.1 r.2)
  have hfirst := hp x pos hpos
  rcases hq : q (x.items pos) with f | ⟨a, t⟩
  · rw [hq] at hfirst
    rcases f with e | _ | _
    · have hfail : p x pos = Trap.fail e := hfirst
      rw [hfail]
      exact rfl
    · trivial
    · trivial
  · rw [hq] at hfirst
    obtain ⟨pos', hpos', hrun, rfl⟩ := hfirst
    rw [hrun]
    exact hp' a x pos' hpos'

theorem ite {c : Prop} [Decidable c] {p p' : Cursor β ε α} {q q' : Reader β ε α} (hp : Simulates p q)
    (hp' : Simulates p' q') : Simulates (if c then p else p') (if c then q else q') := by
  by_cases hc : c
  · rw [if_pos hc, if_pos hc]
    exact hp
  · rw [if_neg hc, if_neg hc]
    exact hp'

theorem left : Simulates (Cursor.left : Cursor β ε ℕ) Reader.remaining := by
  intro x pos hpos
  refine ⟨pos, hpos, ?_, rfl⟩
  rw [Cursor.left, Trap.sub_of_le hpos, items_length]
  rfl

theorem need (n : ℕ) (e : ε) : Simulates (Cursor.need n e : Cursor β ε Unit) (Reader.need n e) := by
  intro x pos hpos
  have hrun : (Cursor.need n e : Cursor β ε Unit) x pos =
      if x.stop - pos < n then Trap.fail e else .ok ((), pos) := by
    show ((Cursor.left : Cursor β ε ℕ) x pos >>= fun r =>
      (if r.1 < n then Cursor.fail e else Pure.pure () : Cursor β ε Unit) x r.2) = _
    rw [Cursor.left, Trap.sub_of_le hpos]
    show (if x.stop - pos < n then Cursor.fail e else Pure.pure () : Cursor β ε Unit) x pos = _
    by_cases hn : x.stop - pos < n
    · rw [if_pos hn, if_pos hn]
      rfl
    · rw [if_neg hn, if_neg hn]
      rfl
  rw [hrun, Reader.need, items_length]
  by_cases hn : x.stop - pos < n
  · rw [if_pos hn, if_pos hn]
    exact rfl
  · rw [if_neg hn, if_neg hn]
    exact ⟨pos, hpos, rfl, rfl⟩

theorem check (c : Bool) (e : ε) : Simulates (Cursor.check c e : Cursor β ε Unit) (Reader.check c e) := by
  intro x pos hpos
  rw [Reader.check, Cursor.check]
  by_cases hc : c = true
  · rw [if_pos hc, if_pos hc]
    exact ⟨pos, hpos, rfl, rfl⟩
  · rw [if_neg hc, if_neg hc]
    exact rfl

/-- A read of `n` items at the position, and the step over them. -/
theorem consume {p : Cursor β ε α} {q : Reader β ε α} (n : ℕ)
    (hq : ∀ s, s.length < n → q s = .error .outOfRange)
    (hp : ∀ x pos, pos + n ≤ x.stop →
      ∃ a, p x pos = .ok (a, pos) ∧ q (x.items pos) = .ok (a, (x.items pos).drop n)) :
    Simulates (do let a ← p; Cursor.advance n; Pure.pure a) q := by
  intro x pos hpos
  by_cases hn : pos + n ≤ x.stop
  · obtain ⟨a, hrun, hread⟩ := hp x pos hn
    rw [hread, items_drop]
    refine ⟨pos + n, hn, ?_, rfl⟩
    show (p x pos >>= fun r => _) = _
    rw [hrun]
    rfl
  · rw [hq _ (by rw [items_length]; omega)]
    trivial

theorem item : Simulates (Cursor.item : Cursor β ε β) Reader.item := by
  refine consume 1 (fun s hs => ?_) fun x pos hn => ?_
  · rw [List.length_eq_zero_iff.mp (show s.length = 0 by omega)]
    rfl
  · obtain ⟨b, t, hitems⟩ := List.exists_cons_of_length_pos (l := x.items pos) (by rw [items_length]; omega)
    have hb : x.buf[pos]? = some b := by
      rw [← items_getElem? (by omega), hitems]
      rfl
    refine ⟨b, ?_, by rw [hitems]; rfl⟩
    rw [Cursor.peek, hb]

theorem block (n : ℕ) : Simulates (Cursor.block n : Cursor β ε (Block β n)) (Reader.block n) := by
  refine consume n (fun s hs => ?_) fun x pos hn => ?_
  · rw [Reader.block, dif_neg (Nat.not_le.mpr hs)]
  · have hstop := x.stop_le
    refine ⟨⟨(x.buf.drop pos).take n, by rw [List.length_take, List.length_drop]; omega⟩, ?_, ?_⟩
    · rw [Cursor.copy, dif_pos (by omega)]
    · rw [Reader.block, dif_pos (by rw [items_length]; omega)]
      exact congrArg (fun b => Except.ok (b, _)) (Block.ext_items (items_take hn))

theorem slice (n : ℕ) : Simulates (Cursor.slice n : Cursor β ε (List β)) (Reader.slice n) := by
  refine consume n (fun s hs => ?_) fun x pos hn => ?_
  · rw [Reader.slice, if_neg (Nat.not_le.mpr hs)]
  · have hstop := x.stop_le
    refine ⟨(x.items pos).take n, ?_, by rw [Reader.slice, if_pos (by rw [items_length]; omega)]⟩
    rw [items_take hn, Cursor.range, subspan, if_pos (by omega)]
    rfl

theorem be16 : Simulates (Cursor.be16 : Cursor UInt8 ε UInt16) Lib.be16 := by
  refine consume 2 (fun s hs => ?_) fun x pos hn => ?_
  · rcases s with _ | ⟨a, _ | ⟨b, s⟩⟩
    · rfl
    · rfl
    · simp only [List.length_cons] at hs
      omega
  · obtain ⟨v, t, hitems⟩ := exists_be16 (s := x.items pos) (by rw [items_length]; omega)
    refine ⟨v, ?_, by rw [be16_ok.mpr hitems, hitems]; rfl⟩
    have hread : (readBe16 x.buf pos : Except (Fault ε) _) = .ok v :=
      readBe16_of_drop (drop_of_items (by omega) hitems)
    rw [Cursor.readBe16At, Nat.add_zero, hread]
    rfl

theorem be32 : Simulates (Cursor.be32 : Cursor UInt8 ε UInt32) Lib.be32 := by
  refine consume 4 (fun s hs => ?_) fun x pos hn => ?_
  · rcases s with _ | ⟨a, _ | ⟨b, _ | ⟨c, _ | ⟨d, s⟩⟩⟩⟩
    · rfl
    · rfl
    · rfl
    · rfl
    · simp only [List.length_cons] at hs
      omega
  · obtain ⟨v, t, hitems⟩ := exists_be32 (s := x.items pos) (by rw [items_length]; omega)
    refine ⟨v, ?_, by rw [be32_ok.mpr hitems, hitems]; rfl⟩
    have hread : (readBe32 x.buf pos : Except (Fault ε) _) = .ok v :=
      readBe32_of_drop (drop_of_items (by omega) hitems)
    show (Trap.of (readBe32 x.buf pos)).map (·, pos) = _
    rw [hread]
    rfl

variable {p : Cursor β ε α} {q : Reader β ε α}

theorem counted (h : Simulates p q) (n : ℕ) : Simulates (Cursor.counted p n) (Reader.counted q n) := by
  induction n with
  | zero => exact Simulates.pure []
  | succ n ih => exact h.bind fun a => ih.bind fun as => Simulates.pure (a :: as)

/-- A loop stops at the end of the extent where the reader has nothing left. -/
theorem atEnd {p : Cursor β ε α} {q : Reader β ε α} {x : Extent β} {pos : ℕ} {a : α} (hpos : pos ≤ x.stop)
    (h : x.stop ≤ pos → p x pos = .ok (a, pos) ∧ q (x.items pos) = .ok (a, x.items pos))
    (h' : ¬x.stop ≤ pos → Follows x (p x pos) (q (x.items pos))) : Follows x (p x pos) (q (x.items pos)) := by
  by_cases hend : x.stop ≤ pos
  · obtain ⟨hp, hq⟩ := h hend
    rw [hp, hq]
    exact ⟨pos, hpos, rfl, rfl⟩
  · exact h' hend

theorem rounds (h : Simulates p q) (n : ℕ) : Simulates (Cursor.rounds p n) (Reader.rounds q n) := by
  induction n with
  | zero =>
    intro x pos hpos
    refine atEnd (a := []) hpos (fun hend => ⟨if_pos hend, if_pos (items_eq_nil.mpr hend)⟩) fun hend => ?_
    rw [show Reader.rounds q 0 (x.items pos) = .error .diverges from if_neg (mt items_eq_nil.mp hend)]
    trivial
  | succ n ih =>
    intro x pos hpos
    refine atEnd (a := []) hpos (fun hend => ⟨if_pos hend, if_pos (items_eq_nil.mpr hend)⟩) fun hend => ?_
    unfold Cursor.rounds Reader.rounds
    rw [if_neg hend, if_neg (mt items_eq_nil.mp hend)]
    exact (h.bind fun a => ih.bind fun as => Simulates.pure (a :: as)) x pos hpos

theorem untilEnd (h : Simulates p q) : Simulates (Cursor.untilEnd p) (Reader.untilEnd q) := by
  intro x pos hpos
  rw [Cursor.untilEnd, Reader.untilEnd, items_length]
  exact h.rounds (x.stop - pos) x pos hpos

theorem roundsBreak {p : Cursor β ε (Option α)} {q : Reader β ε (Option α)} (h : Simulates p q) (n : ℕ) :
    Simulates (Cursor.roundsBreak p n) (Reader.roundsBreak q n) := by
  induction n with
  | zero =>
    intro x pos hpos
    refine atEnd (a := []) hpos (fun hend => ⟨if_pos hend, if_pos (items_eq_nil.mpr hend)⟩) fun hend => ?_
    rw [show Reader.roundsBreak q 0 (x.items pos) = .error .diverges from if_neg (mt items_eq_nil.mp hend)]
    trivial
  | succ n ih =>
    intro x pos hpos
    refine atEnd (a := []) hpos (fun hend => ⟨if_pos hend, if_pos (items_eq_nil.mpr hend)⟩) fun hend => ?_
    unfold Cursor.roundsBreak Reader.roundsBreak
    rw [if_neg hend, if_neg (mt items_eq_nil.mp hend)]
    refine (h.bind fun o => ?_) x pos hpos
    cases o with
    | none => exact Simulates.pure []
    | some a => exact ih.bind fun as => Simulates.pure (a :: as)

theorem untilBreak {p : Cursor β ε (Option α)} {q : Reader β ε (Option α)} (h : Simulates p q) :
    Simulates (Cursor.untilBreak p) (Reader.untilBreak q) := by
  intro x pos hpos
  rw [Cursor.untilBreak, Reader.untilBreak, items_length]
  exact h.roundsBreak (x.stop - pos) x pos hpos

theorem ok (h : Simulates p q) {x : Extent β} {pos : ℕ} {a : α} {t : List β} (hpos : pos ≤ x.stop)
    (hq : q (x.items pos) = .ok (a, t)) :
    ∃ pos', pos' ≤ x.stop ∧ p x pos = .ok (a, pos') ∧ t = x.items pos' := by
  have hrun := h x pos hpos
  rw [hq] at hrun
  exact hrun

/-- A cursor that simulates a safe reader gives its results and its errors, and nothing else. -/
theorem result (h : Simulates p q) (hq : Reader.Safe q) {x : Extent β} {pos : ℕ} (hpos : pos ≤ x.stop) :
    Prod.fst <$> p x pos = Trap.of (Prod.fst <$> q (x.items pos)) := by
  have hrun := h x pos hpos
  rcases hread : q (x.items pos) with f | ⟨a, t⟩
  · obtain ⟨e, rfl⟩ := hq _ f hread
    rw [hread] at hrun
    rw [show p x pos = Trap.fail e from hrun]
    rfl
  · rw [hread] at hrun
    obtain ⟨pos', -, hok, -⟩ := hrun
    rw [hok]
    rfl

/-- On a whole buffer. -/
theorem whole (h : Simulates p q) (hq : Reader.Safe q) {buf : List β} {pos : ℕ} (hpos : pos ≤ buf.length) :
    Prod.fst <$> p (Extent.whole buf) pos = Trap.of (Prod.fst <$> q (buf.drop pos)) := by
  rw [← items_whole]
  exact h.result hq hpos

end Simulates

end Rtsrv.Lib
