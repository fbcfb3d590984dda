import Mathlib.Data.List.GetD
import Mathlib.Data.List.Range

/-!
# Rtsrv.Lib.BitPack — flags packed eight to a byte

Flag `i` is bit `i % 8` of byte `i / 8`, and the bits behind the last flag are zero.  The number of flags is
not in the bytes: what is unpacked is filled up with `false` to a whole byte, and only sequences of whole
bytes are one to one with their bytes.
-/

namespace Rtsrv.Lib

/-- The byte with the given bits, the lowest first. -/
def packByte (flag : ℕ → Bool) : UInt8 :=
  (List.range 8).foldl (fun b bit => if flag bit then b ||| (1 <<< UInt8.ofNat bit) else b) 0

/-- The eight bits of a byte, the lowest first. -/
def byteBits (b : UInt8) : List Bool :=
  (List.range 8).map fun bit => (b >>> UInt8.ofNat bit) &&& 1 ≠ 0

def packBits (flags : List Bool) : List UInt8 :=
  (List.range ((flags.length + 7) / 8)).map fun byte_idx =>
    packByte fun bit => flags.getD (byte_idx * 8 + bit) false

def unpackBits (bytes : List UInt8) : List Bool := bytes.flatMap byteBits

/-! ### One byte -/

theorem testBit_one_shiftLeft :
    ∀ n < 8, ∀ bit < 8, (1 <<< UInt8.ofNat n : UInt8).toNat.testBit bit = decide (bit = n) := by
  decide

theorem testBit_packByte (flag : ℕ → Bool) {bit : ℕ} (h : bit < 8) :
    (packByte flag).toNat.testBit bit = flag bit := by
  -- after `n` rounds the byte has the first `n` flags
  have hfold : ∀ n, n ≤ 8 → ((List.range n).foldl
      (fun (b : UInt8) bit => if flag bit then b ||| (1 <<< UInt8.ofNat bit) else b) 0).toNat.testBit bit =
        (decide (bit < n) && flag bit) := by
    intro n
    induction n with
    | zero => intro _; simp
    | succ n ih =>
      intro hn
      have ih := ih (by omega)
      rw [List.range_succ, List.foldl_append, List.foldl_cons, List.foldl_nil]
      by_cases hbit : bit = n
      · subst hbit
        split_ifs with hf
        · rw [UInt8.toNat_or, Nat.testBit_or, testBit_one_shiftLeft bit h bit h]
          simp [hf]
        · rw [ih]
          simp [hf]
      · have hlt : bit < n + 1 ↔ bit < n := by omega
        split_ifs with hf
        · rw [UInt8.toNat_or, Nat.testBit_or, testBit_one_shiftLeft n (by omega) bit h, ih]
          simp [hbit, hlt]
        · rw [ih]
          simp [hlt]
  have h8 := hfold 8 (Nat.le_refl 8)
  rwa [decide_eq_true h, Bool.true_and] at h8

theorem byteBits_eq (b : UInt8) : byteBits b = (List.range 8).map b.toNat.testBit := by
  refine List.map_congr_left fun bit hbit => ?_
  have hlt := List.mem_range.mp hbit
  have hbyte : b >>> UInt8.ofNat bit &&& 1 ≠ 0 ↔ b.toNat.testBit bit = true := by
    rw [ne_eq, ← UInt8.toNat_inj, UInt8.toNat_and, UInt8.toNat_shiftRight, UInt8.toNat_ofNat',
      Nat.mod_eq_of_lt (a := bit) (by omega), Nat.mod_eq_of_lt hlt, Nat.and_comm, Nat.testBit, bne_iff_ne]
    rfl
  exact Bool.eq_iff_iff.mpr (decide_eq_true_iff.trans hbyte)

theorem byteBits_packByte (flag : ℕ → Bool) : byteBits (packByte flag) = (List.range 8).map flag := by
  rw [byteBits_eq]
  exact List.map_congr_left fun bit hbit => testBit_packByte flag (List.mem_range.mp hbit)

@[simp] theorem byteBits_length (b : UInt8) : (byteBits b).length = 8 := rfl

theorem packByte_byteBits (b : UInt8) : packByte (fun bit => (byteBits b).getD bit false) = b := by
  rw [← UInt8.toNat_inj]
  refine Nat.eq_of_testBit_eq fun bit => ?_
  by_cases h : bit < 8
  · rw [testBit_packByte _ h, byteBits_eq]
    simp [h]
  · have hbig : ∀ c : UInt8, c.toNat.testBit bit = false := fun c =>
      Nat.testBit_lt_two_pow (Nat.lt_of_lt_of_le c.toNat_lt (Nat.pow_le_pow_right (by decide) (by omega)))
    rw [hbig, hbig]

/-! ### Sequences -/

theorem packBits_length (flags : List Bool) : (packBits flags).length = (flags.length + 7) / 8 := by
  rw [packBits, List.length_map, List.length_range]

theorem unpackBits_length (bytes : List UInt8) : (unpackBits bytes).length = bytes.length * 8 := by
  induction bytes with
  | nil => rfl
  | cons b bytes ih =>
    rw [unpackBits, List.flatMap_cons, List.length_append, byteBits_length, ← unpackBits, ih,
      List.length_cons]
    omega

/-- Rows of eight entries, one after the other. -/
theorem flatMap_range_eight {α : Type} (g : ℕ → α) (m : ℕ) :
    ((List.range m).flatMap fun k => (List.range 8).map fun bit => g (k * 8 + bit)) =
      (List.range (m * 8)).map g := by
  induction m with
  | zero => rfl
  | succ m ih =>
    rw [List.range_succ (n := m), List.flatMap_append, ih, Nat.add_mul, Nat.one_mul,
      List.range_add, List.map_append, List.map_map, List.flatMap_cons, List.flatMap_nil, List.append_nil]
    rfl

/-- What lies behind the end of a list reads as the default. -/
theorem map_getD_range {α : Type} (as : List α) (d : α) {m : ℕ} (h : as.length ≤ m) :
    (List.range m).map (fun i => as.getD i d) = as ++ List.replicate (m - as.length) d := by
  refine List.ext_getElem (by simp; omega) fun i hi _ => ?_
  rw [List.getElem_map, List.getElem_range]
  by_cases hlt : i < as.length
  · rw [List.getElem_append_left hlt, List.getD_eq_getElem _ _ hlt]
  · rw [List.getElem_append_right (by omega), List.getElem_replicate, List.getD_eq_default _ _ (by omega)]

/-- **The flags come back, filled up with `false` to a whole byte.** -/
theorem unpackBits_packBits (flags : List Bool) :
    unpackBits (packBits flags) =
      flags ++ List.replicate ((flags.length + 7) / 8 * 8 - flags.length) false := by
  rw [unpackBits, packBits, List.flatMap_map]
  simp only [byteBits_packByte]
  rw [flatMap_range_eight (fun i => flags.getD i false), map_getD_range flags false (by omega)]

/-- Entry `k * 8 + bit` of the unpacked bits is bit `bit` of byte `k`. -/
theorem getD_unpackBits : ∀ (bytes : List UInt8) (k bit : ℕ) (hk : k < bytes.length), bit < 8 →
    (unpackBits bytes).getD (k * 8 + bit) false = (byteBits bytes[k]).getD bit false
  | b :: bytes, 0, bit, _, hbit => by
    rw [unpackBits, List.flatMap_cons, Nat.zero_mul, Nat.zero_add,
      List.getD_append _ _ _ _ (by simpa using hbit)]
    rfl
  | b :: bytes, k + 1, bit, hk, hbit => by
    have hrest : (k + 1) * 8 + bit - (byteBits b).length = k * 8 + bit := by
      rw [byteBits_length]
      omega
    rw [unpackBits, List.flatMap_cons, List.getD_append_right _ _ _ _ (by rw [byteBits_length]; omega), hrest,
      ← unpackBits, getD_unpackBits bytes k bit (Nat.lt_of_succ_lt_succ hk) hbit]
    rfl

/-- **Whole bytes come back as they were.** -/
theorem packBits_unpackBits (bytes : List UInt8) : packBits (unpackBits bytes) = bytes := by
  have hcount : ((unpackBits bytes).length + 7) / 8 = bytes.length := by
    rw [unpackBits_length]
    omega
  refine List.ext_getElem (by rw [packBits_length, hcount]) fun k _ hk => ?_
  have hbits : ∀ bit < 8, (unpackBits bytes).getD (k * 8 + bit) false = (byteBits bytes[k]).getD bit false :=
    fun bit hbit => getD_unpackBits bytes k bit hk hbit
  rw [← packByte_byteBits bytes[k]]
  simp only [packBits, List.getElem_map, List.getElem_range, packByte]
  refine List.foldl_ext _ _ _ fun b bit hbit => ?_
  rw [hbits bit (List.mem_range.mp hbit)]

end Rtsrv.Lib
