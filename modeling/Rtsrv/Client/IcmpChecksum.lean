import Rtsrv.Client.RouteAttrs
import Rtsrv.Lib.OnesComplement

/-!
# Rtsrv.Client.IcmpChecksum — the checksum of an echo request (`client/src/main.cpp`)

`icmpChecksum` adds the words of a buffer in host order, here little-endian, into 32 bits and folds the sum
twice.  The second fold adds its carry without masking, so bit 16 may stay set: the cast to 16 bits drops it.
-/

namespace Rtsrv.Client

open Lib

/-- The loop over the words, and the odd last byte. -/
def icmpSum (sum : UInt32) : List UInt8 → UInt32
  | b0 :: b1 :: p => icmpSum (sum + (joinBe16 b1 b0).toUInt32) p
  | [b] => sum + b.toUInt32
  | [] => sum

/-- The two folding steps. -/
def icmpFold (sum : UInt32) : UInt32 :=
  let sum := (sum >>> 16) + (sum &&& 0xffff)
  sum + (sum >>> 16)

def icmpChecksum (data : List UInt8) : UInt16 := (~~~icmpFold (icmpSum 0 data)).toUInt16

/-! ### The words of a buffer -/

/-- The words in host order, an odd last byte padded with zero. -/
def hostWords : List UInt8 → List ℕ
  | b0 :: b1 :: data => (joinBe16 b1 b0).toNat :: hostWords data
  | [b] => [(joinBe16 0 b).toNat]
  | [] => []

/-- The same in network order, as the receiver may add them. -/
def netWords : List UInt8 → List ℕ
  | b0 :: b1 :: data => (joinBe16 b0 b1).toNat :: netWords data
  | [b] => [(joinBe16 b 0).toNat]
  | [] => []

/-- The buffer with a word stored at an offset. -/
def storeWord (data : List UInt8) (offset : ℕ) (v : UInt16) : List UInt8 :=
  data.take offset ++ hostU16 v ++ data.drop (offset + 2)

/-- A field of 16 bits at an even offset that is zero. -/
structure ZeroField (data : List UInt8) (offset : ℕ) : Prop where
  even : offset % 2 = 0
  zero : data.drop offset = 0 :: 0 :: data.drop (offset + 2)

theorem hostWords_le (data : List UInt8) : ∀ w ∈ hostWords data, w ≤ 0xffff := by
  induction data using hostWords.induct with
  | case1 b0 b1 data ih =>
    rw [hostWords]
    exact List.forall_mem_cons.mpr ⟨Nat.le_of_lt_succ (joinBe16 b1 b0).toNat_lt, ih⟩
  | case2 b =>
    rw [hostWords]
    exact List.forall_mem_singleton.mpr (Nat.le_of_lt_succ (joinBe16 0 b).toNat_lt)
  | case3 => exact fun w hw => absurd hw List.not_mem_nil

theorem netWords_le (data : List UInt8) : ∀ w ∈ netWords data, w ≤ 0xffff := by
  induction data using netWords.induct with
  | case1 b0 b1 data ih =>
    rw [netWords]
    exact List.forall_mem_cons.mpr ⟨Nat.le_of_lt_succ (joinBe16 b0 b1).toNat_lt, ih⟩
  | case2 b =>
    rw [netWords]
    exact List.forall_mem_singleton.mpr (Nat.le_of_lt_succ (joinBe16 b 0).toNat_lt)
  | case3 => exact fun w hw => absurd hw List.not_mem_nil

theorem hostWords_append {a : List UInt8} (h : a.length % 2 = 0) (b : List UInt8) :
    hostWords (a ++ b) = hostWords a ++ hostWords b := by
  induction a using hostWords.induct with
  | case1 b0 b1 a ih =>
    have ha : a.length % 2 = 0 := by
      simp only [List.length_cons] at h
      omega
    rw [List.cons_append, List.cons_append, hostWords, hostWords, ih ha, List.cons_append]
  | case2 b => simp at h
  | case3 => rfl

/-- Half as many words as bytes bound the sum. -/
theorem sum_hostWords_le (data : List UInt8) : (hostWords data).sum ≤ (data.length + 1) / 2 * 0xffff := by
  induction data using hostWords.induct with
  | case1 b0 b1 data ih =>
    have hlt := (joinBe16 b1 b0).toNat_lt
    rw [hostWords, List.sum_cons, List.length_cons, List.length_cons]
    omega
  | case2 b =>
    have hlt := (joinBe16 0 b).toNat_lt
    rw [hostWords, List.sum_singleton, List.length_singleton]
    omega
  | case3 => exact Nat.zero_le _

/-- In network order the bytes of each word change places, which multiplies the sum by 256 modulo all ones. -/
theorem sum_netWords (data : List UInt8) :
    (netWords data).sum ≡ 256 * (hostWords data).sum [MOD 0xffff] ∧
      ((netWords data).sum = 0 ↔ (hostWords data).sum = 0) := by
  induction data using hostWords.induct with
  | case1 b0 b1 data ih =>
    obtain ⟨hmod, hzero⟩ := ih
    rw [netWords, hostWords, List.sum_cons, List.sum_cons, Nat.mul_add, joinBe16_toNat, joinBe16_toNat]
    have hword : b0.toNat * 256 + b1.toNat ≡ 256 * (b1.toNat * 256 + b0.toNat) [MOD 0xffff] := by
      unfold Nat.ModEq
      omega
    exact ⟨hword.add hmod, by omega⟩
  | case2 b =>
    rw [netWords, hostWords, List.sum_singleton, List.sum_singleton, joinBe16_toNat, joinBe16_toNat]
    have hb := b.toNat_lt
    refine ⟨?_, ?_⟩
    · unfold Nat.ModEq
      simp
      omega
    · simp
  | case3 => exact ⟨rfl, Iff.rfl⟩

/-! ### The sum -/

/-- **As long as the exact sum fits, no addition of the loop wraps.** -/
theorem icmpSum_toNat (data : List UInt8) : ∀ sum : UInt32, sum.toNat + (hostWords data).sum < 2 ^ 32 →
    (icmpSum sum data).toNat = sum.toNat + (hostWords data).sum := by
  induction data using hostWords.induct with
  | case1 b0 b1 data ih =>
    intro sum hfits
    rw [hostWords, List.sum_cons] at hfits ⊢
    have hadd : (sum + (joinBe16 b1 b0).toUInt32).toNat = sum.toNat + (joinBe16 b1 b0).toNat := by
      rw [UInt32.toNat_add, UInt16.toNat_toUInt32]
      exact Nat.mod_eq_of_lt (by omega)
    rw [icmpSum, ih _ (by omega), hadd, Nat.add_assoc]
  | case2 b =>
    intro sum hfits
    rw [hostWords, List.sum_singleton, joinBe16_toNat] at hfits ⊢
    simp only [UInt8.toNat_zero, Nat.zero_mul, Nat.zero_add] at hfits ⊢
    rw [icmpSum, UInt32.toNat_add, UInt8.toNat_toUInt32]
    exact Nat.mod_eq_of_lt hfits
  | case3 => exact fun sum _ => rfl

/-- The two folding steps on the value of the sum. -/
theorem icmpFold_toNat (sum : UInt32) :
    (icmpFold sum).toNat = foldCarry 0xffff sum.toNat + foldCarry 0xffff sum.toNat / 2 ^ 16 := by
  have hlt := sum.toNat_lt
  have hmask : sum.toNat &&& 0xffff = sum.toNat % 2 ^ 16 := Nat.and_two_pow_sub_one_eq_mod _ 16
  have hfirst : ((sum >>> 16) + (sum &&& 0xffff) : UInt32).toNat = foldCarry 0xffff sum.toNat := by
    rw [UInt32.toNat_add, UInt32.toNat_shiftRight, UInt32.toNat_and]
    simp only [UInt32.reduceToNat, Nat.reduceMod, hmask, Nat.shiftRight_eq_div_pow, foldCarry]
    omega
  have hle : foldCarry 0xffff sum.toNat ≤ 2 * 0xffff := by
    unfold foldCarry
    omega
  rw [icmpFold, UInt32.toNat_add, UInt32.toNat_shiftRight, hfirst]
  simp only [UInt32.reduceToNat, Nat.reduceMod, Nat.shiftRight_eq_div_pow]
  omega

/-- What the cast keeps of the two folds is the word that the sum folds to. -/
theorem icmpFold_folds (sum : UInt32) : Folds 0xffff sum.toNat ((icmpFold sum).toNat % 2 ^ 16) := by
  have hlt := sum.toNat_lt
  have hle : foldCarry 0xffff sum.toNat ≤ 2 * 0xffff := by
    unfold foldCarry
    omega
  have hsecond : (icmpFold sum).toNat % 2 ^ 16 = foldCarry 0xffff (foldCarry 0xffff sum.toNat) := by
    rw [icmpFold_toNat]
    generalize foldCarry 0xffff sum.toNat = n at hle
    unfold foldCarry
    omega
  rw [hsecond]
  exact (Folds.once hle).of_foldCarry

/-- The complement of what the folds leave. -/
theorem icmpChecksum_toNat (data : List UInt8) :
    (icmpChecksum data).toNat = 0xffff - (icmpFold (icmpSum 0 data)).toNat % 2 ^ 16 := by
  have hlt := (icmpFold (icmpSum 0 data)).toNat_lt
  rw [icmpChecksum, UInt32.toNat_toUInt16, UInt32.toNat_not]
  simp only [UInt32.size]
  omega

/-! ### The stored checksum -/

variable {data : List UInt8} {offset : ℕ}

theorem ZeroField.take_length (h : ZeroField data offset) : (data.take offset).length % 2 = 0 := by
  have hlen : offset ≤ data.length := by
    by_contra hgt
    have hnil := h.zero
    rw [List.drop_eq_nil_of_le (by omega)] at hnil
    cases hnil
  rw [List.length_take_of_le hlen]
  exact h.even

/-- A stored word is added to the sum. -/
theorem sum_storeWord (h : ZeroField data offset) (v : UInt16) :
    (hostWords (storeWord data offset v)).sum = (hostWords data).sum + v.toNat := by
  have hsplit : data = data.take offset ++ 0 :: 0 :: data.drop (offset + 2) := by
    rw [← h.zero, List.take_append_drop]
  have hdata : hostWords data =
      hostWords (data.take offset) ++ 0 :: hostWords (data.drop (offset + 2)) := by
    calc hostWords data = hostWords (data.take offset ++ 0 :: 0 :: data.drop (offset + 2)) :=
          congrArg hostWords hsplit
      _ = _ := by
          rw [hostWords_append h.take_length, hostWords]
          rfl
  have hstored : hostWords (storeWord data offset v) =
      hostWords (data.take offset) ++ v.toNat :: hostWords (data.drop (offset + 2)) := by
    have hword : storeWord data offset v =
        data.take offset ++ v.toUInt8 :: (v >>> 8).toUInt8 :: data.drop (offset + 2) :=
      List.append_assoc _ _ _
    rw [hword, hostWords_append h.take_length, hostWords, joinBe16_write]
  rw [hdata, hstored, List.sum_append, List.sum_append, List.sum_cons, List.sum_cons]
  omega

/-- A buffer below 128 KiB has a sum of 32 bits, which the loop reaches. -/
theorem icmpSum_hostWords (hlen : data.length < 131072) : (icmpSum 0 data).toNat = (hostWords data).sum := by
  have hle := sum_hostWords_le data
  have hsum := icmpSum_toNat data 0 (by rw [UInt32.toNat_zero]; omega)
  rwa [UInt32.toNat_zero, Nat.zero_add] at hsum

theorem icmpFold_hostWords (hlen : data.length < 131072) :
    Folds 0xffff (hostWords data).sum ((icmpFold (icmpSum 0 data)).toNat % 2 ^ 16) :=
  icmpSum_hostWords hlen ▸ icmpFold_folds (icmpSum 0 data)

/-- The sum of a buffer and the complement of its fold make all ones. -/
theorem folds_stored (hlen : data.length < 131072) (h : ZeroField data offset) :
    Folds 0xffff (hostWords (storeWord data offset (icmpChecksum data))).sum 0xffff := by
  rw [sum_storeWord h, icmpChecksum_toNat]
  exact (icmpFold_hostWords hlen).complement (by decide)

theorem onesSum_stored (hlen : data.length < 131072) (h : ZeroField data offset) :
    onesSum 0xffff (hostWords (storeWord data offset (icmpChecksum data))) = 0xffff :=
  (folds_onesSum (hostWords_le _)).unique (folds_stored hlen h)

/-- A receiver that adds the words in network order finds all ones as well. -/
theorem onesSum_stored_net (hlen : data.length < 131072) (h : ZeroField data offset) :
    onesSum 0xffff (netWords (storeWord data offset (icmpChecksum data))) = 0xffff := by
  have hstored := folds_stored hlen h
  obtain ⟨hmod, hzero⟩ := sum_netWords (storeWord data offset (icmpChecksum data))
  refine (folds_onesSum (netWords_le _)).unique (hstored.ones_of_mul (by decide) hmod ?_)
  refine Nat.pos_of_ne_zero fun hnone => ?_
  exact absurd (hstored.zero.mpr (hzero.mp hnone)) (by decide)

/-! ### The echo request -/

def ICMP_ECHO : UInt8 := 8

/-- The `icmphdr` that `sendIcmpEchoRequest` fills in, for the low 16 bits of the process id. -/
def echoHeader (id : UInt16) : List UInt8 := [ICMP_ECHO, 0, 0, 0] ++ writeBe16 id ++ writeBe16 1

/-- What `sendIcmpEchoRequest` sends. -/
def echoRequest (id : UInt16) : List UInt8 := storeWord (echoHeader id) 2 (icmpChecksum (echoHeader id))

/-- **Every echo request passes the check of its receiver.** -/
theorem onesSum_echoRequest (id : UInt16) : onesSum 0xffff (netWords (echoRequest id)) = 0xffff :=
  onesSum_stored_net (show 8 < 131072 by decide) ⟨rfl, rfl⟩

/-! ### Every buffer -/

/-- **The checksum in its field makes the words of the buffer add up to all ones**, in either byte order.  The
loop does not wrap after any number of words; the folds leave at most bit 16 above the word that the sum
folds to. -/
theorem icmpChecksum_verifies (hlen : data.length < 131072) (h : ZeroField data offset) :
    (∀ n, (icmpSum 0 (data.take (2 * n))).toNat = (hostWords (data.take (2 * n))).sum) ∧
    (icmpSum 0 data).toNat = (hostWords data).sum ∧
    (icmpFold (icmpSum 0 data)).toNat < 2 ^ 17 ∧
    (icmpFold (icmpSum 0 data)).toNat % 2 ^ 16 = onesSum 0xffff (hostWords data) ∧
    onesSum 0xffff (hostWords (storeWord data offset (icmpChecksum data))) = 0xffff ∧
    onesSum 0xffff (netWords (storeWord data offset (icmpChecksum data))) = 0xffff := by
  refine ⟨fun n => icmpSum_hostWords ((List.length_take_le' _ _).trans_lt hlen), icmpSum_hostWords hlen, ?_,
    (icmpFold_hostWords hlen).unique (folds_onesSum (hostWords_le data)), onesSum_stored hlen h,
    onesSum_stored_net hlen h⟩
  have hlt := (icmpSum 0 data).toNat_lt
  rw [icmpFold_toNat]
  unfold foldCarry
  omega

/-- Three bytes behind the field, the last one without a partner. -/
theorem icmpChecksum_verifies_odd :
    onesSum 0xffff (netWords (storeWord [8, 0, 0, 0, 0x12, 0x34, 1] 2
      (icmpChecksum [8, 0, 0, 0, 0x12, 0x34, 1]))) = 0xffff :=
  (icmpChecksum_verifies (by decide) ⟨rfl, rfl⟩).2.2.2.2.2

/-- Three words with a carry into bit 16 that the second fold leaves there. -/
theorem icmpFold_leaves_carry :
    ¬ ∀ (data : List UInt8) (offset : ℕ), data.length < 131072 → ZeroField data offset →
      (icmpFold (icmpSum 0 data)).toNat < 2 ^ 16 := by
  intro h
  have hlt := h [0xff, 0xff, 0xff, 0xff, 1, 0, 0, 0] 6 (by decide) ⟨rfl, rfl⟩
  exact absurd hlt (by decide)

end Rtsrv.Client
