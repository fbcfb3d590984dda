import Mathlib.Tactic.ComputeDegree
import Rtsrv.Lib.Crc
import Rtsrv.Wire.RouteProto

/-!
# Rtsrv.Wire.Crc16 — the CRC of both protocols (`unix_domain/lib/ud_proto.cpp`)

`crc16` shifts right and xors `0x8005`.  Read from the low end, as a register that shifts right is,
this constant stands for the divisor `x^16 + x^15 + x^13 + 1`; the documented CRC-16/IBM divides by
`x^16 + x^15 + x^2 + 1`.  `crc16_ibm_iff` says for which messages the two remainders agree, and
`burst_rejected` that the divisor in use still detects every burst of sixteen bits.
-/

namespace Rtsrv.UdProto

open Lib Polynomial

/-! ### The register of the code is the register of the library -/

/-- The blocks the register is fed. -/
def bitVecs (data : Bytes) : List (BitVec 8) := data.map UInt8.toBitVec

theorem crc16Bit_toBitVec (crc : UInt16) :
    (crc16Bit crc).toBitVec = Crc.shiftStep POLY.toBitVec crc.toBitVec := by
  have hlow : crc &&& 0x0001 ≠ 0 ↔ crc.toBitVec.getLsbD 0 = true := by
    rw [ne_eq, ← UInt16.toBitVec_inj, UInt16.toBitVec_and]
    change ¬ crc.toBitVec &&& 1#16 = 0#16 ↔ _
    rw [BitVec.and_one_eq_setWidth_ofBool_getLsbD]
    rcases crc.toBitVec.getLsbD 0 with _ | _ <;> decide
  rw [crc16Bit, Crc.shiftStep]
  simp only [hlow]
  split_ifs <;> rfl

theorem crc16Bit_iterate (n : ℕ) (crc : UInt16) :
    (crc16Bit^[n] crc).toBitVec = (Crc.shiftStep POLY.toBitVec)^[n] crc.toBitVec := by
  induction n generalizing crc with
  | zero => rfl
  | succ n ih =>
    rw [Function.iterate_succ_apply, Function.iterate_succ_apply, ih, crc16Bit_toBitVec]

theorem crc16Byte_toBitVec (crc : UInt16) (byte : UInt8) :
    (crc16Byte crc byte).toBitVec = Crc.feed POLY.toBitVec crc.toBitVec byte.toBitVec := by
  rw [crc16Byte, crc16Bit_iterate, Crc.feed]
  rfl

/-- `crc16` is the library's check with the constant `0x8005`. -/
theorem crc16_toBitVec (data : Bytes) :
    (crc16 data).toBitVec = Crc.crc POLY.toBitVec (bitVecs data) := by
  have hfold : ∀ crc : UInt16, (data.foldl crc16Byte crc).toBitVec =
      (bitVecs data).foldl (Crc.feed POLY.toBitVec) crc.toBitVec := by
    induction data with
    | nil => intro crc; rfl
    | cons b data ih =>
      intro crc
      rw [List.foldl_cons, ih, crc16Byte_toBitVec]
      rfl
  exact hfold 0x0000

/-! ### Remainders -/

/-- A 16-bit check value in reflected order: its low bit is the coefficient of `x^15`. -/
noncomputable def registerPoly (crc : UInt16) : (ZMod 2)[X] := Crc.regPoly crc.toBitVec

/-- The message polynomial: bytes in order, the bits of each from the lowest, the first bit being the
highest coefficient. -/
noncomputable def messagePoly (data : Bytes) : (ZMod 2)[X] := Crc.messagePoly (bitVecs data)

/-- The documented divisor of CRC-16/IBM. -/
noncomputable def ibmDivisor : (ZMod 2)[X] := X ^ 16 + X ^ 15 + X ^ 2 + 1

/-- The divisor that `0x8005` stands for in a register that shifts right. -/
noncomputable def shiftDivisor : (ZMod 2)[X] := X ^ 16 + X ^ 15 + X ^ 13 + 1

/-- The constant that stands for the documented divisor. -/
def IBM_POLY : UInt16 := 0xA001

theorem generator_POLY : Crc.generator POLY.toBitVec = shiftDivisor := by
  have hbits : Crc.bits POLY.toBitVec =
      [true, false, true, false, false, false, false, false, false, false, false, false, false, false,
        false, true] := by decide
  rw [Crc.generator, Crc.regPoly, hbits, shiftDivisor]
  simp [Crc.ofBits]
  ring

theorem generator_IBM_POLY : Crc.generator IBM_POLY.toBitVec = ibmDivisor := by
  have hbits : Crc.bits IBM_POLY.toBitVec =
      [true, false, false, false, false, false, false, false, false, false, false, false, false, true,
        false, true] := by decide
  rw [Crc.generator, Crc.regPoly, hbits, ibmDivisor]
  simp [Crc.ofBits]
  ring

theorem registerPoly_crc16 (data : Bytes) :
    registerPoly (crc16 data) = (X ^ 16 * messagePoly data) %ₘ shiftDivisor := by
  rw [registerPoly, crc16_toBitVec, Crc.regPoly_crc _ (by decide) (by decide), generator_POLY]
  rfl

/-- What the divisor of the code lacks to be a multiple of the documented one. -/
noncomputable def ibmCofactor : (ZMod 2)[X] := X ^ 15 + X + 1

theorem two_eq_zero : (2 : (ZMod 2)[X]) = 0 := CharTwo.two_eq_zero

theorem ibmCofactor_monic : ibmCofactor.Monic := by
  unfold ibmCofactor
  monicity!

theorem shiftDivisor_monic : shiftDivisor.Monic := generator_POLY ▸ Crc.generator_monic _

theorem ibmDivisor_monic : ibmDivisor.Monic := generator_IBM_POLY ▸ Crc.generator_monic _

theorem degree_shiftDivisor : shiftDivisor.degree = 16 := generator_POLY ▸ Crc.degree_generator _

theorem degree_ibmDivisor : ibmDivisor.degree = 16 := generator_IBM_POLY ▸ Crc.degree_generator _

theorem ibmDivisor_eq : ibmDivisor = (X + 1) * ibmCofactor := by
  rw [ibmDivisor, ibmCofactor]
  linear_combination -X * two_eq_zero

/-- Both divisors have the factor `X + 1`. -/
theorem dvd_shiftDivisor : X + 1 ∣ shiftDivisor := by
  refine ⟨X ^ 15 + X ^ 12 + X ^ 11 + X ^ 10 + X ^ 9 + X ^ 8 + X ^ 7 + X ^ 6 + X ^ 5 + X ^ 4 +
    X ^ 3 + X ^ 2 + X + 1, ?_⟩
  rw [shiftDivisor]
  linear_combination -(X ^ 12 + X ^ 11 + X ^ 10 + X ^ 9 + X ^ 8 + X ^ 7 + X ^ 6 + X ^ 5 + X ^ 4 +
    X ^ 3 + X ^ 2 + X) * two_eq_zero

theorem ibmCofactor_coprime : IsCoprime ibmCofactor shiftDivisor := by
  refine ⟨X ^ 13 + X ^ 12 + X ^ 8 + X ^ 5 + X ^ 4 + X ^ 2 + 1,
    X ^ 12 + X ^ 9 + X ^ 8 + X ^ 6 + X ^ 4 + X ^ 3 + X ^ 2 + X, ?_⟩
  rw [ibmCofactor, shiftDivisor]
  linear_combination (X + X ^ 2 + X ^ 3 + X ^ 4 + X ^ 5 + X ^ 6 + X ^ 8 + X ^ 9 + X ^ 12 + X ^ 13 +
    X ^ 14 + X ^ 15 + X ^ 16 + 2 * X ^ 17 + X ^ 18 + 2 * X ^ 19 + X ^ 20 + X ^ 21 + X ^ 22 + X ^ 23 +
    X ^ 24 + X ^ 25 + X ^ 27 + X ^ 28) * two_eq_zero

/-- The least common multiple of the documented divisor and the one in use, of degree 31. -/
noncomputable def commonMultiple : (ZMod 2)[X] := ibmCofactor * shiftDivisor

theorem commonMultiple_dvd_iff (p : (ZMod 2)[X]) :
    commonMultiple ∣ p ↔ ibmDivisor ∣ p ∧ shiftDivisor ∣ p := by
  refine ⟨fun h => ⟨?_, ?_⟩, ?_⟩
  · refine dvd_trans ?_ h
    rw [ibmDivisor_eq, commonMultiple, mul_comm]
    exact mul_dvd_mul_left _ dvd_shiftDivisor
  · exact (dvd_mul_left _ _).trans h
  · rintro ⟨hibm, hshift⟩
    have hco : ibmCofactor ∣ p := by
      rw [ibmDivisor_eq] at hibm
      exact (dvd_mul_left _ _).trans hibm
    exact ibmCofactor_coprime.mul_dvd hco hshift

theorem commonMultiple_monic : commonMultiple.Monic := ibmCofactor_monic.mul shiftDivisor_monic

/-- **When `crc16` is the documented CRC**: exactly when the message, shifted by sixteen, leaves a
remainder of degree below sixteen modulo the common multiple of the two divisors. -/
theorem crc16_ibm_iff (data : Bytes) :
    registerPoly (crc16 data) = (X ^ 16 * messagePoly data) %ₘ (X ^ 16 + X ^ 15 + X ^ 2 + 1) ↔
      ((X ^ 16 * messagePoly data) %ₘ
        ((X ^ 15 + X + 1) * (X ^ 16 + X ^ 15 + X ^ 13 + 1))).degree < 16 := by
  have hle : ibmDivisor.degree ≤ commonMultiple.degree :=
    degree_le_of_dvd ((commonMultiple_dvd_iff _).mp dvd_rfl).1 commonMultiple_monic.ne_zero
  have hiff := Crc.remainders_eq_iff ibmDivisor_monic shiftDivisor_monic commonMultiple_monic
    (degree_shiftDivisor.trans degree_ibmDivisor.symm) hle commonMultiple_dvd_iff
    (X ^ 16 * messagePoly data)
  rw [degree_ibmDivisor] at hiff
  rw [registerPoly_crc16, eq_comm]
  exact hiff

/-- The message of the single byte `01`: the code computes `0x9705` and the documented CRC is
`0xC0C1`. -/
theorem crc16_not_ibm :
    registerPoly (crc16 [0x01]) ≠
      (X ^ 16 * messagePoly [0x01]) %ₘ (X ^ 16 + X ^ 15 + X ^ 2 + 1) := by
  intro h
  have hibm : Crc.regPoly (Crc.crc IBM_POLY.toBitVec (bitVecs [0x01])) =
      (X ^ 16 * messagePoly [0x01]) %ₘ ibmDivisor := by
    rw [Crc.regPoly_crc _ (by decide) (by decide), generator_IBM_POLY]
    rfl
  have hsame := Crc.regPoly_injective (h.trans hibm.symm)
  exact absurd hsame (by decide)

/-! ### Bursts -/

/-- The bytes with the bits of `e` flipped. -/
def corrupt (covered e : Bytes) : Bytes := List.zipWith (· ^^^ ·) covered e

/-- An error pattern with some bit set, all of them within sixteen consecutive ones, the bits of a
byte taken from the lowest. -/
def Burst (e : Bytes) : Prop := Crc.Burst 16 (bitVecs e)

/-- The bytes the CRC covers with the bits of `e` flipped, and the CRC as it was. -/
def flipCovered (raw e : Bytes) : Bytes :=
  corrupt (raw.take (raw.length - CRC_SIZE)) e ++ raw.drop (raw.length - CRC_SIZE)

theorem bitVecs_corrupt (covered e : Bytes) :
    bitVecs (corrupt covered e) = Crc.corrupt (bitVecs covered) (bitVecs e) := by
  rw [bitVecs, bitVecs, bitVecs, corrupt, Crc.corrupt, List.map_zipWith, List.zipWith_map]
  rfl

/-- A burst changes the CRC. -/
theorem crc16_burst {covered e : Bytes} (hlen : e.length = covered.length) (he : Burst e) :
    crc16 (corrupt covered e) ≠ crc16 covered := by
  intro heq
  have hbv := congrArg UInt16.toBitVec heq
  rw [crc16_toBitVec, crc16_toBitVec, bitVecs_corrupt] at hbv
  refine Crc.crc_ne_of_burst (by decide) (by decide) (by decide) ?_ he hbv
  rw [bitVecs, bitVecs, List.length_map, List.length_map, hlen]

/-- A burst in bytes followed by their CRC leaves a CRC that is not theirs. -/
theorem flipCovered_crc {covered e : Bytes} (he : Burst e)
    (hlen : e.length + CRC_SIZE = (covered ++ writeBe16 (crc16 covered)).length) :
    ∃ covered', covered'.length = covered.length ∧ crc16 covered ≠ crc16 covered' ∧
      flipCovered (covered ++ writeBe16 (crc16 covered)) e =
        covered' ++ writeBe16 (crc16 covered) := by
  rw [List.length_append, writeBe16_length, CRC_SIZE, Nat.add_right_cancel_iff] at hlen
  refine ⟨corrupt covered e, ?_, (crc16_burst hlen he).symm, ?_⟩
  · rw [corrupt, List.length_zipWith, hlen, Nat.min_self]
  · have htake : (covered ++ writeBe16 (crc16 covered)).length - CRC_SIZE = covered.length := by
      rw [List.length_append, writeBe16_length, CRC_SIZE, Nat.add_sub_cancel]
    rw [flipCovered, htake, List.take_left, List.drop_left]

/-- `decode_exchange` takes no bytes with a CRC that is not theirs. -/
theorem decodeExchange_wrong_crc {covered : Bytes} {crc : UInt16} (hlen : 4 ≤ covered.length)
    (hcrc : crc ≠ crc16 covered) :
    ∃ err, RouteProto.decodeExchange (covered ++ writeBe16 crc) = .error (.error err) := by
  obtain ⟨num, s, rfl⟩ := exists_be16 (s := covered) (by omega)
  rw [List.length_append, writeBe16_length] at hlen
  obtain ⟨dl, commands, rfl⟩ := exists_be16 (s := s) (by omega)
  rw [RouteProto.decodeExchange_fields]
  split_ifs
  · exact ⟨_, rfl⟩
  · exact ⟨_, rfl⟩

theorem decodePacket_wrong_crc {covered : Bytes} {crc : UInt16} (hlen : HEADER_SIZE ≤ covered.length)
    (hcrc : crc ≠ crc16 covered) :
    ∃ err, decodePacket (frame (covered ++ writeBe16 crc)) = .error (.error err) := by
  have hmin : MIN_PAYLOAD ≤ (covered ++ writeBe16 crc).length := by
    rw [List.length_append, writeBe16_length, MIN_PAYLOAD, CRC_SIZE]
    omega
  obtain ⟨l, pn, tp, c, data, crc', hfields⟩ := exists_fields hmin
  obtain ⟨hbody, hcrc'⟩ := List.append_inj' hfields (by rw [writeBe16_length, writeBe16_length])
  obtain rfl := writeBe16_injective hcrc'
  rw [decodePacket, extractPayload_frame, hbody, checkPayload_fields, if_pos (by rwa [← hbody])]
  exact ⟨_, rfl⟩

/-- **Bursts are detected.**  Flip a burst in the covered bytes of an exchange block, or of a packet's
payload that is stuffed and framed again: neither decoder accepts the result, whatever the burst does to
the size fields. -/
theorem burst_rejected {e : Bytes} (he : Burst e) :
    (∀ ed raw, RouteProto.encodeExchange ed = .ok raw → e.length + CRC_SIZE = raw.length →
      ∃ err, RouteProto.decodeExchange (flipCovered raw e) = .error (.error err)) ∧
    ∀ pkt payload, encodePacket pkt = .ok (frame payload) → e.length + CRC_SIZE = payload.length →
      ∃ err, decodePacket (frame (flipCovered payload e)) = .error (.error err) := by
  refine ⟨fun ed raw henc hlen => ?_, fun pkt payload henc hlen => ?_⟩
  · obtain rfl := Except.ok.inj henc
    obtain ⟨covered', hsize, hcrc, hflip⟩ := flipCovered_crc he hlen
    rw [hflip]
    refine decodeExchange_wrong_crc ?_ hcrc
    rw [hsize]
    simp only [List.length_append, writeBe16_length]
    omega
  · obtain rfl := frame_injective (Except.ok.inj henc)
    obtain ⟨covered', hsize, hcrc, hflip⟩ := flipCovered_crc he hlen
    rw [buildRequestPayload, hflip]
    refine decodePacket_wrong_crc ?_ hcrc
    rw [hsize, requestBody_length]
    omega

/-- One flipped bit in the size field of an empty exchange block, and in the first byte of an empty
packet. -/
theorem burst_rejected_bit :
    (∃ raw err, RouteProto.encodeExchange ⟨0, []⟩ = .ok raw ∧
      RouteProto.decodeExchange (flipCovered raw [0, 0, 0, 1]) = .error (.error err)) ∧
    ∃ payload err, encodePacket ⟨0, 0, 0, 0, []⟩ = .ok (frame payload) ∧
      decodePacket (frame (flipCovered payload [1, 0, 0, 0, 0, 0, 0, 0, 0, 0])) =
        .error (.error err) := by
  have hsize : Burst [0, 0, 0, 1] := ⟨24, [true], 7, by decide, by decide, by decide⟩
  have hfirst : Burst [1, 0, 0, 0, 0, 0, 0, 0, 0, 0] := ⟨0, [true], 79, by decide, by decide, by decide⟩
  obtain ⟨err, herr⟩ := (burst_rejected hsize).1 ⟨0, []⟩ _ rfl rfl
  obtain ⟨err', herr'⟩ := (burst_rejected hfirst).2 ⟨0, 0, 0, 0, []⟩ _ rfl rfl
  exact ⟨⟨_, err, rfl, herr⟩, ⟨_, err', rfl, herr'⟩⟩

end Rtsrv.UdProto
