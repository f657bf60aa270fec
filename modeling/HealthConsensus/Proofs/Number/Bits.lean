import HealthConsensus.Number.Binary64
import Mathlib

namespace HealthConsensus.Binary64

open Float.Model Float.Model.UnpackedFloat

variable {x : Float} {negative : Bool} {bits : Nat}

abbrev exponentField (w : UInt64) : BitVec 11 := @unpackExponent Format.binary64 w.toBitVec

theorem exponentField_eq_iff (w : UInt64) :
    exponentField w = -1#11 ↔ infinityBits ≤ w.toNat % 1 <<< 63 := by
  have field : (exponentField w).toNat = w.toNat / 2 ^ 52 % 2 ^ 11 := by
    simp [exponentField, unpackExponent, Nat.shiftRight_eq_div_pow]
  rw [← BitVec.toNat_inj, field]
  show w.toNat / 2 ^ 52 % 2 ^ 11 = 2047 ↔ 2047 * 2 ^ 52 ≤ w.toNat % 2 ^ 63
  omega

theorem toBits_ofBits {w : UInt64} (finite : w.toNat % 1 <<< 63 < infinityBits) :
    (Float.ofBits w).toBits = w := by
  have number : @isNaNBits Format.binary64 w.toBitVec = false :=
    decide_eq_false fun nan => Nat.not_le.2 finite ((exponentField_eq_iff w).1 nan.1)
  have same : (UnpackedFloat.unpack Format.binary64 w.toBitVec).pack Format.binary64 =
      w.toBitVec := by
    rw [pack_unpack, number]
    rfl
  exact congrArg UInt64.ofBitVec same

theorem isFinite_iff (x : Float) : x.isFinite = true ↔ unsignedBits x < infinityBits := by
  have field : x.isFinite = true ↔ exponentField x.toBits ≠ -1#11 := by
    show (UnpackedFloat.unpack Format.binary64 x.toBits.toBitVec).isFinite = true ↔ _
    rw [UnpackedFloat.unpack]
    dsimp only
    split
    · next infinite =>
      refine iff_of_false ?_ fun finite => finite infinite
      split <;> exact Bool.false_ne_true
    · next finite =>
      refine iff_of_true ?_ finite
      split
      · split <;> rfl
      · rfl
  rw [field, ne_eq, exponentField_eq_iff, Nat.not_le]
  rfl

theorem toNat_toBits_ofBits (finite : bits < infinityBits) :
    (ofBits negative bits).toBits.toNat = if negative then bits + 1 <<< 63 else bits := by
  have small : bits < 2047 * 2 ^ 52 := finite
  have word : (UInt64.ofNat (if negative then bits + 1 <<< 63 else bits)).toNat =
      if negative then bits + 1 <<< 63 else bits := by
    apply UInt64.toNat_ofNat_of_lt'
    rw [Nat.shiftLeft_eq, one_mul, UInt64.size]
    split <;> omega
  rw [ofBits, toBits_ofBits, word]
  rw [word, infinityBits]
  simp only [Nat.shiftLeft_eq, one_mul]
  split <;> omega

theorem unsignedBits_ofBits (finite : bits < infinityBits) :
    unsignedBits (ofBits negative bits) = bits := by
  have small : bits < 2047 * 2 ^ 52 := finite
  rw [unsignedBits, toNat_toBits_ofBits finite, Nat.shiftLeft_eq, one_mul]
  split <;> omega

theorem isFinite_ofBits (finite : bits < infinityBits) : (ofBits negative bits).isFinite = true := by
  rw [isFinite_iff, unsignedBits_ofBits finite]
  exact finite

theorem ofBits_self (x : Float) : ofBits (isNegative x) (unsignedBits x) = x := by
  have word : (if isNegative x then unsignedBits x + 1 <<< 63 else unsignedBits x) =
      x.toBits.toNat := by
    have bound := x.toBits.toNat_lt
    simp only [isNegative, unsignedBits, decide_eq_true_eq, Nat.shiftLeft_eq, one_mul]
    split <;> omega
  rw [ofBits, word, UInt64.ofNat_toNat, Float.ofBits_toBits]

theorem beq_self (finite : x.isFinite = true) : (x == x) = true := by
  rw [Float.beq_self_iff]
  rintro rfl
  revert finite
  decide

theorem beq_zero (negative : Bool) : (ofBits false 0 == ofBits negative 0) = true := by
  revert negative
  decide

end HealthConsensus.Binary64
