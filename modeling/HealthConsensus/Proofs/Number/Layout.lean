import HealthConsensus.Proofs.Number.Bits
import HealthConsensus.Proofs.Number.Shortest

namespace HealthConsensus

open Ascii

namespace Ascii

theorem natValue_append (ds es : Bytes) :
    natValue (ds ++ es) = natValue ds * 10 ^ es.length + natValue es := by
  induction es using List.reverseRecOn with
  | nil => simp [natValue]
  | append_singleton es b ih =>
    have last (cs : Bytes) : natValue (cs ++ [b]) = 10 * natValue cs + digitValue b := by
      simp [natValue]
    rw [← List.append_assoc, last, ih, last, List.length_append, List.length_singleton]
    ring

theorem natValue_zeros (n : Nat) : natValue (Numeral.zeros n) = 0 := by
  induction n with
  | zero => rfl
  | succ n ih =>
    have first : Numeral.zeros (n + 1) = Numeral.zeros 1 ++ Numeral.zeros n := rfl
    rw [first, natValue_append, ih]
    exact Nat.zero_mul _

theorem length_zeros (n : Nat) : (Numeral.zeros n).length = n := List.length_replicate

end Ascii

namespace Decimal

def value (x : Decimal) : ℚ := x.digits * 10 ^ x.exponent

theorem value_eq_zero_iff {x : Decimal} : x.value = 0 ↔ x.digits = 0 := by
  simp [value, zpow_ne_zero]

open Binary64

theorem shortest_zero {x : Float} (zero : unsignedBits x = 0) :
    shortest x = ⟨isNegative x, 0, 0⟩ := by
  rw [shortest, zero]
  rfl

theorem shortest_roundsTo {x : Float} (finite : x.isFinite = true) (nonzero : unsignedBits x ≠ 0) :
    (shortest x).negative = isNegative x ∧
      RoundsTo (unsignedBits x) (shortest x).digits (shortest x).exponent := by
  rw [shortest, if_neg nonzero]
  exact ⟨rfl, shortestOfBits_roundsTo (Nat.pos_of_ne_zero nonzero) ((isFinite_iff x).1 finite)⟩

end Decimal

namespace Numeral

variable {x : Decimal} {top : Int}

theorem exponent_value (top : Int) :
    Exponent.value ⟨some (decide (top < 0)), natDigits top.natAbs⟩ = top := by
  by_cases negative : top < 0
  · rw [Exponent.value, if_pos (congrArg some (decide_eq_true negative)), natValue_natDigits]
    omega
  · rw [Exponent.value, if_neg (by simpa using negative), natValue_natDigits]
    omega

theorem toDecimal_scientific (place : top = x.exponent + (natDigits x.digits).length - 1) :
    toDecimal ⟨x.negative, (natDigits x.digits).take 1,
      if (natDigits x.digits).length ≤ 1 then none else some ((natDigits x.digits).drop 1),
      some ⟨some (decide (top < 0)), natDigits top.natAbs⟩⟩ = x := by
  have some_digit : 0 < (natDigits x.digits).length := List.length_pos_iff.2 (natDigits_ne_nil _)
  simp only [toDecimal, Option.map_some, Option.getD_some, exponent_value]
  split
  · next single =>
    have all : (natDigits x.digits).take 1 = natDigits x.digits := List.take_of_length_le single
    have exponent : top - ((([] : Bytes).length : Nat) : Int) = x.exponent := by
      simp only [List.length_nil]
      omega
    simp only [Option.getD_none, List.append_nil, all, natValue_natDigits, exponent]
  · have exponent : top - (((natDigits x.digits).drop 1).length : Int) = x.exponent := by
      rw [List.length_drop]
      omega
    simp only [Option.getD_some, List.take_append_drop, natValue_natDigits, exponent]

theorem toDecimal_small (below : top < 0)
    (place : top = x.exponent + (natDigits x.digits).length - 1) :
    toDecimal ⟨x.negative, zeros 1, some (zeros (-top - 1).toNat ++ natDigits x.digits), none⟩ =
      x := by
  have exponent : 0 - ((zeros (-top - 1).toNat ++ natDigits x.digits).length : Int) = x.exponent := by
    rw [List.length_append, length_zeros]
    omega
  simp only [toDecimal, Option.getD_some, Option.map_none, Option.getD_none, natValue_append,
    natValue_zeros, natValue_natDigits, Nat.zero_mul, Nat.zero_add, exponent]

theorem toDecimal_split (n : Nat) (place : (n : Int) = x.exponent + (natDigits x.digits).length)
    (shorter : n ≤ (natDigits x.digits).length) :
    toDecimal ⟨x.negative, (natDigits x.digits).take n, some ((natDigits x.digits).drop n), none⟩ =
      x := by
  have exponent : 0 - (((natDigits x.digits).drop n).length : Int) = x.exponent := by
    rw [List.length_drop]
    omega
  simp only [toDecimal, Option.getD_some, Option.map_none, Option.getD_none,
    List.take_append_drop, natValue_natDigits, exponent]

theorem toDecimal_integral (x : Decimal) (n : Nat) :
    toDecimal ⟨x.negative, natDigits x.digits ++ zeros n, some (zeros 1), none⟩ =
      ⟨x.negative, x.digits * 10 ^ (n + 1), -1⟩ := by
  simp only [toDecimal, Option.getD_some, Option.map_none, Option.getD_none, natValue_append,
    natValue_zeros, natValue_natDigits, length_zeros, Nat.add_zero, pow_succ]
  rw [pow_zero, one_mul, Nat.mul_assoc]
  rfl

theorem value_integral {n : Nat} (place : x.digits = 0 ∨ (n : Int) = x.exponent) :
    Decimal.value ⟨x.negative, x.digits * 10 ^ (n + 1), -1⟩ = x.value := by
  rw [Decimal.value, Decimal.value]
  obtain zero | place := place
  · simp [zero]
  · rw [← place, zpow_natCast, zpow_neg_one, pow_succ]
    push_cast
    ring

theorem toDecimal_ofDecimal (x : Decimal) :
    (ofDecimal .json x).toDecimal.negative = x.negative ∧
      (ofDecimal .json x).toDecimal.value = x.value := by
  have some_digit : 0 < (natDigits x.digits).length := List.length_pos_iff.2 (natDigits_ne_nil _)
  unfold ofDecimal
  dsimp only
  by_cases zero : x.digits = 0
  · have single : (natDigits x.digits).length ≤ Int.toNat 0 + 1 := by
      rw [zero]
      decide
    rw [if_pos zero, if_neg (by decide), if_neg (by decide), if_pos single]
    exact ⟨rfl, (congrArg Decimal.value (toDecimal_integral x _)).trans (value_integral (.inl zero))⟩
  · -- only the layout without a fraction adds zeros; the others keep the digits as they are
    rw [if_neg zero]
    generalize place : x.exponent + ((natDigits x.digits).length : Int) - 1 = top
    split
    · rw [toDecimal_scientific place.symm]
      exact ⟨rfl, rfl⟩
    · split
      · next below =>
        rw [toDecimal_small below place.symm]
        exact ⟨rfl, rfl⟩
      · split
        · refine ⟨rfl, (congrArg Decimal.value (toDecimal_integral x _)).trans (value_integral ?_)⟩
          omega
        · rw [toDecimal_split _ (by omega) (by omega)]
          exact ⟨rfl, rfl⟩

theorem toFloat?_ofFloat {x : Float} (finite : x.isFinite = true) :
    (ofFloat .json x).toFloat? = some x := by
  obtain ⟨negative, value⟩ := toDecimal_ofDecimal (Decimal.shortest x)
  rw [toFloat?, ofFloat]
  generalize (ofDecimal .json (Decimal.shortest x)).toDecimal = d at negative value
  have self := Binary64.ofBits_self x
  by_cases zero : Binary64.unsignedBits x = 0
  · rw [Decimal.shortest_zero zero] at negative value
    have none_left : d.digits = 0 := by
      rw [← Decimal.value_eq_zero_iff, value, Decimal.value_eq_zero_iff]
    rw [zero, show Binary64.isNegative x = d.negative from negative.symm] at self
    rw [Decimal.toFloat?, if_pos none_left, self]
  · obtain ⟨sign, rounds⟩ := Decimal.shortest_roundsTo finite zero
    have positive : 0 < d.digits := by
      rw [Nat.pos_iff_ne_zero, ne_eq, ← Decimal.value_eq_zero_iff, value, Decimal.value_eq_zero_iff]
      exact rounds.positive.ne'
    rw [sign] at negative
    rw [← negative] at self
    rw [Decimal.toFloat?_of_roundsTo (rounds.congr positive value) (Nat.pos_of_ne_zero zero), self]

theorem isWhole_ofDecimal (x : Decimal) : (ofDecimal .json x).isWhole = false := by
  unfold ofDecimal
  dsimp only
  generalize (if x.digits = 0 then (0 : Int) else _) = top
  split
  · simp [isWhole]
  · split
    · rfl
    · split <;> rfl

end Numeral

end HealthConsensus
