import HealthConsensus.Number.Binary64
import Mathlib.Algebra.Order.Field.Power
import Mathlib.Data.Int.Log
import Mathlib.Data.Rat.Floor
import Mathlib.Tactic.NormNum
import Mathlib.Tactic.Positivity

namespace HealthConsensus

theorem roundQuotient_mul (n d : Nat) {c : Nat} (positive : 0 < c) :
    roundQuotient (n * c) (d * c) = roundQuotient n d := by
  have less (a b : Nat) : 2 * (a * c) < b * c ↔ 2 * a < b := by
    rw [← Nat.mul_assoc, Nat.mul_lt_mul_right positive]
  have more (a b : Nat) : b * c < 2 * (a * c) ↔ b < 2 * a := by
    rw [← Nat.mul_assoc, Nat.mul_lt_mul_right positive]
  simp only [roundQuotient, Nat.mul_mod_mul_right, Nat.mul_div_mul_right _ _ positive, less, more]

theorem roundQuotient_congr {n d n' d' : Nat} (hd : 0 < d) (hd' : 0 < d')
    (same : (n : ℚ) / d = n' / d') : roundQuotient n d = roundQuotient n' d' := by
  have crossed : n * d' = n' * d := by
    rw [div_eq_div_iff (by positivity) (by positivity)] at same
    exact_mod_cast same
  rw [← roundQuotient_mul n d hd', ← roundQuotient_mul n' d' hd, crossed, Nat.mul_comm d d']

theorem roundQuotient_exact (n : Nat) {d : Nat} (positive : 0 < d) : roundQuotient (n * d) d = n := by
  rw [roundQuotient, Nat.mul_mod_left, Nat.mul_div_cancel _ positive]
  exact if_pos positive

section Powers

variable {b : Nat}

theorem zpow_split (base : 0 < b) (e : Int) :
    (b : ℚ) ^ e = (b ^ e.toNat : Nat) / (b ^ (-e).toNat : Nat) := by
  have base : (b : ℚ) ≠ 0 := by positivity
  rw [Nat.cast_pow, Nat.cast_pow, ← zpow_natCast, ← zpow_natCast, ← zpow_sub₀ base]
  congr 1
  omega

theorem scaled_ratio (base : 0 < b) (n d : Nat) (e : Int) :
    ((n * b ^ e.toNat : Nat) : ℚ) / (d * b ^ (-e).toNat : Nat) = n / d * (b : ℚ) ^ e := by
  rw [zpow_split base, Nat.cast_mul, Nat.cast_mul, mul_div_mul_comm]

theorem ratio_lt_zpow (base : 0 < b) (n : Nat) {d : Nat} (hd : 0 < d) (e : Int) :
    (n : ℚ) / d < (b : ℚ) ^ e ↔ n * b ^ (-e).toNat < d * b ^ e.toNat := by
  have power : (0 : ℚ) < (b ^ (-e).toNat : Nat) := by positivity
  rw [zpow_split base, div_lt_div_iff₀ (by positivity) power, mul_comm ((b ^ e.toNat : Nat) : ℚ)]
  exact_mod_cast Iff.rfl

theorem zpow_le_ratio (base : 0 < b) (n : Nat) {d : Nat} (hd : 0 < d) (e : Int) :
    (b : ℚ) ^ e ≤ (n : ℚ) / d ↔ d * b ^ e.toNat ≤ n * b ^ (-e).toNat := by
  rw [← not_lt, ratio_lt_zpow base n hd e, not_lt]

theorem log_eq (base : 1 < b) {r : ℚ} (positive : 0 < r) {e : Int} (low : (b : ℚ) ^ e ≤ r)
    (high : r < (b : ℚ) ^ (e + 1)) : Int.log b r = e := by
  have := (Int.zpow_le_iff_le_log base positive).1 low
  have := (Int.lt_zpow_iff_log_lt base positive).1 high
  omega

theorem ratio_bounds (base : 1 < b) {n d i j : Nat} (hd : 0 < d) (n_low : b ^ i ≤ n)
    (n_high : n < b ^ (i + 1)) (d_low : b ^ j ≤ d) (d_high : d < b ^ (j + 1)) :
    (b : ℚ) ^ ((i : Int) - j - 1) < (n : ℚ) / d ∧ (n : ℚ) / d < (b : ℚ) ^ ((i : Int) - j + 1) := by
  have nonzero : (b : ℚ) ≠ 0 := by positivity
  have low : (b : ℚ) ^ ((i : Int) - j - 1) = (b ^ i : Nat) / (b ^ (j + 1) : Nat) := by
    rw [Nat.cast_pow, Nat.cast_pow, ← zpow_natCast, ← zpow_natCast, ← zpow_sub₀ nonzero]
    congr 1
    omega
  have high : (b : ℚ) ^ ((i : Int) - j + 1) = (b ^ (i + 1) : Nat) / (b ^ j : Nat) := by
    rw [Nat.cast_pow, Nat.cast_pow, ← zpow_natCast, ← zpow_natCast, ← zpow_sub₀ nonzero]
    congr 1
    omega
  have pos (k : Nat) : (0 : ℚ) < (b ^ k : Nat) := by positivity
  have divisor : (0 : ℚ) < d := by positivity
  rw [low, high, div_lt_div_iff₀ (pos _) divisor, div_lt_div_iff₀ divisor (pos _)]
  constructor
  · have : b ^ i * d < n * b ^ (j + 1) :=
      Nat.mul_lt_mul_of_le_of_lt n_low d_high (Nat.lt_of_lt_of_le (Nat.pow_pos (by omega)) n_low)
    exact_mod_cast this
  · have : n * b ^ j < b ^ (i + 1) * d :=
      Nat.mul_lt_mul_of_lt_of_le n_high d_low hd
    exact_mod_cast this

end Powers

def Dyadic.value (x : Dyadic) : ℚ := x.significand * (2 : ℚ) ^ x.exponent

namespace Dyadic

variable {x : Dyadic}

theorem quotient_ratio (x : Dyadic) : (x.quotient.1 : ℚ) / x.quotient.2 = x.value := by
  simpa [quotient, value, Nat.shiftLeft_eq] using
    scaled_ratio (b := 2) (by decide) x.significand 1 x.exponent

theorem quotient_pos (positive : 0 < x.significand) : 0 < x.quotient.1 ∧ 0 < x.quotient.2 := by
  simp only [quotient, Nat.shiftLeft_eq]
  exact ⟨Nat.mul_pos positive (Nat.two_pow_pos _), Nat.mul_pos one_pos (Nat.two_pow_pos _)⟩

end Dyadic

namespace Binary64

theorem small_iff (n : Nat) {d : Nat} (hd : 0 < d) (e : Int) :
    (if e < 0 then n <<< (-e).toNat < d <<< 52 else n < d <<< e.toNat <<< 52) ↔
      (n : ℚ) / d < (2 : ℚ) ^ (e + 52) := by
  have shifted := ratio_lt_zpow (b := 2) (by decide) n (Nat.mul_pos hd (Nat.two_pow_pos 52)) e
  have ratio : (n : ℚ) / (d * 2 ^ 52 : Nat) < (2 : ℚ) ^ e ↔ (n : ℚ) / d < (2 : ℚ) ^ (e + 52) := by
    rw [Nat.cast_mul, ← div_div, div_lt_iff₀ (by positivity), zpow_add₀ (by norm_num)]
    norm_num
  rw [Nat.cast_ofNat] at shifted
  rw [← ratio, shifted]
  simp only [Nat.shiftLeft_eq]
  split
  · next negative => simp [Int.toNat_of_nonpos negative.le]
  · next natural => simp [Int.toNat_of_nonpos (neg_nonpos.2 (not_lt.1 natural)), mul_right_comm]

theorem exponentOf_eq {n d : Nat} (hn : 0 < n) (hd : 0 < d) :
    exponentOf n d = max (-1074) (Int.log 2 ((n : ℚ) / d) - 52) := by
  have positive : (0 : ℚ) < (n : ℚ) / d := by positivity
  obtain ⟨low, high⟩ := ratio_bounds (b := 2) (by decide) hd (Nat.log2_self_le hn.ne')
    Nat.lt_log2_self (Nat.log2_self_le hd.ne') Nat.lt_log2_self
  have small := small_iff n hd ((n.log2 : Int) - d.log2 - 52)
  rw [sub_add_cancel] at small
  rw [exponentOf]
  by_cases below : (n : ℚ) / d < (2 : ℚ) ^ ((n.log2 : Int) - d.log2)
  · rw [if_pos (small.2 below), log_eq (b := 2) (by decide) positive low.le]
    · congr 1
      omega
    · rw [sub_add_cancel]
      exact below
  · rw [if_neg (mt small.1 below), log_eq (b := 2) (by decide) positive (not_lt.1 below) high]

theorem nearestBits?_eq (n d : Nat) {e : Int} (exponent : exponentOf n d = e) :
    nearestBits? n d =
      let bits := (e + 1074).toNat * 2 ^ 52 +
        roundQuotient (n * 2 ^ (-e).toNat) (d * 2 ^ e.toNat)
      if bits < infinityBits then some bits else none := by
  have significand :
      (if e < 0 then roundQuotient (n <<< (-e).toNat) d else roundQuotient n (d <<< e.toNat)) =
        roundQuotient (n * 2 ^ (-e).toNat) (d * 2 ^ e.toNat) := by
    simp only [Nat.shiftLeft_eq]
    split
    · next negative => simp [Int.toNat_of_nonpos negative.le]
    · next natural => simp [Int.toNat_of_nonpos (neg_nonpos.2 (not_lt.1 natural))]
  rw [nearestBits?, exponent, ← significand, Nat.shiftLeft_eq]

theorem scaled_down (n d : Nat) (e : Int) :
    ((n * 2 ^ (-e).toNat : Nat) : ℚ) / (d * 2 ^ e.toNat : Nat) = n / d * (2 : ℚ) ^ (-e) := by
  simpa using scaled_ratio (b := 2) (by decide) n d (-e)

theorem nearestBits?_congr {n d n' d' : Nat} (hn : 0 < n) (hd : 0 < d) (hn' : 0 < n') (hd' : 0 < d')
    (same : (n : ℚ) / d = n' / d') : nearestBits? n d = nearestBits? n' d' := by
  have exponent : exponentOf n d = exponentOf n' d' := by
    rw [exponentOf_eq hn hd, exponentOf_eq hn' hd', same]
  have significand (e : Int) : roundQuotient (n * 2 ^ (-e).toNat) (d * 2 ^ e.toNat) =
      roundQuotient (n' * 2 ^ (-e).toNat) (d' * 2 ^ e.toNat) := by
    apply roundQuotient_congr (by positivity) (by positivity)
    rw [scaled_down, scaled_down, same]
  rw [nearestBits?_eq n d exponent, nearestBits?_eq n' d' rfl, significand]

theorem magnitudeOfBits_cases (bits : Nat) :
    let x := magnitudeOfBits bits
    (x.exponent + 1074).toNat * 2 ^ 52 + x.significand = bits ∧ x.significand < 2 ^ 53 ∧
      (x.exponent = -1074 ∨ -1074 < x.exponent ∧ 2 ^ 52 ≤ x.significand) := by
  simp only [magnitudeOfBits, Nat.shiftRight_eq_div_pow, Nat.shiftLeft_eq, one_mul]
  split <;> dsimp only <;> omega

theorem significand_pos {bits : Nat} (positive : 0 < bits) :
    0 < (magnitudeOfBits bits).significand := by
  obtain ⟨bits_eq, -, least | ⟨-, long⟩⟩ := magnitudeOfBits_cases bits
  · rw [least] at bits_eq
    omega
  · omega

theorem log_value {x : Dyadic} (positive : 0 < x.significand) :
    Int.log 2 x.value = x.significand.log2 + x.exponent := by
  have power : (0 : ℚ) < (2 : ℚ) ^ x.exponent := by positivity
  have low : ((2 ^ x.significand.log2 : Nat) : ℚ) ≤ x.significand :=
    Nat.cast_le.2 (Nat.log2_self_le positive.ne')
  have high : (x.significand : ℚ) < (2 ^ (x.significand.log2 + 1) : Nat) :=
    Nat.cast_lt.2 Nat.lt_log2_self
  apply log_eq (by decide) (mul_pos (Nat.cast_pos.2 positive) power)
  · rw [Nat.cast_ofNat, zpow_add₀ (by norm_num), zpow_natCast]
    rw [Nat.cast_pow, Nat.cast_ofNat] at low
    exact mul_le_mul_of_nonneg_right low power.le
  · rw [Nat.cast_ofNat, add_right_comm, zpow_add₀ (by norm_num), ← Nat.cast_succ, zpow_natCast]
    rw [Nat.cast_pow, Nat.cast_ofNat] at high
    exact mul_lt_mul_of_pos_right high power

theorem nearestBits?_of_value {bits n d : Nat} (positive : 0 < bits) (finite : bits < infinityBits)
    (hd : 0 < d) (value : (n : ℚ) / d = (magnitudeOfBits bits).value) :
    nearestBits? n d = some bits := by
  obtain ⟨bits_eq, short, least⟩ := magnitudeOfBits_cases bits
  have significand := significand_pos positive
  generalize magnitudeOfBits bits = x at bits_eq short least value significand
  have power : (0 : ℚ) < (2 : ℚ) ^ x.exponent := by positivity
  have hn : 0 < n := by
    rw [Nat.pos_iff_ne_zero]
    rintro rfl
    rw [Dyadic.value, Nat.cast_zero, zero_div] at value
    have : (0 : ℚ) < x.significand * (2 : ℚ) ^ x.exponent := by positivity
    exact this.ne value
  -- the logarithm gives back the exponent, and on this scale nothing is left to round
  have exponent : exponentOf n d = x.exponent := by
    rw [exponentOf_eq hn hd, value, log_value significand]
    have bound : x.significand.log2 < 53 := (Nat.log2_lt significand.ne').2 short
    obtain least | ⟨greater, long⟩ := least
    · omega
    · have : x.significand.log2 = 52 := by
        have := (Nat.le_log2 significand.ne').2 long
        omega
      omega
  have rounded : roundQuotient (n * 2 ^ (-x.exponent).toNat) (d * 2 ^ x.exponent.toNat) =
      x.significand := by
    rw [← roundQuotient_exact x.significand one_pos]
    apply roundQuotient_congr (by positivity) one_pos
    rw [scaled_down, value, Dyadic.value, mul_assoc, ← zpow_add₀ (by norm_num)]
    simp
  rw [nearestBits?_eq n d exponent, rounded, bits_eq]
  exact if_pos finite

theorem roundQuotient_scaled_zero {n d : Nat} {e : Int} (hd : 0 < d) (negative : e < 0)
    (small : (n : ℚ) / d < (2 : ℚ) ^ (e - 1)) :
    roundQuotient (n * 2 ^ (-e).toNat) (d * 2 ^ e.toNat) = 0 := by
  have tiny := (ratio_lt_zpow (b := 2) (by decide) n hd (e - 1)).1 small
  have up : (-(e - 1)).toNat = (-e).toNat + 1 := by omega
  have flat : (e - 1).toNat = e.toNat := by omega
  rw [up, flat, pow_succ, ← Nat.mul_assoc, Nat.mul_comm _ 2] at tiny
  generalize n * 2 ^ (-e).toNat = a at tiny ⊢
  generalize d * 2 ^ e.toNat = b at tiny ⊢
  rw [roundQuotient, Nat.mod_eq_of_lt (by omega), Nat.div_eq_of_lt (by omega)]
  exact if_pos tiny

theorem ratio_of_nearestBits? {bits n d : Nat} (hn : 0 < n) (hd : 0 < d) (positive : 0 < bits)
    (nearest : nearestBits? n d = some bits) :
    (2 : ℚ) ^ (-1075 : Int) ≤ (n : ℚ) / d ∧ (n : ℚ) / d < (2 : ℚ) ^ (1025 : Int) := by
  have ratio : (0 : ℚ) < (n : ℚ) / d := by positivity
  obtain ⟨e, exponent⟩ : ∃ e, exponentOf n d = e := ⟨_, rfl⟩
  rw [nearestBits?_eq n d exponent] at nearest
  rw [exponentOf_eq hn hd] at exponent
  obtain ⟨finite, bits_eq⟩ := Option.ite_none_right_eq_some.1 nearest
  have bits_eq := Option.some.inj bits_eq
  constructor
  · by_contra small
    have small : (n : ℚ) / d < (2 : ℚ) ^ (-1075 : Int) := not_le.1 small
    have low : Int.log 2 ((n : ℚ) / d) < -1075 :=
      (Int.lt_zpow_iff_log_lt (b := 2) (by decide) ratio).1 small
    have least : e = -1074 := by omega
    rw [roundQuotient_scaled_zero hd (by omega) (by rw [least]; exact small), least] at bits_eq
    exact positive.ne bits_eq
  · rw [infinityBits, Nat.shiftLeft_eq] at finite
    have high : Int.log 2 ((n : ℚ) / d) < 1025 := by omega
    exact (Int.lt_zpow_iff_log_lt (b := 2) (by decide) ratio).2 high

end Binary64

end HealthConsensus
