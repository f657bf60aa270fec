import HealthConsensus.Number.Decimal
import HealthConsensus.Proofs.Number.Digits
import HealthConsensus.Proofs.Number.Rounding
import Mathlib.Tactic.FieldSimp
import Mathlib.Tactic.Ring

namespace HealthConsensus

theorem Ascii.natDigits_bounds {n : Nat} (positive : 0 < n) :
    10 ^ ((natDigits n).length - 1) ≤ n ∧ n < 10 ^ ((natDigits n).length - 1 + 1) := by
  have length : (natDigits n).length = (Nat.toDigits 10 n).length := List.length_map _
  have some_digit : 0 < (natDigits n).length := List.length_pos_iff.2 (natDigits_ne_nil n)
  constructor
  · by_contra short
    have low : 0 < (natDigits n).length - 1 := by
      by_contra none_left
      rw [Nat.eq_zero_of_not_pos none_left] at short
      exact short positive
    have := (Nat.length_toDigits_le_iff (b := 10) (by decide) low).2 (Nat.lt_of_not_le short)
    omega
  · rw [Nat.sub_add_cancel some_digit]
    exact (Nat.length_toDigits_le_iff (by decide) some_digit).1 length.ge

namespace Decimal

open Binary64

structure RoundsTo (bits digits : Nat) (e : Int) : Prop where
  positive : 0 < digits
  nearest : nearestBits? (digits * 10 ^ e.toNat) (10 ^ (-e).toNat) = some bits

variable {bits digits digits' n d : Nat} {e e' : Int}

theorem ratio_eq (digits : Nat) (e : Int) :
    ((digits * 10 ^ e.toNat : Nat) : ℚ) / (10 ^ (-e).toNat : Nat) = digits * (10 : ℚ) ^ e := by
  simpa using scaled_ratio (b := 10) (by decide) digits 1 e

theorem RoundsTo.congr (h : RoundsTo bits digits e) (positive : 0 < digits')
    (same : (digits' : ℚ) * 10 ^ e' = digits * 10 ^ e) : RoundsTo bits digits' e' := by
  have first := h.positive
  refine ⟨positive, ?_⟩
  rw [← h.nearest]
  apply nearestBits?_congr (by positivity) (by positivity) (by positivity) (by positivity)
  rw [ratio_eq, ratio_eq, same]

theorem roundsTo_of_value (some_bit : 0 < bits) (finite : bits < infinityBits)
    (positive : 0 < digits) (value : (digits : ℚ) * 10 ^ e = (magnitudeOfBits bits).value) :
    RoundsTo bits digits e :=
  ⟨positive, nearestBits?_of_value some_bit finite (by positivity) ((ratio_eq digits e).trans value)⟩

theorem leadingPower_le (hn : 0 < n) (hd : 0 < d) : (10 : ℚ) ^ leadingPower n d ≤ (n : ℚ) / d := by
  obtain ⟨n_low, n_high⟩ := Ascii.natDigits_bounds hn
  obtain ⟨d_low, d_high⟩ := Ascii.natDigits_bounds hd
  have some_digit (m : Nat) : 0 < (Ascii.natDigits m).length :=
    List.length_pos_iff.2 (Ascii.natDigits_ne_nil m)
  have low := (ratio_bounds (b := 10) (by decide) hd n_low n_high d_low d_high).1
  have reached (guess : Int) :
      (if guess < 0 then d ≤ n * .pow 10 (-guess).toNat else d * .pow 10 guess.toNat ≤ n) ↔
        (10 : ℚ) ^ guess ≤ (n : ℚ) / d := by
    have power := zpow_le_ratio (b := 10) (by decide) n hd guess
    rw [Nat.cast_ofNat] at power
    rw [power]
    split
    · next negative => simp [Int.toNat_of_nonpos negative.le]
    · next natural => simp [Int.toNat_of_nonpos (neg_nonpos.2 (not_lt.1 natural))]
  rw [leadingPower]
  by_cases guessed :
      (10 : ℚ) ^ ((Ascii.natDigits n).length - (Ascii.natDigits d).length : Int) ≤ n / d
  · rw [if_pos ((reached _).2 guessed)]
    exact guessed
  · rw [if_neg (mt (reached _).1 guessed)]
    have same : ((Ascii.natDigits n).length - (Ascii.natDigits d).length - 1 : Int) =
        ((Ascii.natDigits n).length - 1 : Nat) - ((Ascii.natDigits d).length - 1 : Nat) - 1 := by
      have := some_digit n
      have := some_digit d
      omega
    rw [same]
    exact low.le

theorem neighbours_positive (hd : 0 < d) (low : (10 : ℚ) ^ e ≤ (n : ℚ) / d) :
    ∀ c ∈ neighbours n d e, 0 < c := by
  have whole : d * 10 ^ e.toNat ≤ n * 10 ^ (-e).toNat :=
    (zpow_le_ratio (b := 10) (by decide) n hd e).1 (by simpa using low)
  have first : 0 < n * 10 ^ (-e).toNat / (d * 10 ^ e.toNat) := Nat.div_pos whole (by positivity)
  intro c hc
  rw [neighbours] at hc
  split at hc <;> simp at hc <;> omega

theorem roundsTo_of_readsBack {c : Nat} (hd : 0 < d) (low : (10 : ℚ) ^ e ≤ (n : ℚ) / d)
    (found : readsBack bits n d e = some (c, e')) : RoundsTo bits c e' := by
  obtain ⟨c, first, same⟩ := Option.map_eq_some_iff.1 found
  cases same
  have nearest := List.find?_some first
  exact ⟨neighbours_positive hd low c (List.mem_of_find?_eq_some first), eq_of_beq nearest⟩

theorem exact_value (x : Dyadic) : ((exact x).1 : ℚ) * 10 ^ (exact x).2 = x.value := by
  rw [exact, Dyadic.value]
  split
  · next negative =>
    obtain ⟨k, same⟩ := Int.eq_ofNat_of_zero_le (neg_nonneg.2 negative.le)
    have exponent : x.exponent = -(k : Int) := by omega
    have ten : (10 : ℚ) ^ k = 5 ^ k * 2 ^ k := by rw [← mul_pow]; norm_num
    rw [exponent, neg_neg, Int.toNat_natCast, zpow_neg, zpow_neg, zpow_natCast, zpow_natCast, ten,
      Nat.cast_mul, Nat.pow_eq, Nat.cast_pow]
    push_cast
    field_simp
  · next natural =>
    obtain ⟨k, exponent⟩ := Int.eq_ofNat_of_zero_le (not_lt.1 natural)
    rw [exponent, Int.toNat_natCast, Nat.shiftLeft_eq, zpow_natCast, zpow_zero, mul_one]
    push_cast
    rfl

theorem exact_positive {x : Dyadic} (positive : 0 < x.significand) : 0 < (exact x).1 := by
  rw [exact]
  split
  · exact Nat.mul_pos positive (Nat.pow_pos (by decide))
  · rw [Nat.shiftLeft_eq]
    exact Nat.mul_pos positive (Nat.two_pow_pos _)

theorem trim_value (fuel n : Nat) (e : Int) :
    ((trim fuel n e).1 : ℚ) * 10 ^ (trim fuel n e).2 = n * 10 ^ e := by
  induction fuel generalizing n e with
  | zero => rfl
  | succ fuel ih =>
    rw [trim]
    split
    · next round =>
      have whole : ((n / 10 : Nat) : ℚ) * 10 = n := by
        exact_mod_cast Nat.div_mul_cancel (Nat.dvd_of_mod_eq_zero round)
      rw [ih, zpow_add_one₀ (by norm_num), ← whole]
      ring
    · rfl

theorem trim_positive {fuel n : Nat} (positive : 0 < n) (e : Int) : 0 < (trim fuel n e).1 := by
  induction fuel generalizing n e with
  | zero => exact positive
  | succ fuel ih =>
    rw [trim]
    split
    · exact ih (by omega) _
    · exact positive

theorem RoundsTo.trim (h : RoundsTo bits digits e) (fuel : Nat) :
    RoundsTo bits (trim fuel digits e).1 (trim fuel digits e).2 :=
  h.congr (trim_positive h.positive e) (trim_value fuel digits e)

theorem shortestOfBits_roundsTo (some_bit : 0 < bits) (finite : bits < infinityBits) :
    RoundsTo bits (shortestOfBits bits).1 (shortestOfBits bits).2 := by
  have significand := significand_pos some_bit
  obtain ⟨hn, hd⟩ := Dyadic.quotient_pos significand
  have all : RoundsTo bits (exact (magnitudeOfBits bits)).1 (exact (magnitudeOfBits bits)).2 :=
    roundsTo_of_value some_bit finite (exact_positive significand) (exact_value _)
  have few (r : Nat × Int) (i : Nat) (chosen : readsBack bits (magnitudeOfBits bits).quotient.1
      (magnitudeOfBits bits).quotient.2 (leadingPower (magnitudeOfBits bits).quotient.1
        (magnitudeOfBits bits).quotient.2 - i) = some r) : RoundsTo bits r.1 r.2 := by
    refine roundsTo_of_readsBack hd (le_trans ?_ (leadingPower_le hn hd)) chosen
    exact zpow_le_zpow_right₀ (by norm_num) (by omega)
  rw [shortestOfBits]
  refine RoundsTo.trim ?_ 400
  cases found : (List.range 17).findSome? _ with
  | none => exact all
  | some r =>
    obtain ⟨i, -, chosen⟩ := List.exists_of_findSome?_eq_some found
    exact few r i chosen

theorem two_zpow_le_ten_zpow {k : Int} (small : k ≤ 1200) : (2 : ℚ) ^ k ≤ 10 ^ (400 : Int) := by
  calc (2 : ℚ) ^ k ≤ 2 ^ (1200 : Int) := zpow_le_zpow_right₀ (by norm_num) small
    _ = (2 ^ (3 : Int)) ^ (400 : Int) := by rw [← zpow_mul]; rfl
    _ ≤ 10 ^ (400 : Int) := zpow_le_zpow_left₀ (by norm_num) (by norm_num) (by norm_num)

theorem places_bounds {x : Decimal} (h : RoundsTo bits x.digits x.exponent) (some_bit : 0 < bits) :
    -reach ≤ x.exponent + (Ascii.natDigits x.digits).length ∧
      x.exponent + (Ascii.natDigits x.digits).length ≤ reach := by
  have positive := h.positive
  obtain ⟨low, high⟩ := ratio_of_nearestBits? (by positivity) (by positivity) some_bit h.nearest
  rw [ratio_eq] at low high
  obtain ⟨first, last⟩ := Ascii.natDigits_bounds positive
  obtain ⟨k, length⟩ := Nat.exists_eq_add_one.2
    (List.length_pos_iff.2 (Ascii.natDigits_ne_nil x.digits))
  rw [length, Nat.add_sub_cancel] at first last
  have power : (0 : ℚ) < 10 ^ x.exponent := by positivity
  have at_least : (10 : ℚ) ^ (k + x.exponent) ≤ x.digits * 10 ^ x.exponent := by
    rw [zpow_add₀ (by norm_num), zpow_natCast]
    exact mul_le_mul_of_nonneg_right (by exact_mod_cast first) power.le
  have below : x.digits * (10 : ℚ) ^ x.exponent < 10 ^ (((k + 1 : Nat) : Int) + x.exponent) := by
    rw [zpow_add₀ (by norm_num), zpow_natCast]
    exact mul_lt_mul_of_pos_right (by exact_mod_cast last) power
  have upper : (10 : ℚ) ^ (k + x.exponent) < 10 ^ (400 : Int) :=
    (at_least.trans_lt high).trans_le (two_zpow_le_ten_zpow (by norm_num))
  have lower : (10 : ℚ) ^ (-400 : Int) < 10 ^ (((k + 1 : Nat) : Int) + x.exponent) := by
    refine lt_of_le_of_lt ?_ (low.trans_lt below)
    rw [zpow_neg, zpow_neg]
    exact inv_anti₀ (by positivity) (two_zpow_le_ten_zpow (by norm_num))
  rw [zpow_lt_zpow_iff_right₀ (by norm_num)] at upper lower
  rw [length, reach]
  omega

theorem toFloat?_of_roundsTo {x : Decimal} (h : RoundsTo bits x.digits x.exponent)
    (some_bit : 0 < bits) : x.toFloat? = some (ofBits x.negative bits) := by
  obtain ⟨low, high⟩ := places_bounds h some_bit
  rw [toFloat?, if_neg h.positive.ne', if_neg (not_lt.2 high), if_neg (not_lt.2 low)]
  exact congrArg (Option.map _) h.nearest

end Decimal

end HealthConsensus
