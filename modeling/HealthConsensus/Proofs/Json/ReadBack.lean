import HealthConsensus.Proofs.Json.Figures

namespace HealthConsensus

namespace Binary64

variable {x y n d : Nat}

structure Exact (bits n : Nat) : Prop where
  positive : 0 < bits
  finite : bits < infinityBits
  value : (magnitudeOfBits bits).value = n

theorem Exact.nearest? {bits : Nat} (h : Exact bits n) (nonzero : n ≠ 0) :
    nearest? n 1 = some bits := by
  have ratio : (n : ℚ) / (1 : Nat) = (magnitudeOfBits bits).value := by
    rw [h.value, Nat.cast_one, div_one]
  rw [Binary64.nearest?, if_neg nonzero]
  exact nearestBits?_of_value h.positive h.finite one_pos ratio

theorem exists_exact {n : Nat} (nonzero : n ≠ 0) (short : n < 2 ^ 53) : ∃ bits, Exact bits n := by
  obtain ⟨k, places⟩ : ∃ k, n.log2 + k = 52 :=
    ⟨52 - n.log2, by have := (Nat.log2_lt nonzero).2 short; omega⟩
  have low : 2 ^ 52 ≤ n * 2 ^ k := by
    rw [← places, pow_add]
    exact Nat.mul_le_mul_right _ (Nat.log2_self_le nonzero)
  have high : n * 2 ^ k < 2 ^ 53 := by
    have : 2 ^ 53 = 2 ^ (n.log2 + 1) * 2 ^ k := by rw [← pow_add]; congr 1; omega
    rw [this]
    exact Nat.mul_lt_mul_of_pos_right Nat.lt_log2_self (Nat.two_pow_pos k)
  -- the leading one of the significand is left out, and so counts into the exponent
  have bits : magnitudeOfBits ((1074 - k) * 2 ^ 52 + n * 2 ^ k) = ⟨n * 2 ^ k, -k⟩ := by
    simp only [magnitudeOfBits, Nat.shiftRight_eq_div_pow, Nat.shiftLeft_eq, one_mul]
    rw [if_neg (by omega)]
    congr 1 <;> omega
  refine ⟨(1074 - k) * 2 ^ 52 + n * 2 ^ k, by omega, ?_, ?_⟩
  · rw [infinityBits, Nat.shiftLeft_eq]
    omega
  · rw [bits, Dyadic.value, Nat.cast_mul, Nat.cast_pow, Nat.cast_ofNat, zpow_neg, zpow_natCast,
      mul_assoc, mul_inv_cancel₀ (by positivity), mul_one]

theorem times?_def (x y : Nat) : times? x y =
    nearest? ((magnitudeOfBits x).quotient.1 * (magnitudeOfBits y).quotient.1)
      ((magnitudeOfBits x).quotient.2 * (magnitudeOfBits y).quotient.2) := rfl

theorem over?_def (x y : Nat) : over? x y =
    nearest? ((magnitudeOfBits x).quotient.1 * (magnitudeOfBits y).quotient.2)
      ((magnitudeOfBits x).quotient.2 * (magnitudeOfBits y).quotient.1) := rfl

theorem nearest?_zero (d : Nat) : nearest? 0 d = some 0 := rfl

theorem magnitude_zero_quotient : (magnitudeOfBits 0).quotient.1 = 0 := rfl

theorem times?_zero (y : Nat) : times? 0 y = some 0 := by
  rw [times?_def, magnitude_zero_quotient, Nat.zero_mul, nearest?_zero]

theorem over?_zero (y : Nat) : over? 0 y = some 0 := by
  rw [over?_def, magnitude_zero_quotient, Nat.zero_mul, nearest?_zero]

theorem times?_eq (hx : 0 < x) (hy : 0 < y) (hn : 0 < n) (hd : 0 < d)
    (value : (n : ℚ) / d = (magnitudeOfBits x).value * (magnitudeOfBits y).value) :
    times? x y = nearestBits? n d := by
  obtain ⟨x_num, x_den⟩ := Dyadic.quotient_pos (significand_pos hx)
  obtain ⟨y_num, y_den⟩ := Dyadic.quotient_pos (significand_pos hy)
  have product := Nat.mul_pos x_num y_num
  rw [times?_def, nearest?, if_neg product.ne']
  apply nearestBits?_congr product (Nat.mul_pos x_den y_den) hn hd
  rw [value, Nat.cast_mul, Nat.cast_mul, mul_div_mul_comm, Dyadic.quotient_ratio,
    Dyadic.quotient_ratio]

theorem over?_eq (hx : 0 < x) (hy : 0 < y) (hn : 0 < n) (hd : 0 < d)
    (value : (n : ℚ) / d = (magnitudeOfBits x).value / (magnitudeOfBits y).value) :
    over? x y = nearestBits? n d := by
  obtain ⟨x_num, x_den⟩ := Dyadic.quotient_pos (significand_pos hx)
  obtain ⟨y_num, y_den⟩ := Dyadic.quotient_pos (significand_pos hy)
  have product := Nat.mul_pos x_num y_den
  rw [over?_def, nearest?, if_neg product.ne']
  apply nearestBits?_congr product (Nat.mul_pos x_den y_num) hn hd
  rw [value, Nat.cast_mul, Nat.cast_mul, ← Dyadic.quotient_ratio, ← Dyadic.quotient_ratio,
    div_div_div_eq]

end Binary64

namespace Numeral

open Binary64 Ascii

theorem exists_tens {n : Nat} (few : n < 23) : ∃ ten, tens? n = some ten ∧ Exact ten (10 ^ n) := by
  have table : ∀ n < 23, ∃ ten ∈ tens? n, 0 < ten ∧ ten < infinityBits ∧
      (magnitudeOfBits ten).quotient.1 = 10 ^ n * (magnitudeOfBits ten).quotient.2 ∧
      (magnitudeOfBits ten).quotient.2 ≠ 0 := by decide +kernel
  obtain ⟨ten, found, positive, finite, quotient, nonzero⟩ := table n few
  refine ⟨ten, found, positive, finite, ?_⟩
  rw [← Dyadic.quotient_ratio, quotient, Nat.cast_mul, mul_div_cancel_right₀ _ (by exact_mod_cast nonzero)]

theorem le_foldl (significand : Nat) (ds : Bytes) :
    significand ≤ ds.foldl (fun n d => 10 * n + digitValue d) significand := by
  induction ds generalizing significand with
  | nil => exact le_rfl
  | cons d ds ih =>
    calc significand ≤ 10 * significand + digitValue d := by omega
      _ ≤ _ := ih _

theorem fill_eq {significand : Nat} {ds : Bytes}
    (fits : ds.foldl (fun n d => 10 * n + digitValue d) significand < UInt64.size) :
    fill significand ds =
      (ds.foldl (fun n d => 10 * n + digitValue d) significand, ds.length) := by
  induction ds generalizing significand with
  | nil => rfl
  | cons d ds ih =>
    have next : significand * 10 + digitValue d < UInt64.size := by
      rw [Nat.mul_comm]
      exact (le_foldl _ ds).trans_lt fits
    rw [fill, if_pos next, Nat.mul_comm, ih fits]
    rfl

theorem scale?_near (f : Nat) {e : Int} (near : e.natAbs ≤ 22) :
    ∃ ten, Exact ten (10 ^ e.natAbs) ∧ scale? f e = if 0 ≤ e then times? f ten else over? f ten := by
  obtain ⟨ten, found, exact⟩ := exists_tens (Nat.lt_succ_of_le near)
  refine ⟨ten, exact, ?_⟩
  cases e with
  | ofNat n =>
    have few : n ≤ 22 := near
    have found : tens? n = some ten := found
    rw [scale?, if_pos (few.trans (by decide)), found,
      if_pos (show 0 ≤ Int.ofNat n from Int.natCast_nonneg n)]
    rfl
  | negSucc n =>
    have few : n + 1 ≤ 22 := near
    have once : n / mostTens = 0 := Nat.div_eq_of_lt (few.trans (by decide))
    have rest : n % mostTens = n := Nat.mod_eq_of_lt (few.trans (by decide))
    have found : tens? (n + 1) = some ten := found
    rw [scale?, once, rest, found, if_neg (by omega)]
    rfl

theorem scale?_zero {e : Int} (near : e.natAbs ≤ 22) : scale? 0 e = some 0 := by
  obtain ⟨ten, -, scaled⟩ := scale?_near 0 near
  rw [scaled, times?_zero, over?_zero, ite_self]

theorem scale?_eq {f n : Nat} (h : Exact f n) (nonzero : n ≠ 0) {e : Int} (near : e.natAbs ≤ 22) :
    scale? f e = nearestBits? (n * 10 ^ e.toNat) (10 ^ (-e).toNat) := by
  have positive := Nat.pos_of_ne_zero nonzero
  obtain ⟨ten, power, scaled⟩ := scale?_near f near
  rw [scaled]
  split
  · next natural =>
    obtain ⟨m, rfl⟩ := Int.eq_ofNat_of_zero_le natural
    apply times?_eq h.positive power.positive (by positivity) (by positivity)
    simp [h.value, power.value]
  · next negative =>
    obtain ⟨m, same⟩ := Int.eq_ofNat_of_zero_le (neg_nonneg.2 (not_le.1 negative).le)
    obtain rfl : e = -m := by omega
    apply over?_eq h.positive power.positive (by positivity) (by positivity)
    simp [h.value, power.value]

end Numeral

theorem Decimal.toFloat?_of_short {x : Decimal} (nonzero : x.digits ≠ 0) (few : x.digits < 2 ^ 53)
    (near : x.exponent.natAbs ≤ 22) : x.toFloat? =
      (Binary64.nearestBits? (x.digits * 10 ^ x.exponent.toNat) (10 ^ (-x.exponent).toNat)).map
        (Binary64.ofBits x.negative) := by
  have places : (Ascii.natDigits x.digits).length ≤ 16 := by
    by_contra long
    have : 10 ^ 16 ≤ x.digits := by
      refine le_trans ?_ (Ascii.natDigits_bounds (Nat.pos_of_ne_zero nonzero)).1
      exact Nat.pow_le_pow_right (by decide) (by omega)
    omega
  rw [toFloat?, if_neg nonzero, reach, if_neg (by omega), if_neg (by omega)]
  rfl

namespace Numeral

theorem scaled?_eq_toFloat? {x : Numeral} (few : x.toDecimal.digits < 2 ^ 53)
    (near : x.toDecimal.exponent.natAbs ≤ 22) : x.scaled? = x.toFloat? := by
  obtain ⟨whole, same⟩ : ∃ whole, Ascii.natValue x.whole = whole := ⟨_, rfl⟩
  have digits : (x.fraction.getD []).foldl (fun n d => 10 * n + Ascii.digitValue d) whole =
      x.toDecimal.digits := by
    rw [← same, toDecimal, Ascii.natValue, Ascii.natValue, List.foldl_append]
  have fits : x.toDecimal.digits < UInt64.size := few.trans (by decide)
  have taken : fill 0 x.whole = (whole, x.whole.length) := by
    rw [← same]
    apply fill_eq
    refine lt_of_le_of_lt ?_ fits
    rw [← digits, ← same]
    exact le_foldl _ _
  have places : fill whole (x.fraction.getD []) =
      (x.toDecimal.digits, (x.fraction.getD []).length) := by
    rw [← digits]
    apply fill_eq
    rw [digits]
    exact fits
  have exponent : (x.exponent.map Exponent.value).getD 0 + (x.whole.length - x.whole.length : Nat)
      - ((x.fraction.getD []).length : Int) = x.toDecimal.exponent := by
    rw [Nat.sub_self, toDecimal]
    simp
  have read : x.scaled? = (Binary64.nearest? x.toDecimal.digits 1).bind fun f =>
      (scale? f x.toDecimal.exponent).map (Binary64.ofBits x.negative) := by
    rw [scaled?, taken]
    dsimp only
    rw [places]
    dsimp only
    rw [exponent]
    simp only [Option.map_eq_bind]
    rfl
  rw [read, toFloat?]
  by_cases zero : x.toDecimal.digits = 0
  · rw [zero, Binary64.nearest?_zero, Option.bind_some, scale?_zero near, Decimal.toFloat?,
      if_pos zero]
    rfl
  · obtain ⟨f, exact⟩ := Binary64.exists_exact zero few
    rw [exact.nearest? zero, Option.bind_some, scale?_eq exact zero near,
      Decimal.toFloat?_of_short zero few near]
    rfl

end Numeral

theorem Json.readsBack_of_short {x : Float} (finite : x.isFinite = true)
    (few : (Numeral.ofFloat .json x).toDecimal.digits < 2 ^ 53)
    (near : (Numeral.ofFloat .json x).toDecimal.exponent.natAbs ≤ 22) : ReadsBack x := by
  have read : (Numeral.ofFloat .json x).number? = some (.real x) := by
    rw [Numeral.number?_ofFloat, Numeral.scaled?_eq_toFloat? few near,
      Numeral.toFloat?_ofFloat finite, Option.map_some]
  rw [ReadsBack, float?, float, if_pos finite, number?, read]
  rfl

end HealthConsensus
