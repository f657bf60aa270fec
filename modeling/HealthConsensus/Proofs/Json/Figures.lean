import HealthConsensus.Proofs.Json.Fields
import HealthConsensus.Proofs.Number.Layout
import Mathlib.Data.Nat.Cast.Field

namespace HealthConsensus

open Binary64

namespace Decimal

theorem isFinite_of_toFloat? {x : Decimal} {f : Float} (h : x.toFloat? = some f) :
    f.isFinite = true := by
  have zero (negative : Bool) : (ofBits negative 0).isFinite = true := isFinite_ofBits (by decide)
  rw [toFloat?] at h
  split at h
  · cases h
    exact zero _
  · dsimp only at h
    split at h
    · cases h
    · split at h
      · cases h
        exact zero _
      · obtain ⟨bits, nearest, rfl⟩ := Option.map_eq_some_iff.1 h
        obtain ⟨finite, same⟩ := Option.ite_none_right_eq_some.1 nearest
        cases same
        exact isFinite_ofBits finite

end Decimal

namespace Binary64

def value (x : Float) : ℚ :=
  if isNegative x then -(magnitude x).value else (magnitude x).value

variable {x : Float}

theorem magnitude_pos (nonzero : unsignedBits x ≠ 0) : 0 < (magnitude x).value := by
  have significand : 0 < (magnitude x).significand := significand_pos (Nat.pos_of_ne_zero nonzero)
  rw [Dyadic.value]
  positivity

theorem magnitude_zero (zero : unsignedBits x = 0) : (magnitude x).value = 0 := by
  rw [magnitude, zero, Dyadic.value]
  exact zero_mul _

theorem abs_value (x : Float) : |value x| = (magnitude x).value := by
  have natural : 0 ≤ (magnitude x).value := by
    rw [Dyadic.value]
    positivity
  rw [value]
  split
  · rw [abs_neg, abs_of_nonneg natural]
  · exact abs_of_nonneg natural

theorem value_eq_zero_iff : value x = 0 ↔ unsignedBits x = 0 := by
  rw [← abs_eq_zero, abs_value]
  constructor
  · intro zero
    by_contra nonzero
    exact (magnitude_pos nonzero).ne' zero
  · exact magnitude_zero

end Binary64

namespace Number

variable {x : Float}

theorem isFinite_getD (d : Decimal) : (d.toFloat?.getD 0).isFinite = true := by
  cases read : d.toFloat? with
  | none => decide
  | some f => exact Decimal.isFinite_of_toFloat? read

def Canonical : Number → Prop
  | natural _ => True
  | negative n => 0 < n
  | real x => x.isFinite = true

def value : Number → ℚ
  | natural n => n
  | negative n => -n
  | real x => Binary64.value x

theorem isFinite_toFloat {n : Number} (h : n.Canonical) : n.toFloat.isFinite = true := by
  cases n with
  | natural n => exact isFinite_getD _
  | negative n => exact isFinite_getD _
  | real x => exact h

theorem canonical_settle {n : Number} (h : n.Canonical) : n.settle.Canonical := by
  cases n with
  | natural n => trivial
  | negative n => exact h
  | real x =>
    rw [settle]
    split
    · split
      · split
        · trivial
        · next below =>
          rw [Canonical]
          omega
      · exact h
    · exact h

theorem value_of_toInt? {n : Int} (integral : toInt? x = some n) : Binary64.value x = n := by
  obtain ⟨whole, same⟩ := Option.ite_none_right_eq_some.1 integral
  have divides : (magnitude x).quotient.1 % (magnitude x).quotient.2 = 0 :=
    eq_of_beq (Bool.and_eq_true_iff.1 whole).2
  obtain ⟨k, exact⟩ : ∃ k, k = (magnitude x).quotient.1 / (magnitude x).quotient.2 := ⟨_, rfl⟩
  have value : (magnitude x).value = k := by
    rw [exact, Nat.cast_div_charZero (Nat.dvd_of_mod_eq_zero divides), Dyadic.quotient_ratio]
  have same : (if isNegative x then -(k : Int) else k) = n := by
    rw [exact]
    exact Option.some.inj same
  rw [← same, Binary64.value, value]
  split <;> simp

theorem toInt?_of_value (finite : x.isFinite = true) {n : Int} (value : Binary64.value x = n) :
    toInt? x = some n := by
  have positive : (magnitude x).quotient.2 ≠ 0 := by simp [Dyadic.quotient, Nat.shiftLeft_eq]
  have exact : (magnitude x).quotient.1 = n.natAbs * (magnitude x).quotient.2 := by
    have ratio : ((magnitude x).quotient.1 : ℚ) / (magnitude x).quotient.2 = n.natAbs := by
      rw [Dyadic.quotient_ratio, ← abs_value, value, Nat.cast_natAbs, Int.cast_abs]
    rw [div_eq_iff (Nat.cast_ne_zero.2 positive)] at ratio
    exact_mod_cast ratio
  -- a whole value leaves nothing over, so the double is taken for some integer
  have divides : ((magnitude x).quotient.1 % (magnitude x).quotient.2 == 0) = true := by
    rw [exact, Nat.mul_mod_left]
    rfl
  obtain ⟨m, integral⟩ : ∃ m, toInt? x = some m :=
    ⟨_, if_pos (Bool.and_eq_true_iff.2 ⟨finite, divides⟩)⟩
  have same := value_of_toInt? integral
  rw [value, Int.cast_inj] at same
  rw [integral, same]

theorem toFloat?_of_value (finite : x.isFinite = true) {n : Int} (value : Binary64.value x = n)
    (nonzero : n ≠ 0) : Decimal.toFloat? ⟨decide (n < 0), n.natAbs, 0⟩ = some x := by
  have positive : 0 < unsignedBits x := by
    rw [Nat.pos_iff_ne_zero]
    intro zero
    rw [value_eq_zero_iff.2 zero] at value
    exact nonzero (Int.cast_eq_zero.1 value.symm)
  have sign : decide (n < 0) = isNegative x := by
    have above := magnitude_pos positive.ne'
    rw [Binary64.value] at value
    split at value
    · next negative =>
      have : (n : ℚ) < 0 := by rwa [← value, neg_lt_zero]
      rw [negative, decide_eq_true_eq]
      exact_mod_cast this
    · next natural =>
      have : (0 : ℚ) < n := by rwa [← value]
      rw [eq_false_of_ne_true natural, decide_eq_false_iff_not, not_lt]
      exact_mod_cast this.le
  rw [sign]
  have read : Decimal.toFloat? ⟨isNegative x, n.natAbs, 0⟩ =
      some (ofBits (isNegative x) (unsignedBits x)) := by
    apply Decimal.toFloat?_of_roundsTo _ positive
    apply Decimal.roundsTo_of_value positive ((isFinite_iff x).1 finite) (Int.natAbs_pos.2 nonzero)
    rw [zpow_zero, mul_one, Nat.cast_natAbs, Int.cast_abs, ← value, abs_value, magnitude]
  rw [read, ofBits_self]

theorem value_of_settle {y : Number} {n : Nat} (h : y.settle = natural n) : y.value = n := by
  cases y with
  | natural m =>
    cases h
    rfl
  | negative m => cases h
  | real x =>
    rw [settle] at h
    split at h
    · next m integral =>
      split at h
      · split at h
        · next natural =>
          cases h
          rw [value, value_of_toInt? integral]
          exact_mod_cast (Int.toNat_of_nonneg natural).symm
        · cases h
      · cases h
    · cases h

theorem settle_of_value {y : Number} (canonical : y.Canonical) {n : Nat} (value : y.value = n)
    (moderate : n < integralBound) : y.settle = natural n := by
  cases y with
  | natural m => exact congrArg natural (Nat.cast_injective value)
  | negative m =>
    have below : (0 : ℚ) < m := Nat.cast_pos.2 canonical
    have above : (0 : ℚ) ≤ n := n.cast_nonneg
    rw [Number.value] at value
    linarith
  | real x =>
    have integral : toInt? x = some (n : Int) := toInt?_of_value canonical value
    rw [settle, integral]
    dsimp only
    rw [Int.natAbs_natCast, if_pos moderate, if_pos n.cast_nonneg, Int.toNat_natCast]

theorem toFloat_integer (finite : x.isFinite = true) {n : Int} (value : Binary64.value x = n) :
    (if 0 ≤ n then natural n.toNat else negative n.natAbs).toFloat = if n = 0 then 0 else x := by
  by_cases zero : n = 0
  · rw [zero]
    rfl
  · have read := toFloat?_of_value finite value zero
    rw [if_neg zero]
    split
    · next natural =>
      have same : n.toNat = n.natAbs := by omega
      rw [decide_eq_false (not_lt.2 natural)] at read
      rw [toFloat, same, read, Option.getD_some]
    · next negative =>
      rw [decide_eq_true (not_le.1 negative)] at read
      rw [toFloat, read, Option.getD_some]

theorem toFloat_settle {y : Number} (canonical : y.Canonical) :
    y.settle.toFloat = if y.value = 0 then 0 else y.toFloat := by
  cases y with
  | natural n =>
    by_cases zero : n = 0
    · rw [zero]
      rfl
    · rw [value, if_neg (Nat.cast_ne_zero.2 zero)]
      rfl
  | negative n =>
    rw [value, if_neg (neg_ne_zero.2 (Nat.cast_ne_zero.2 canonical.ne'))]
    rfl
  | real x =>
    rw [settle, value]
    split
    · next n integral =>
      have value := value_of_toInt? integral
      simp only [value, Int.cast_eq_zero]
      split
      · exact toFloat_integer canonical value
      · next large =>
        have nonzero : n ≠ 0 := by
          rintro rfl
          exact large (by decide)
        rw [if_neg nonzero]
    · next fractional =>
      -- zero is an integer, so it is not among the doubles that stay as they are
      have nonzero : Binary64.value x ≠ 0 := by
        intro zero
        rw [toInt?_of_value canonical (zero.trans Int.cast_zero.symm)] at fractional
        cases fractional
      rw [if_neg nonzero]

theorem settle_toFloat (finite : x.isFinite = true) : ((real x).settle.toFloat == x) = true := by
  have canonical : (real x).Canonical := finite
  rw [toFloat_settle canonical]
  split
  · next zero =>
    have bits : unsignedBits x = 0 := value_eq_zero_iff.1 zero
    have self := ofBits_self x
    rw [bits] at self
    rw [← self]
    exact beq_zero (isNegative x)
  · exact beq_self finite

end Number

namespace Binary64

variable {n d f g bits : Nat}

theorem lt_of_nearest? (h : nearest? n d = some bits) : bits < infinityBits := by
  rw [nearest?] at h
  split at h
  · cases h
    decide
  · obtain ⟨finite, same⟩ := Option.ite_none_right_eq_some.1 h
    cases same
    exact finite

theorem lt_of_times? (h : times? f g = some bits) : bits < infinityBits := lt_of_nearest? h

theorem lt_of_over? (h : over? f g = some bits) : bits < infinityBits := lt_of_nearest? h

end Binary64

namespace Numeral

theorem lt_of_scale? {f bits : Nat} {e : Int} (h : scale? f e = some bits) : bits < infinityBits := by
  cases e with
  | ofNat n =>
    rw [scale?] at h
    split at h
    · obtain ⟨ten, -, product⟩ := Option.bind_eq_some_iff.1 h
      exact lt_of_times? product
    · split at h
      · cases h
        decide
      · cases h
  | negSucc n =>
    obtain ⟨shrunk, -, h⟩ := Option.bind_eq_some_iff.1 h
    obtain ⟨ten, -, quotient⟩ := Option.bind_eq_some_iff.1 h
    exact lt_of_over? quotient

theorem isFinite_of_scaled? {x : Numeral} {f : Float} (h : x.scaled? = some f) :
    f.isFinite = true := by
  obtain ⟨significand, -, h⟩ := Option.bind_eq_some_iff.1 h
  obtain ⟨bits, scaled, same⟩ := Option.bind_eq_some_iff.1 h
  cases same
  exact isFinite_ofBits (lt_of_scale? scaled)

theorem number?_ofFloat (x : Float) :
    (ofFloat .json x).number? = (ofFloat .json x).scaled?.map .real := by
  have marked : (ofFloat .json x).isWhole = false := isWhole_ofDecimal _
  rw [number?]
  simp [marked]

theorem canonical_of_number? {x : Numeral} {n : Number} (h : x.number? = some n) : n.Canonical := by
  have real (h : x.scaled?.map Number.real = some n) : n.Canonical := by
    obtain ⟨f, read, rfl⟩ := Option.map_eq_some_iff.1 h
    exact isFinite_of_scaled? read
  rw [number?] at h
  split at h
  · exact real h
  · split at h
    · split at h
      · exact real h
      · next moderate =>
        cases h
        rw [Bool.or_eq_true, decide_eq_true_eq, not_or] at moderate
        exact Nat.pos_of_ne_zero moderate.1
    · split at h
      · cases h
        trivial
      · exact real h

end Numeral

namespace Json

theorem canonical_of_number? {j : Json} {n : Number} (h : j.number? = some n) : n.Canonical := by
  cases j with
  | number x => exact Numeral.canonical_of_number? h
  | _ => cases h

theorem isFinite_of_float? {j : Json} {x : Float} (h : j.float? = some x) : x.isFinite = true := by
  obtain ⟨n, read, rfl⟩ := Option.map_eq_some_iff.1 h
  exact Number.isFinite_toFloat (canonical_of_number? read)

/-- What is written of the double is read as it. Most doubles are so, but the reader rounds more than
once and can miss the one next to a long numeral. -/
def ReadsBack (x : Float) : Prop := (float x).float? = some x

instance (x : Float) : Decidable (ReadsBack x) :=
  inferInstanceAs (Decidable ((float x).float? = some x))

example : ¬ReadsBack 99.99999999999999 := by decide +kernel

theorem float?_of_readsBack {x : Float} (h : ReadsBack x) : (float x).float? = some x := h

theorem number?_of_readsBack {x : Float} (h : ReadsBack x) : (float x).number? = some (.real x) := by
  rw [ReadsBack, float] at h
  rw [float]
  split at h
  · next finite =>
    have plain : Number.toFloat ∘ Number.real = id := rfl
    rw [float?, number?, Numeral.number?_ofFloat, Option.map_map, plain, Option.map_id_apply] at h
    rw [if_pos finite, number?, Numeral.number?_ofFloat, h, Option.map_some]
  · cases h

end Json

end HealthConsensus
