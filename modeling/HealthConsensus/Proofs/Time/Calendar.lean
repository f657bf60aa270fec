import HealthConsensus.Time.Instant

namespace HealthConsensus.Calendar

theorem yearOfDay_bounds (n : Int) :
    daysBeforeYear (yearOfDay n) ≤ n ∧ n < daysBeforeYear (yearOfDay n + 1) := by
  unfold yearOfDay
  dsimp only
  -- the guess is never more than a year off
  split
  · next early =>
    refine ⟨?_, ?_⟩
    · simp only [daysBeforeYear]
      omega
    · simpa using early
  · next late =>
    split
    · next later =>
      refine ⟨later, ?_⟩
      simp only [daysBeforeYear]
      omega
    · next there =>
      exact ⟨Int.not_lt.1 late, Int.not_le.1 there⟩

theorem isLeap_iff (year : Int) :
    isLeap year = true ↔ year % 4 = 0 ∧ (year % 100 ≠ 0 ∨ year % 400 = 0) := by
  simp [isLeap]

def total (lengths : List Nat) : Nat := lengths.foldl (· + ·) 0

theorem foldl_add (lengths : List Nat) (n : Nat) :
    lengths.foldl (· + ·) n = n + total lengths := by
  induction lengths generalizing n with
  | nil => rfl
  | cons length lengths ih =>
    rw [total, List.foldl_cons, List.foldl_cons, ih, ih (0 + length)]
    omega

theorem total_cons (length : Nat) (lengths : List Nat) :
    total (length :: lengths) = length + total lengths := by
  rw [total, List.foldl_cons, foldl_add]
  omega

theorem total_monthLengths (year : Int) :
    (total (monthLengths year) : Int) = daysBeforeYear (year + 1) - daysBeforeYear year := by
  have leap := isLeap_iff year
  have days : total (monthLengths year) = if isLeap year then 366 else 365 := by
    cases h : isLeap year <;> simp [monthLengths, h, total]
  rw [days]
  simp only [daysBeforeYear]
  cases h : isLeap year with
  | true =>
    have divides := leap.1 h
    simp only [if_true]
    omega
  | false =>
    have other : ¬(year % 4 = 0 ∧ (year % 100 ≠ 0 ∨ year % 400 = 0)) := fun divides => by
      rw [leap.2 divides] at h
      cases h
    simp only [Bool.false_eq_true, if_false]
    omega

theorem monthDay_spec (lengths : List Nat) (month rest : Nat) (h : rest < total lengths) :
    ∃ i day, monthDay lengths month rest = (month + i, day + 1) ∧ i < lengths.length ∧
      day < lengths.getD i 0 ∧ total (lengths.take i) + day = rest := by
  induction lengths generalizing month rest with
  | nil => exact absurd h (Nat.not_lt_zero _)
  | cons length lengths ih =>
    rw [total_cons] at h
    by_cases within : rest < length
    · exact ⟨0, rest, by simp [monthDay, within], by simp, by simpa using within, by simp [total]⟩
    · obtain ⟨i, day, eq, bound, fits, sum⟩ := ih (month + 1) (rest - length) (by omega)
      refine ⟨i + 1, day, ?_, by simpa using bound, by simpa using fits, ?_⟩
      · rw [monthDay, if_neg within, eq]
        simp only [Prod.mk.injEq, and_true]
        omega
      · rw [List.take_succ_cons, total_cons]
        omega

theorem ofDayNumber_spec (n : Int) :
    (Date.ofDayNumber n).isValid = true ∧ (Date.ofDayNumber n).dayNumber = n ∧
      (Date.ofDayNumber n).year = yearOfDay (n + daysBeforeYear 1970) := by
  let m := n + daysBeforeYear 1970
  let year := yearOfDay m
  obtain ⟨low, high⟩ := yearOfDay_bounds m
  have length := total_monthLengths year
  have inside : (m - daysBeforeYear year).toNat < total (monthLengths year) := by
    have low : daysBeforeYear year ≤ m := low
    have high : m < daysBeforeYear (year + 1) := high
    omega
  obtain ⟨i, day, eq, bound, fits, sum⟩ := monthDay_spec _ 1 _ inside
  have date : Date.ofDayNumber n = ⟨year, 1 + i, day + 1⟩ := by
    let found := monthDay (monthLengths year) 1 (m - daysBeforeYear year).toNat
    change (⟨year, found.1, found.2⟩ : Date) = _
    rw [show found = (1 + i, day + 1) from eq]
  have months : (monthLengths year).length = 12 := rfl
  rw [date]
  refine ⟨?_, ?_, rfl⟩
  · have last : day + 1 ≤ monthLength year (1 + i) := by
      rw [monthLength, Nat.add_sub_cancel_left]
      omega
    simp only [Date.isValid, Bool.and_eq_true, decide_eq_true_eq]
    omega
  · have before : daysBeforeMonth year (1 + i) + day = (m - daysBeforeYear year).toNat := by
      rw [daysBeforeMonth, Nat.add_sub_cancel_left]
      exact sum
    rw [Date.dayNumber]
    dsimp only
    have low : daysBeforeYear year ≤ m := low
    omega

end HealthConsensus.Calendar
