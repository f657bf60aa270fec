import HealthConsensus.Proofs.Number.Digits
import HealthConsensus.Proofs.Time.Calendar
import HealthConsensus.Time.Rfc3339

namespace HealthConsensus.Rfc3339

open Calendar

def DigitChars (ds : List Char) : Prop := ds ≠ [] ∧ ∀ c ∈ ds, c.isDigit = true

theorem isBlank_digit {c : Char} (h : c.isDigit = true) : isBlank c = false := by
  obtain ⟨low, high⟩ := Char.isDigit_iff_toNat.1 h
  have low : 48 ≤ c.toNat := low
  have high : c.toNat ≤ 57 := high
  simp only [isBlank, Bool.or_eq_false_iff, Bool.and_eq_false_iff, decide_eq_false_iff_not,
    beq_eq_false_iff_ne]
  omega

theorem dropBlanks_digits {ds : List Char} (h : DigitChars ds) (rest : List Char) :
    dropBlanks (ds ++ rest) = ds ++ rest := by
  obtain ⟨d, ds, rfl⟩ := List.exists_cons_of_ne_nil h.1
  have visible := isBlank_digit (h.2 d List.mem_cons_self)
  rw [List.cons_append, dropBlanks, List.dropWhile_cons_of_neg (by simp [visible])]

theorem digitChars_padded (width n : Nat) : DigitChars (padded width n) := by
  refine ⟨fun nil => ?_, fun c hc => ?_⟩
  · exact Nat.toDigits_ne_nil (List.append_eq_nil_iff.1 nil).2
  · rcases List.mem_append.1 hc with zero | digit
    · rw [List.eq_of_mem_replicate zero]
      rfl
    · exact toDigits_digits digit

theorem length_padded {width n : Nat} (h : (digits n).length ≤ width) :
    (padded width n).length = width := by
  rw [padded, List.length_append, List.length_replicate]
  omega

theorem length_digits_two {n : Nat} (h : n < 100) : (digits n).length ≤ 2 :=
  (Nat.length_toDigits_le_iff (by decide) (by decide)).2 h

theorem value_zeros (k : Nat) (ds : List Char) : value (List.replicate k '0' ++ ds) = value ds := by
  induction k with
  | zero => rfl
  | succ k ih => exact ih

@[simp] theorem value_padded (width n : Nat) : value (padded width n) = n := by
  rw [padded, value_zeros]
  exact Nat.ofDigitChars_ten_toDigits

theorem number?_append {most : Nat} {ds rest : List Char} (h : DigitChars ds)
    (fits : ds.length ≤ most) (stops : ds.length = most ∨ ∀ c ∈ rest.head?, c.isDigit = false) :
    number? most (ds ++ rest) = some (value ds, rest) := by
  have ends : (rest.take (most - ds.length)).takeWhile Char.isDigit = [] := by
    rcases stops with full | other
    · simp [full]
    · cases rest with
      | nil => simp
      | cons c rest =>
        cases most - ds.length with
        | zero => rfl
        | succ k => simp [other c rfl]
  have taken : ((ds ++ rest).take most).takeWhile Char.isDigit = ds := by
    rw [List.take_append, List.take_of_length_le fits, List.takeWhile_append_of_pos h.2, ends,
      List.append_nil]
  rw [number?, taken]
  obtain ⟨d, ds, rfl⟩ := List.exists_cons_of_ne_nil h.1
  simp

theorem part?_padded {low high n : Nat} (hl : low ≤ n) (hh : n ≤ high) (two : n < 100)
    (rest : List Char) : part? low high (padded 2 n ++ rest) = some (n, rest) := by
  have long := length_padded (length_digits_two two)
  rw [part?, dropBlanks_digits (digitChars_padded 2 n),
    number?_append (digitChars_padded 2 n) (Nat.le_of_eq long) (.inl long)]
  simp [hl, hh]

theorem expect?_cons {c : Char} (h : isBlank c = false) (rest : List Char) :
    expect? c (dropBlanks (c :: rest)) = some ((), rest) := by
  rw [dropBlanks, List.dropWhile_cons_of_neg (by simp [h])]
  simp [expect?]

theorem number?_year (n : Nat) (rest : List Char) :
    number? (padded 4 n ++ '-' :: rest).length (padded 4 n ++ '-' :: rest) =
      some (n, '-' :: rest) := by
  rw [number?_append (digitChars_padded 4 n) (by simp) (.inr fun c hc => by cases hc; rfl),
    value_padded]

theorem year?_signed (negative : Prop) [Decidable negative] (n : Nat) (rest : List Char) :
    year? ((if negative then '-' else '+') :: padded 4 n ++ '-' :: rest) =
      some (if negative then -(n : Int) else n, '-' :: rest) := by
  split
  · exact congrArg (Option.map fun x => (-(x.1 : Int), x.2)) (number?_year n rest)
  · exact congrArg (Option.map fun x => ((x.1 : Int), x.2)) (number?_year n rest)

theorem year?_text (year : Int) (rest : List Char) :
    year? (yearText year ++ '-' :: rest) = some (year, '-' :: rest) := by
  unfold yearText
  split
  · next small =>
    have digits := digitChars_padded 4 year.toNat
    have long : (padded 4 year.toNat).length = 4 :=
      length_padded ((Nat.length_toDigits_le_iff (by decide) (by decide)).2
        (show year.toNat < 10000 by omega))
    obtain ⟨d, ds, text⟩ := List.exists_cons_of_ne_nil digits.1
    have digit := digits.2 d (text ▸ List.mem_cons_self)
    have read : number? 4 (padded 4 year.toNat ++ '-' :: rest) = some (_, '-' :: rest) :=
      number?_append digits (Nat.le_of_eq long) (.inl long)
    unfold year?
    rw [dropBlanks_digits digits]
    split
    · next same =>
      rw [text, List.cons_append, List.cons.injEq] at same
      rw [same.1] at digit
      cases digit
    · next same =>
      rw [text, List.cons_append, List.cons.injEq] at same
      rw [same.1] at digit
      cases digit
    · simp [read, Int.toNat_of_nonneg small.1]
  · rw [year?_signed]
    split <;> simp only [Option.some.injEq, Prod.mk.injEq, and_true] <;> omega

theorem monthLength_le (year : Int) (month : Nat) : monthLength year month ≤ 31 := by
  rw [monthLength, List.getD_eq_getElem?_getD]
  have all : ∀ n ∈ monthLengths year, n ≤ 31 := by
    cases h : isLeap year <;> simp [monthLengths, h]
  cases found : (monthLengths year)[month - 1]? with
  | none => exact Nat.zero_le _
  | some n => exact all n (List.mem_of_getElem? found)

theorem date?_text {d : Date} (h : d.isValid = true) (rest : List Char) :
    date? (dateText d ++ rest) = some (d, rest) := by
  have days := monthLength_le d.year d.month
  simp only [Date.isValid, Bool.and_eq_true, decide_eq_true_eq] at h
  have month (rest : List Char) : part? 1 12 (padded 2 d.month ++ rest) = some (d.month, rest) :=
    part?_padded (by omega) (by omega) (by omega) rest
  have day (rest : List Char) : part? 1 31 (padded 2 d.day ++ rest) = some (d.day, rest) :=
    part?_padded (by omega) (by omega) (by omega) rest
  have minus (rest : List Char) : expect? '-' (dropBlanks ('-' :: rest)) = some ((), rest) :=
    expect?_cons rfl rest
  simp [date?, dateText, year?_text, minus, month, day]

theorem fraction?_padded {width n scale : Nat} (positive : 0 < width) (most : width ≤ 9)
    (h : n < Nat.pow 10 width) (hs : Nat.pow 10 (9 - width) = scale) (rest : List Char) :
    fraction? ('.' :: padded width n ++ 'Z' :: rest) = some (n * scale, 'Z' :: rest) := by
  have all := digitChars_padded width n
  have long := length_padded ((Nat.length_toDigits_le_iff (by decide) positive).2 h)
  have taken : (padded width n ++ 'Z' :: rest).takeWhile Char.isDigit = padded width n := by
    rw [List.takeWhile_append_of_pos all.2]
    simp
  rw [List.cons_append, fraction?, taken]
  obtain ⟨d, ds, text⟩ := List.exists_cons_of_ne_nil all.1
  have kept : (padded width n).take 9 = padded width n := List.take_of_length_le (by omega)
  rw [text] at kept long ⊢
  dsimp only
  rw [kept, ← text, value_padded, text, long, hs]
  simp [← long]

theorem fraction?_text {nanos : Nat} (h : nanos < 1_000_000_000) (rest : List Char) :
    fraction? (fractionText nanos ++ 'Z' :: rest) = some (nanos, 'Z' :: rest) := by
  unfold fractionText
  split
  · next zero =>
    subst zero
    rfl
  · split
    · next millis =>
      have small : nanos / 1_000_000 < 1_000 := by omega
      rw [fraction?_padded (by decide) (by decide) small rfl,
        Nat.div_mul_cancel (Nat.dvd_of_mod_eq_zero millis)]
    · split
      · next micros =>
        have small : nanos / 1_000 < 1_000_000 := by omega
        rw [fraction?_padded (by decide) (by decide) small rfl,
          Nat.div_mul_cancel (Nat.dvd_of_mod_eq_zero micros)]
      · rw [fraction?_padded (by decide) (by decide) h rfl, Nat.mul_one]

theorem clock?_text (second nanos : Nat) (h : second < 86400) (hn : nanos < 2_000_000_000)
    (leap : 1_000_000_000 ≤ nanos → second % 60 = 59) (rest : List Char) :
    clock? (clockText second nanos ++ 'Z' :: rest) = some ((second, nanos), 'Z' :: rest) := by
  have colon (rest : List Char) : expect? ':' (dropBlanks (':' :: rest)) = some ((), rest) :=
    expect?_cons rfl rest
  have hours (rest : List Char) :
      part? 0 23 (padded 2 (second / 3600) ++ rest) = some (second / 3600, rest) :=
    part?_padded (by omega) (by omega) (by omega) rest
  have minutes (rest : List Char) :
      part? 0 59 (padded 2 (second / 60 % 60) ++ rest) = some (second / 60 % 60, rest) :=
    part?_padded (by omega) (by omega) (by omega) rest
  have fraction : fraction? (fractionText (nanos % 1_000_000_000) ++ 'Z' :: rest) =
      some (nanos % 1_000_000_000, 'Z' :: rest) := fraction?_text (Nat.mod_lt _ (by decide)) rest
  by_cases late : 1_000_000_000 ≤ nanos
  · have last := leap late
    have seconds (rest : List Char) : part? 0 60 (padded 2 60 ++ rest) = some (60, rest) :=
      part?_padded (by omega) (by omega) (by omega) rest
    have sixty : second % 60 + 1 = 60 := by omega
    simp [clock?, clockText, late, colon, hours, minutes, sixty, seconds, fraction]
    omega
  · have seconds (rest : List Char) :
        part? 0 60 (padded 2 (second % 60) ++ rest) = some (second % 60, rest) :=
      part?_padded (by omega) (by omega) (by omega) rest
    have other : second % 60 ≠ 60 := by omega
    simp [clock?, clockText, late, colon, hours, minutes, seconds, other, fraction]
    omega

theorem dateOf_year (t : Instant) :
    Instant.firstYear ≤ (dateOf t).year ∧ (dateOf t).year ≤ Instant.lastYear := by
  obtain ⟨-, -, year⟩ := ofDayNumber_spec (t.seconds / 86400)
  have bounds := yearOfDay_bounds (t.seconds / 86400 + daysBeforeYear 1970)
  have first := t.first_le
  have last := t.le_last
  rw [dateOf, year]
  generalize yearOfDay (t.seconds / 86400 + daysBeforeYear 1970) = y at bounds
  simp only [daysBeforeYear, Instant.firstSecond, Instant.lastSecond, Instant.firstYear,
    Instant.lastYear] at *
  refine ⟨?_, ?_⟩
  -- the first and the last day are the edges of their years, which only counting shows
  · by_cases edge : y = -262144
    · subst edge
      omega
    · omega
  · by_cases edge : y = 262143
    · subst edge
      omega
    · omega

theorem of?_self (t : Instant) : Instant.of? t.seconds t.nanos = some t :=
  dif_pos ⟨t.first_le, t.le_last, t.nanos_lt, t.leap_last⟩

theorem parse?_text (t : Instant) : parse? (text t) = some t := by
  obtain ⟨valid, day, -⟩ := ofDayNumber_spec (t.seconds / 86400)
  have years := dateOf_year t
  have second : t.secondOfDay = t.seconds % 86400 := rfl
  have date := date?_text (d := dateOf t) valid
    ('T' :: (clockText t.secondOfDay.toNat t.nanos ++ ['Z']))
  have clock := clock?_text t.secondOfDay.toNat t.nanos (by omega)
    t.nanos_lt (fun leap => by have last := t.leap_last leap; omega) []
  have separator (cs : List Char) : separator? ('T' :: cs) = some ((), cs) := rfl
  have zone : offset? (dropBlanks ['Z']) = some (0, []) := rfl
  have chars : (text t).toList =
      dateText (dateOf t) ++ 'T' :: (clockText t.secondOfDay.toNat t.nanos ++ ['Z']) := by
    simp [text, textWith]
  have nothing : dropBlanks [] = [] := rfl
  have same : (dateOf t).dayNumber * 86400 + t.secondOfDay.toNat = t.seconds := by
    rw [dateOf, day]
    omega
  have isValid : (dateOf t).isValid = true := valid
  have low : ¬(dateOf t).year < Instant.firstYear := by omega
  have high : ¬Instant.lastYear < (dateOf t).year := by omega
  simp [parse?, chars, date, separator, clock, zone, isValid, low, high, same, of?_self, nothing,
    -Int.ofNat_toNat]

end HealthConsensus.Rfc3339
