import HealthConsensus.Time.Duration

namespace HealthConsensus

namespace Calendar

def isLeap (year : Int) : Bool :=
  year % 4 == 0 && (year % 100 != 0 || year % 400 == 0)

def daysBeforeYear (year : Int) : Int :=
  let y := year - 1
  365 * y + y / 4 - y / 100 + y / 400

def monthLengths (year : Int) : List Nat :=
  [31, if isLeap year then 29 else 28, 31, 30, 31, 30, 31, 31, 30, 31, 30, 31]

def monthLength (year : Int) (month : Nat) : Nat := (monthLengths year).getD (month - 1) 0

def daysBeforeMonth (year : Int) (month : Nat) : Nat :=
  ((monthLengths year).take (month - 1)).foldl (· + ·) 0

structure Date where
  year : Int
  month : Nat
  day : Nat
deriving DecidableEq, Repr

def Date.isValid (d : Date) : Bool :=
  1 ≤ d.month && d.month ≤ 12 && 1 ≤ d.day && d.day ≤ monthLength d.year d.month

def Date.dayNumber (d : Date) : Int :=
  daysBeforeYear d.year + daysBeforeMonth d.year d.month + d.day - 1 - daysBeforeYear 1970

def yearOfDay (n : Int) : Int :=
  let guess := n * 400 / 146097 + 1
  if n < daysBeforeYear guess then guess - 1
  else if daysBeforeYear (guess + 1) ≤ n then guess + 1
  else guess

def monthDay : List Nat → Nat → Nat → Nat × Nat
  | [], month, rest => (month, rest + 1)
  | length :: lengths, month, rest =>
    if rest < length then (month, rest + 1) else monthDay lengths (month + 1) (rest - length)

def Date.ofDayNumber (n : Int) : Date :=
  let n := n + daysBeforeYear 1970
  let year := yearOfDay n
  let (month, day) := monthDay (monthLengths year) 1 (n - daysBeforeYear year).toNat
  ⟨year, month, day⟩

end Calendar

namespace Instant

def firstYear : Int := -262143

def lastYear : Int := 262142

def firstSecond : Int := -8334601228800

def lastSecond : Int := 8210266876799

end Instant

structure Instant where
  seconds : Int
  nanos : Nat
  first_le : Instant.firstSecond ≤ seconds
  le_last : seconds ≤ Instant.lastSecond
  nanos_lt : nanos < 2 * 1_000_000_000
  leap_last : 1_000_000_000 ≤ nanos → seconds % 60 = 59
deriving DecidableEq, Repr

namespace Instant

def of? (seconds : Int) (nanos : Nat) : Option Instant :=
  if h : firstSecond ≤ seconds ∧ seconds ≤ lastSecond ∧ nanos < 2 * 1_000_000_000 ∧
      (1_000_000_000 ≤ nanos → seconds % 60 = 59) then
    some ⟨seconds, nanos, h.1, h.2.1, h.2.2.1, h.2.2.2⟩
  else none

def epoch : Instant := ⟨0, 0, by decide, by decide, by decide, by decide⟩

instance : Inhabited Instant := ⟨epoch⟩

def latest : Instant := ⟨lastSecond, 1_000_000_000 - 1, by decide, by decide, by decide, by decide⟩

def isLeap (t : Instant) : Bool := 1_000_000_000 ≤ t.nanos

instance : LE Instant :=
  ⟨fun a b => a.seconds < b.seconds ∨ (a.seconds = b.seconds ∧ a.nanos ≤ b.nanos)⟩

instance (a b : Instant) : Decidable (a ≤ b) :=
  inferInstanceAs (Decidable (_ ∨ (_ ∧ _)))

def secondOfDay (t : Instant) : Int := t.seconds % 86400

def leapBetween (a b : Instant) : Int :=
  if b.secondOfDay < a.secondOfDay then (if b.isLeap then 1 else 0)
  else if a.secondOfDay < b.secondOfDay then (if a.isLeap then -1 else 0)
  else 0

def nanosSince (a b : Instant) : Int :=
  (a.seconds - b.seconds + leapBetween a b) * 1_000_000_000 + ((a.nanos : Int) - b.nanos)

def since (a b : Instant) : Duration := Duration.ofNanoseconds (nanosSince a b).toNat

def later? (t : Instant) (d : Duration) : Option Instant :=
  if t.isLeap && d.seconds == 0 && t.nanos + d.subsecond < 2 * 1_000_000_000 then
    of? t.seconds (t.nanos + d.subsecond)
  else
    let nanos := (if t.isLeap then t.nanos - 1_000_000_000 else t.nanos) + d.subsecond
    of? (t.seconds + d.seconds + (nanos / 1_000_000_000 : Nat)) (nanos % 1_000_000_000)

def add? (t : Instant) (d : Duration) : Option Instant := d.signed?.bind t.later?

def advance (t : Instant) (d : Duration) : Instant := (t.add? d).getD t

end Instant

end HealthConsensus
