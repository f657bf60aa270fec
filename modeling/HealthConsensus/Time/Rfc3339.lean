import HealthConsensus.Text.Basic
import HealthConsensus.Time.Instant

namespace HealthConsensus.Rfc3339

def digits (n : Nat) : List Char := Nat.toDigits 10 n

def padded (width n : Nat) : List Char :=
  List.replicate (width - (digits n).length) '0' ++ digits n

def yearText (year : Int) : List Char :=
  if 0 ≤ year ∧ year ≤ 9999 then padded 4 year.toNat
  else (if year < 0 then '-' else '+') :: padded 4 year.natAbs

def dateText (d : Calendar.Date) : List Char :=
  yearText d.year ++ '-' :: padded 2 d.month ++ '-' :: padded 2 d.day

def fractionText (nanos : Nat) : List Char :=
  if nanos = 0 then []
  else if nanos % 1_000_000 = 0 then '.' :: padded 3 (nanos / 1_000_000)
  else if nanos % 1000 = 0 then '.' :: padded 6 (nanos / 1000)
  else '.' :: padded 9 nanos

def clockText (secondOfDay nanos : Nat) : List Char :=
  let leap := if 1_000_000_000 ≤ nanos then 1 else 0
  padded 2 (secondOfDay / 3600) ++ ':' :: padded 2 (secondOfDay / 60 % 60) ++
    ':' :: padded 2 (secondOfDay % 60 + leap) ++ fractionText (nanos % 1_000_000_000)

def dateOf (t : Instant) : Calendar.Date := Calendar.Date.ofDayNumber (t.seconds / 86400)

def textWith (separator : Char) (zone : List Char) (t : Instant) : String :=
  String.ofList (dateText (dateOf t) ++ separator :: clockText t.secondOfDay.toNat t.nanos ++ zone)

def text (t : Instant) : String := textWith 'T' ['Z'] t

def plainText (t : Instant) : String := textWith ' ' [' ', 'U', 'T', 'C'] t

abbrev Reader (α : Type) := List Char → Option (α × List Char)

def value (ds : List Char) : Nat := ds.foldl (fun n c => 10 * n + (c.toNat - 48)) 0

def number? (most : Nat) : Reader Nat := fun cs =>
  match (cs.take most).takeWhile Char.isDigit with
  | [] => none
  | ds => some (value ds, cs.drop ds.length)

def expect? (c : Char) : Reader Unit
  | d :: cs => if c = d then some ((), cs) else none
  | [] => none

def part? (low high : Nat) : Reader Nat := fun cs =>
  match number? 2 (dropBlanks cs) with
  | some (n, cs) => if low ≤ n ∧ n ≤ high then some (n, cs) else none
  | none => none

def year? : Reader Int := fun cs =>
  match dropBlanks cs with
  | '-' :: cs => (number? cs.length cs).map fun (n, cs) => (-(n : Int), cs)
  | '+' :: cs => (number? cs.length cs).map fun (n, cs) => ((n : Int), cs)
  | cs => (number? 4 cs).map fun (n, cs) => ((n : Int), cs)

def date? : Reader Calendar.Date := fun cs => do
  let (year, cs) ← year? cs
  let ((), cs) ← expect? '-' (dropBlanks cs)
  let (month, cs) ← part? 1 12 cs
  let ((), cs) ← expect? '-' (dropBlanks cs)
  let (day, cs) ← part? 1 31 cs
  return (⟨year, month, day⟩, cs)

def fraction? : Reader Nat
  | '.' :: cs =>
    match cs.takeWhile Char.isDigit with
    | [] => none
    | ds =>
      let kept := ds.take 9
      some (value kept * .pow 10 (9 - kept.length), cs.drop ds.length)
  | cs => some (0, cs)

/-- The second of the day and the nanoseconds; second sixty is the leap second after fifty-nine. -/
def clock? : Reader (Nat × Nat) := fun cs => do
  let (hour, cs) ← part? 0 23 cs
  let ((), cs) ← expect? ':' (dropBlanks cs)
  let (minute, cs) ← part? 0 59 cs
  let ((), cs) ← expect? ':' (dropBlanks cs)
  let (second, cs) ← part? 0 60 cs
  let (nanos, cs) ← fraction? cs
  let start := hour * 3600 + minute * 60
  return (if second = 60 then (start + 59, nanos + 1_000_000_000) else (start + second, nanos), cs)

def twoDigits? (least : Nat) : Reader Nat
  | a :: b :: cs =>
    if a.isDigit && b.isDigit && value [a, b] ≤ least then some (value [a, b], cs) else none
  | _ => none

def sign? : Reader Bool
  | '+' :: cs => some (false, cs)
  | '-' :: cs => some (true, cs)
  | '\u2212' :: cs => some (true, cs)
  | _ => none

def offset? : Reader Int := fun cs =>
  match cs with
  | 'Z' :: cs => some (0, cs)
  | 'z' :: cs => some (0, cs)
  | a :: b :: c :: rest =>
    if [a, b, c].map Char.toLower = ['u', 't', 'c'] then some (0, rest)
    else do
      let (negative, cs) ← sign? cs
      let (hours, cs) ← twoDigits? 99 cs
      let (minutes, cs) ← twoDigits? 59 (cs.dropWhile fun c => c = ':' || isBlank c)
      let seconds := ((hours * 3600 + minutes * 60 : Nat) : Int)
      return (if negative then -seconds else seconds, cs)
  | _ => none

def separator? : Reader Unit
  | c :: cs => if c = 'T' || c = 't' || c = ' ' then some ((), cs) else none
  | [] => none

def parse? (s : String) : Option Instant := do
  let (date, cs) ← date? s.toList
  let ((), cs) ← separator? cs
  let ((second, nanos), cs) ← clock? cs
  let (offset, cs) ← offset? (dropBlanks cs)
  if !(dropBlanks cs).isEmpty || !date.isValid || 86400 ≤ offset.natAbs then none
  else if date.year < Instant.firstYear || Instant.lastYear < date.year then none
  else Instant.of? (date.dayNumber * 86400 + second - offset) nanos

end HealthConsensus.Rfc3339
