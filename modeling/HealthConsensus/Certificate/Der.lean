import HealthConsensus.Text.Bytes
import HealthConsensus.Time.Instant

namespace HealthConsensus.Der

structure Element where
  tagClass : Nat
  constructed : Bool
  tag : Nat
  content : Bytes
deriving DecidableEq, Repr

def boolean : Nat := 1

def integer : Nat := 2

def bitString : Nat := 3

def octetString : Nat := 4

def objectId : Nat := 6

def utf8String : Nat := 12

def sequence : Nat := 16

def set : Nat := 17

def numericString : Nat := 18

def printableString : Nat := 19

def ia5String : Nat := 22

def utcTime : Nat := 23

def generalizedTime : Nat := 24

def longTag? : Nat → Nat → Bytes → Option (Nat × Bytes)
  | 0, _, _ => none
  | _, _, [] => none
  | fuel + 1, n, b :: rest =>
    let n := n * 128 + b.toNat % 128
    if b < 128 then some (n, rest) else longTag? fuel n rest

def tag? (bs : Bytes) : Option (Nat × Bytes) :=
  match bs with
  | [] => none
  | b :: rest => if b.toNat % 32 = 31 then longTag? 5 0 rest else some (b.toNat % 32, rest)

def bigEndianValue (bs : Bytes) : Nat := bs.foldl (fun n b => n * 256 + b.toNat) 0

def length? : Bytes → Option (Nat × Bytes)
  | [] => none
  | b :: rest =>
    if b < 128 then some (b.toNat, rest)
    else
      let width := b.toNat - 128
      if width = 0 || width = 127 || rest.length < width then none
      else
        let n := bigEndianValue (rest.take width)
        if n < UInt64.size then some (n, rest.drop width) else none

def element? (bs : Bytes) : Option (Element × Bytes) := do
  let (tag, rest) ← tag? bs
  let (length, rest) ← length? rest
  let first := (bs.headD 0).toNat
  if rest.length < length then none
  else
    let element : Element := ⟨first / 64, first / 32 % 2 == 1, tag, rest.take length⟩
    return (element, rest.drop length)

def tagged? (tag : Nat) (bs : Bytes) : Option (Bytes × Bytes) := do
  let (e, rest) ← element? bs
  if e.tag = tag then some (e.content, rest) else none

def primitive? (tag : Nat) (bs : Bytes) : Option (Bytes × Bytes) := do
  let (e, rest) ← element? bs
  if e.tag = tag && !e.constructed then some (e.content, rest) else none

def many {α : Type} (read : Bytes → Option (α × Bytes)) : Nat → Bytes → List α × Bytes
  | 0, bs => ([], bs)
  | fuel + 1, bs =>
    match read bs with
    | none => ([], bs)
    | some (a, rest) =>
      let (as, rest) := many read fuel rest
      (a :: as, rest)

def bits? (bs : Bytes) : Option (Bytes × Bytes) := do
  let (content, rest) ← primitive? bitString bs
  match content with
  | [] => none
  | [unused] => if unused = 0 then some (content, rest) else none
  | unused :: data =>
    let last := (data.getLastD 0).toNat
    if last = 0 && unused.toNat ≤ 8 then some (content, rest)
    else if last % (1 <<< unused.toNat) = 0 && last != 0 then some (content, rest)
    else none

def isMinimal : Bytes → Bool
  | [] => false
  | a :: b :: _ => !((a == 0 && b < 128) || (a == 255 && 128 ≤ b))
  | [_] => true

def uint32? (bs : Bytes) : Option (Nat × Bytes) := do
  let (content, rest) ← primitive? integer bs
  let n := bigEndianValue content
  if isMinimal content && content.headD 0 < 128 && n < UInt32.size then some (n, rest) else none

def pair? : Bytes → Option (Nat × Bytes)
  | a :: b :: rest =>
    if Ascii.isDigit a && Ascii.isDigit b then some (Ascii.natValue [a, b], rest) else none
  | _ => none

def optionalPair? (bs : Bytes) : Option (Nat × Bytes) :=
  if bs.length < 2 then some (0, bs) else pair? bs

def zone? : Bytes → Option Int
  | [90] => some 0
  | sign :: rest => do
    let (hours, rest) ← pair? rest
    let (minutes, rest) ← pair? rest
    if !rest.isEmpty || 25 < hours || 59 < minutes then none
    let east : Int := hours * 3600 + minutes * 60
    if sign == 43 then some east
    else if sign == 45 then some (if hours = 0 then east else -east)
    else none
  | [] => none

def skipFraction? : Bytes → Option Bytes
  | 46 :: rest =>
    let digits := rest.takeWhile Ascii.isDigit
    if digits.isEmpty || 3 < digits.length then none else some (rest.drop digits.length)
  | rest => some rest

def instant? (year : Nat) (isGeneral : Bool) (bs : Bytes) : Option Instant := do
  let (month, rest) ← pair? bs
  let (day, rest) ← pair? rest
  let (hour, rest) ← pair? rest
  let (minute, rest) ← pair? rest
  let (second, rest) ← optionalPair? rest
  let rest ← if isGeneral then skipFraction? rest else some rest
  let zone ← zone? rest
  let date : Calendar.Date := ⟨year, month, day⟩
  if !date.isValid || 23 < hour || 59 < minute || 59 < second then none
  let time : Int := hour * 3600 + minute * 60 + second
  Instant.of? (date.dayNumber * 86400 + time - zone) 0

def time? (bs : Bytes) : Option (Instant × Bytes) := do
  let (e, rest) ← element? bs
  if e.constructed then none
  let (first, more) ← pair? e.content
  if e.tag = utcTime then
    let year := if first < 50 then first + 2000 else first + 1900
    return (← instant? year false more, rest)
  else if e.tag = generalizedTime then
    let (second, more) ← pair? more
    if e.content.getLastD 0 != 90 then none
    return (← instant? (first * 100 + second) true more, rest)
  else none

end HealthConsensus.Der
