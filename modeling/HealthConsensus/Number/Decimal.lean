import HealthConsensus.Number.Binary64
import HealthConsensus.Text.Bytes

namespace HealthConsensus

/-- The exponent of a numeral: whether a plus or minus sign stands before its digits. -/
structure Numeral.Exponent where
  sign : Option Bool
  digits : Bytes
deriving DecidableEq, Repr

structure Numeral where
  negative : Bool
  whole : Bytes
  fraction : Option Bytes
  exponent : Option Numeral.Exponent
deriving DecidableEq, Repr

structure Decimal where
  negative : Bool
  digits : Nat
  exponent : Int
deriving DecidableEq, Repr

namespace Decimal

def reach : Int := 400

def toFloat? (x : Decimal) : Option Float :=
  if x.digits = 0 then some (Binary64.ofBits x.negative 0)
  else
    let places : Int := (Ascii.natDigits x.digits).length
    if reach < x.exponent + places then none
    else if x.exponent + places < -reach then some (Binary64.ofBits x.negative 0)
    else
      (Binary64.nearestBits? (x.digits * .pow 10 x.exponent.toNat) (.pow 10 (-x.exponent).toNat)).map
        (Binary64.ofBits x.negative)

def trim : Nat → Nat → Int → Nat × Int
  | 0, n, e => (n, e)
  | fuel + 1, n, e => if n % 10 = 0 then trim fuel (n / 10) (e + 1) else (n, e)

def leadingPower (n d : Nat) : Int :=
  let guess : Int := ((Ascii.natDigits n).length : Int) - (Ascii.natDigits d).length
  let reached := if guess < 0 then d ≤ n * .pow 10 (-guess).toNat else d * .pow 10 guess.toNat ≤ n
  if reached then guess else guess - 1

def neighbours (n d : Nat) (e : Int) : List Nat :=
  let num := n * .pow 10 (-e).toNat
  let den := d * .pow 10 e.toNat
  let low := num / den
  if roundQuotient num den = low then [low, low + 1] else [low + 1, low]

def readsBack (bits n d : Nat) (e : Int) : Option (Nat × Int) :=
  ((neighbours n d e).find? fun c =>
    Binary64.nearestBits? (c * .pow 10 e.toNat) (.pow 10 (-e).toNat) == some bits).map (·, e)

def exact (x : Dyadic) : Nat × Int :=
  if x.exponent < 0 then (x.significand * .pow 5 (-x.exponent).toNat, x.exponent)
  else (x.significand <<< x.exponent.toNat, 0)

def shortestOfBits (bits : Nat) : Nat × Int :=
  let x := Binary64.magnitudeOfBits bits
  let (n, d) := x.quotient
  let top := leadingPower n d
  let found := (List.range 17).findSome? fun (i : Nat) => readsBack bits n d (top - i)
  let (digits, e) := found.getD (exact x)
  trim 400 digits e

def shortest (x : Float) : Decimal :=
  let bits := Binary64.unsignedBits x
  if bits = 0 then ⟨Binary64.isNegative x, 0, 0⟩
  else
    let (digits, e) := shortestOfBits bits
    ⟨Binary64.isNegative x, digits, e⟩

end Decimal

namespace Numeral

structure Layout where
  scientific : Int → Bool
  zeroFraction : Bool

def Layout.json : Layout := ⟨fun e => e < -5 || 16 ≤ e, true⟩

def Layout.plain : Layout := ⟨fun _ => false, false⟩

def zeros (n : Nat) : Bytes := List.replicate n 48

/-- Writes a decimal whose digits do not end in zero. -/
def ofDecimal (layout : Layout) (x : Decimal) : Numeral :=
  let ds := Ascii.natDigits x.digits
  let top : Int := if x.digits = 0 then 0 else x.exponent + ds.length - 1
  if layout.scientific top then
    let fraction := if ds.length ≤ 1 then none else some (ds.drop 1)
    ⟨x.negative, ds.take 1, fraction, some ⟨some (decide (top < 0)), Ascii.natDigits top.natAbs⟩⟩
  else
    let noFraction := if layout.zeroFraction then some (zeros 1) else none
    if top < 0 then ⟨x.negative, zeros 1, some (zeros (-top - 1).toNat ++ ds), none⟩
    else
      let width := top.toNat + 1
      if ds.length ≤ width then
        ⟨x.negative, ds ++ zeros (width - ds.length), noFraction, none⟩
      else ⟨x.negative, ds.take width, some (ds.drop width), none⟩

def ofFloat (layout : Layout) (x : Float) : Numeral := ofDecimal layout (Decimal.shortest x)

def ofNat (n : Nat) : Numeral := ⟨false, Ascii.natDigits n, none, none⟩

def Exponent.text (e : Exponent) : Bytes :=
  101 :: (match e.sign with
    | none => e.digits
    | some true => 45 :: e.digits
    | some false => 43 :: e.digits)

def Exponent.value (e : Exponent) : Int :=
  if e.sign = some true then -(Ascii.natValue e.digits : Int) else Ascii.natValue e.digits

def text (x : Numeral) : Bytes :=
  (if x.negative then [45] else []) ++ x.whole
    ++ (match x.fraction with | none => [] | some ds => 46 :: ds)
    ++ (match x.exponent with | none => [] | some e => e.text)

def isWhole (x : Numeral) : Bool := x.fraction.isNone && x.exponent.isNone

def toDecimal (x : Numeral) : Decimal :=
  let fraction := x.fraction.getD []
  { negative := x.negative
    digits := Ascii.natValue (x.whole ++ fraction)
    exponent := (x.exponent.map Exponent.value).getD 0 - fraction.length }

def toFloat? (x : Numeral) : Option Float := x.toDecimal.toFloat?

end Numeral

def Binary64.plainText (x : Float) : String :=
  if x.isNaN then "NaN"
  else if x.isInf then (if x < 0 then "-inf" else "inf")
  else String.ofList ((Numeral.ofFloat .plain x).text.map fun b => Char.ofNat b.toNat)

end HealthConsensus
