import HealthConsensus.Number.Decimal

namespace HealthConsensus.Literal

def sign : Bytes → Bool × Bytes
  | 43 :: rest => (false, rest)
  | 45 :: rest => (true, rest)
  | rest => (false, rest)

def isDigits (bs : Bytes) : Bool := !bs.isEmpty && bs.all Ascii.isDigit

def nat? (s : String) : Option Nat :=
  match Bytes.ofString s with
  | 43 :: ds => if isDigits ds then some (Ascii.natValue ds) else none
  | ds => if isDigits ds then some (Ascii.natValue ds) else none

def int? (s : String) : Option Int :=
  let (negative, ds) := sign (Bytes.ofString s)
  if isDigits ds then
    some (if negative then -(Ascii.natValue ds : Int) else Ascii.natValue ds)
  else none

def infinity (negative : Bool) : Float := Binary64.ofBits negative Binary64.infinityBits

def exponent? : Bytes → Option Int
  | [] => some 0
  | b :: rest =>
    let (negative, ds) := sign rest
    if (b == 101 || b == 69) && isDigits ds then
      some (if negative then -(Ascii.natValue ds : Int) else Ascii.natValue ds)
    else none

def decimal? (negative : Bool) (bs : Bytes) : Option Decimal := do
  let whole := bs.takeWhile Ascii.isDigit
  let rest := bs.dropWhile Ascii.isDigit
  let (fraction, rest) := match rest with
    | 46 :: rest => (rest.takeWhile Ascii.isDigit, rest.dropWhile Ascii.isDigit)
    | rest => ([], rest)
  if whole.isEmpty && fraction.isEmpty then none
  let exponent ← exponent? rest
  return ⟨negative, Ascii.natValue (whole ++ fraction), exponent - fraction.length⟩

def float? (s : String) : Option Float :=
  let (negative, bs) := sign (Bytes.ofString s)
  let word := bs.map Ascii.toLower
  if word = Bytes.ofString "nan" then some (0.0 / 0.0)
  else if word = Bytes.ofString "inf" || word = Bytes.ofString "infinity" then
    some (infinity negative)
  else (decimal? negative bs).map fun x => x.toFloat?.getD (infinity negative)

end HealthConsensus.Literal
