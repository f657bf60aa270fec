namespace HealthConsensus

structure Dyadic where
  significand : Nat
  exponent : Int
deriving DecidableEq, Repr

namespace Dyadic

def quotient (x : Dyadic) : Nat × Nat :=
  (x.significand <<< x.exponent.toNat, 1 <<< (-x.exponent).toNat)

end Dyadic

def roundQuotient (n d : Nat) : Nat :=
  let q := n / d
  let twice := 2 * (n % d)
  if twice < d then q else if d < twice then q + 1 else q + q % 2

namespace Binary64

def unsignedBits (x : Float) : Nat := x.toBits.toNat % (1 <<< 63)

def isNegative (x : Float) : Bool := 1 <<< 63 ≤ x.toBits.toNat

def infinityBits : Nat := 2047 <<< 52

def magnitudeOfBits (bits : Nat) : Dyadic :=
  let field : Nat := bits >>> 52
  let fraction : Nat := bits % (1 <<< 52)
  if field = 0 then ⟨fraction, -1074⟩ else ⟨fraction + 1 <<< 52, (field : Int) - 1075⟩

def magnitude (x : Float) : Dyadic := magnitudeOfBits (unsignedBits x)

def exponentOf (n d : Nat) : Int :=
  let e : Int := (n.log2 : Int) - (d.log2 : Int) - 52
  let small := if e < 0 then n <<< (-e).toNat < d <<< 52 else n < d <<< e.toNat <<< 52
  max (-1074) (if small then e - 1 else e)

/-- The bit pattern of the double nearest to a quotient, ties to even, if one is in range. -/
def nearestBits? (n d : Nat) : Option Nat :=
  let e := exponentOf n d
  let significand :=
    if e < 0 then roundQuotient (n <<< (-e).toNat) d else roundQuotient n (d <<< e.toNat)
  let bits := (e + 1074).toNat <<< 52 + significand
  if bits < infinityBits then some bits else none

def nearest? (n d : Nat) : Option Nat := if n = 0 then some 0 else nearestBits? n d

def times? (x y : Nat) : Option Nat :=
  let (n, d) := (magnitudeOfBits x).quotient
  let (m, c) := (magnitudeOfBits y).quotient
  nearest? (n * m) (d * c)

def over? (x y : Nat) : Option Nat :=
  let (n, d) := (magnitudeOfBits x).quotient
  let (m, c) := (magnitudeOfBits y).quotient
  nearest? (n * c) (d * m)

def ofBits (negative : Bool) (bits : Nat) : Float :=
  Float.ofBits (UInt64.ofNat (if negative then bits + 1 <<< 63 else bits))

def toInt? (x : Float) : Option Int :=
  let (n, d) := (magnitude x).quotient
  if x.isFinite && n % d == 0 then
    some (if isNegative x then -((n / d : Nat) : Int) else ((n / d : Nat) : Int))
  else none

end Binary64

end HealthConsensus
