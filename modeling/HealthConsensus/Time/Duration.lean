import HealthConsensus.Number.Decimal

namespace HealthConsensus

structure Duration where
  nanoseconds : Nat
  inRange : nanoseconds < 0x10000000000000000 * 1_000_000_000
deriving DecidableEq, Repr

namespace Duration

def ofNanoseconds (n : Nat) : Duration :=
  ⟨min n (0x10000000000000000 * 1_000_000_000 - 1), by omega⟩

def ofSeconds (n : Nat) : Duration := ofNanoseconds (n * 1_000_000_000)

def ofMilliseconds (n : Nat) : Duration := ofNanoseconds (n * 1_000_000)

def zero : Duration := ⟨0, by decide⟩

instance : Inhabited Duration := ⟨zero⟩

def ofParts? (seconds nanos : Nat) : Option Duration :=
  let n := seconds * 1_000_000_000 + nanos
  if h : n < 0x10000000000000000 * 1_000_000_000 then some ⟨n, h⟩ else none

def seconds (d : Duration) : Nat := d.nanoseconds / 1_000_000_000

def subsecond (d : Duration) : Nat := d.nanoseconds % 1_000_000_000

def isZero (d : Duration) : Bool := d.nanoseconds == 0

def longestSigned : Nat := 0x7fffffffffffffff * 1_000_000

def signed? (d : Duration) : Option Duration :=
  if d.nanoseconds ≤ longestSigned then some d else none

instance : LE Duration := ⟨fun a b => a.nanoseconds ≤ b.nanoseconds⟩

instance : LT Duration := ⟨fun a b => a.nanoseconds < b.nanoseconds⟩

instance (a b : Duration) : Decidable (a ≤ b) := Nat.decLe _ _

instance (a b : Duration) : Decidable (a < b) := Nat.decLt _ _

def toFloat (d : Duration) : Float :=
  (UInt64.ofNat d.seconds).toFloat + (UInt64.ofNat d.subsecond).toFloat / 1e9

def ofFloat? (x : Float) : Option Duration :=
  if x < 0 || !x.isFinite then none
  else
    let (n, d) := (Binary64.magnitude x).quotient
    let nanos := roundQuotient (n * 1_000_000_000) d
    if h : nanos < 0x10000000000000000 * 1_000_000_000 then some ⟨nanos, h⟩ else none

def withFraction (whole fraction width : Nat) : String :=
  let digits := (Ascii.paddedDigits width fraction).reverse.dropWhile (· == 48)
  let point := if digits.isEmpty then [] else 46 :: digits.reverse
  String.ofList ((Ascii.natDigits whole ++ point).map fun b => Char.ofNat b.toNat)

def text (d : Duration) : String :=
  let n := d.nanoseconds
  if 1_000_000_000 ≤ n then withFraction (n / 1_000_000_000) (n % 1_000_000_000) 9 ++ "s"
  else if 1_000_000 ≤ n then withFraction (n / 1_000_000) (n % 1_000_000) 6 ++ "ms"
  else if 1_000 ≤ n then withFraction (n / 1_000) (n % 1_000) 3 ++ "µs"
  else withFraction n 0 0 ++ "ns"

end Duration

end HealthConsensus
