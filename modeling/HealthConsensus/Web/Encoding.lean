import HealthConsensus.Text.Basic
import HealthConsensus.Text.Bytes

namespace HealthConsensus

namespace Percent

def decode : Bytes → Bytes
  | 37 :: a :: b :: rest =>
    match Ascii.hexValue? a, Ascii.hexValue? b with
    | some high, some low => UInt8.ofNat (high * 16 + low) :: decode rest
    | _, _ => 37 :: decode (a :: b :: rest)
  | b :: rest => b :: decode rest
  | [] => []

def hexDigit (n : Nat) : Char := ((Nat.toDigits 16 n).headD '0').toUpper

def encodeByte (b : UInt8) : List Char :=
  ['%', hexDigit (b.toNat / 16), hexDigit (b.toNat % 16)]

def encodeChar (escaped : Char → Bool) (c : Char) : List Char :=
  if escaped c then (Bytes.ofString (String.singleton c)).flatMap encodeByte else [c]

def encode (escaped : Char → Bool) (cs : List Char) : List Char := cs.flatMap (encodeChar escaped)

end Percent

namespace Punycode

def digit (d : Nat) : Char := Char.ofNat (if d < 26 then 97 + d else 22 + d)

def threshold (bias place : Nat) : Nat := max 1 (min 26 (place - bias))

theorem one_le_threshold (bias place : Nat) : 1 ≤ threshold bias place := Nat.le_max_left _ _

def digits (bias place n : Nat) : List Char :=
  let t := threshold bias place
  if n < t then [digit n]
  else digit (t + (n - t) % (36 - t)) :: digits bias (place + 36) ((n - t) / (36 - t))
termination_by n
decreasing_by
  have h := one_le_threshold bias place
  have hle := Nat.div_le_self (n - threshold bias place) (36 - threshold bias place)
  omega

def settle (delta bias : Nat) : Nat :=
  if 455 < delta then settle (delta / 35) (bias + 36) else bias + 36 * delta / (delta + 38)
termination_by delta
decreasing_by omega

def adapt (delta placed : Nat) (isFirst : Bool) : Nat :=
  let d := if isFirst then delta / 700 else delta / 2
  settle (d + d / placed) 0

structure Progress where
  delta : Nat
  bias : Nat
  placed : Nat
  written : List Char

def isBasic (c : Char) : Bool := c.toNat < 128

def pass (basic point : Nat) (p : Progress) (c : Char) : Progress :=
  if c.toNat < point then { p with delta := p.delta + 1 }
  else if c.toNat = point then
    { delta := 0
      bias := adapt p.delta (p.placed + 1) (p.placed = basic)
      placed := p.placed + 1
      written := p.written ++ digits p.bias 36 p.delta }
  else p

def place (label : List Char) (basic : Nat) : List Nat → Nat → Progress → Progress
  | [], _, p => p
  | point :: points, least, p =>
    let skipped := { p with delta := p.delta + (point - least) * (p.placed + 1) }
    let passed := label.foldl (pass basic point) skipped
    place label basic points (point + 1) { passed with delta := passed.delta + 1 }

def points (label : List Char) : List Nat :=
  (((label.filter fun c => !isBasic c).map Char.toNat).mergeSort fun a b => a ≤ b).eraseDups

def encode (label : List Char) : List Char :=
  let basic := label.filter isBasic
  let start := if basic.isEmpty then [] else basic ++ ['-']
  (place label basic.length (points label) 128 ⟨0, 72, basic.length, start⟩).written

def encodeLabel (label : List Char) : List Char :=
  if label.all isBasic then label else "xn--".toList ++ encode label

def encodeName (name : List Char) : List Char :=
  ['.'].intercalate ((splitOn '.' name).map encodeLabel)

end Punycode

end HealthConsensus
