import HealthConsensus.Text.Bytes

namespace HealthConsensus.Base64

def digit (n : Nat) : UInt8 :=
  UInt8.ofNat
    (if n < 26 then n + 65 else if n < 52 then n + 71 else if n < 62 then n - 4
      else if n = 62 then 43 else 47)

def value? (b : UInt8) : Option Nat :=
  if Ascii.isUpper b then some (b.toNat - 65)
  else if Ascii.isLower b then some (b.toNat - 71)
  else if Ascii.isDigit b then some (b.toNat + 4)
  else if b == 43 then some 62
  else if b == 47 then some 63
  else none

def pad : UInt8 := 61

def encode : Bytes → Bytes
  | [] => []
  | [a] => [digit (a.toNat / 4), digit (a.toNat % 4 * 16), pad, pad]
  | [a, b] =>
    [digit (a.toNat / 4), digit (a.toNat % 4 * 16 + b.toNat / 16), digit (b.toNat % 16 * 4), pad]
  | a :: b :: c :: rest =>
    digit (a.toNat / 4) :: digit (a.toNat % 4 * 16 + b.toNat / 16)
      :: digit (b.toNat % 16 * 4 + c.toNat / 64) :: digit (c.toNat % 64) :: encode rest

def lastByte? (canonical : Bool) (a b : UInt8) : Option Bytes := do
  let a ← value? a
  let b ← value? b
  if canonical && b % 16 != 0 then none else some [UInt8.ofNat (a * 4 + b / 16)]

def lastTwo? (canonical : Bool) (a b c : UInt8) : Option Bytes := do
  let a ← value? a
  let b ← value? b
  let c ← value? c
  if canonical && c % 4 != 0 then none
  else some [UInt8.ofNat (a * 4 + b / 16), UInt8.ofNat (b % 16 * 16 + c / 4)]

def threeBytes? (a b c d : UInt8) : Option Bytes := do
  let a ← value? a
  let b ← value? b
  let c ← value? c
  let d ← value? d
  return [UInt8.ofNat (a * 4 + b / 16), UInt8.ofNat (b % 16 * 16 + c / 4),
    UInt8.ofNat (c % 4 * 64 + d)]

def decode? (canonical : Bool) : Bytes → Option Bytes
  | [] => some []
  | a :: b :: c :: d :: rest =>
    if rest.isEmpty && d == pad then
      if c == pad then lastByte? canonical a b else lastTwo? canonical a b c
    else do
      let first ← threeBytes? a b c d
      let others ← decode? canonical rest
      return first ++ others
  | _ => none

end HealthConsensus.Base64
