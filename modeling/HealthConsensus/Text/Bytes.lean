namespace HealthConsensus

abbrev Bytes := List UInt8

namespace Bytes

def ofString (s : String) : Bytes := s.toUTF8.data.toList

def toString? (bs : Bytes) : Option String := String.fromUTF8? ⟨bs.toArray⟩

def after? (start bs : Bytes) : Option Bytes :=
  if start.isPrefixOf bs then some (bs.drop start.length) else none

end Bytes

namespace Ascii

def isDigit (b : UInt8) : Bool := 48 ≤ b && b ≤ 57

def isUpper (b : UInt8) : Bool := 65 ≤ b && b ≤ 90

def isLower (b : UInt8) : Bool := 97 ≤ b && b ≤ 122

def isLetter (b : UInt8) : Bool := isUpper b || isLower b

def isAlphanumeric (b : UInt8) : Bool := isLetter b || isDigit b

def isBlank (b : UInt8) : Bool := b == 32 || b == 9 || b == 10 || b == 13

def toLower (b : UInt8) : UInt8 := if isUpper b then b + 32 else b

def ofChar (c : Char) : UInt8 := c.toUInt8

def digitValue (b : UInt8) : Nat := b.toNat - 48

def hexValue? (b : UInt8) : Option Nat :=
  if isDigit b then some (b.toNat - 48)
  else if 97 ≤ b && b ≤ 102 then some (b.toNat - 87)
  else if 65 ≤ b && b ≤ 70 then some (b.toNat - 55)
  else none

def hexDigit (n : Nat) : UInt8 := UInt8.ofNat (if n < 10 then 48 + n else 87 + n)

def natValue (ds : Bytes) : Nat := ds.foldl (fun n d => 10 * n + digitValue d) 0

def natDigits (n : Nat) : Bytes := (Nat.toDigits 10 n).map ofChar

def paddedDigits (width n : Nat) : Bytes :=
  let ds := natDigits n
  List.replicate (width - ds.length) 48 ++ ds

def lower (s : String) : String := s.map Char.toLower

end Ascii

namespace Hex

def encode : Bytes → Bytes
  | [] => []
  | b :: bs => Ascii.hexDigit (b.toNat / 16) :: Ascii.hexDigit (b.toNat % 16) :: encode bs

def decode? : Bytes → Option Bytes
  | [] => some []
  | [_] => none
  | a :: b :: rest => do
    let high ← Ascii.hexValue? a
    let low ← Ascii.hexValue? b
    let bs ← decode? rest
    return UInt8.ofNat (16 * high + low) :: bs

def text (bs : Bytes) : String := String.ofList ((encode bs).map fun b => Char.ofNat b.toNat)

theorem encode_length (bs : Bytes) : (encode bs).length = 2 * bs.length := by
  induction bs with
  | nil => rfl
  | cons b bs ih => simp [encode, ih]; omega

end Hex

namespace Lossy

def followers? (b : UInt8) : Option (List (UInt8 × UInt8)) :=
  let any : UInt8 × UInt8 := (0x80, 0xBF)
  if b < 0x80 then some []
  else if 0xC2 ≤ b && b ≤ 0xDF then some [any]
  else if b == 0xE0 then some [(0xA0, 0xBF), any]
  else if b == 0xED then some [(0x80, 0x9F), any]
  else if 0xE1 ≤ b && b ≤ 0xEF then some [any, any]
  else if b == 0xF0 then some [(0x90, 0xBF), any, any]
  else if 0xF1 ≤ b && b ≤ 0xF3 then some [any, any, any]
  else if b == 0xF4 then some [(0x80, 0x8F), any, any]
  else none

def matching : List (UInt8 × UInt8) → Bytes → Nat
  | (low, high) :: bounds, b :: bs => if low ≤ b && b ≤ high then matching bounds bs + 1 else 0
  | _, _ => 0

def replacement : Char := '\uFFFD'

def chars : Nat → Bytes → List Char
  | 0, _ => []
  | _, [] => []
  | fuel + 1, b :: bs =>
    match followers? b with
    | none => replacement :: chars fuel bs
    | some bounds =>
      let n := matching bounds bs
      let rest := chars fuel (bs.drop n)
      if n = bounds.length then
        (((Bytes.toString? (b :: bs.take n)).map String.toList).getD [replacement]) ++ rest
      else replacement :: rest

def text (bs : Bytes) : String := String.ofList (chars bs.length bs)

end Lossy

end HealthConsensus
