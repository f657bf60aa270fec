import HealthConsensus.Number.Decimal

/-!
JSON values as written. Strings keep the bytes between their quotes and numbers their digits, so
that a reader judges only the parts it keeps.
-/

namespace HealthConsensus

inductive Json where
  | null
  | bool (b : Bool)
  | number (x : Numeral)
  | string (raw : Bytes)
  | array (items : List Json)
  | object (fields : List (Bytes × Json))

inductive Number where
  | natural (n : Nat)
  | negative (n : Nat)
  | real (x : Float)

namespace Quoted

def escapeByte (b : UInt8) : Bytes :=
  if b == 34 then [92, 34]
  else if b == 92 then [92, 92]
  else if 32 ≤ b then [b]
  else if b == 8 then [92, 98]
  else if b == 9 then [92, 116]
  else if b == 10 then [92, 110]
  else if b == 12 then [92, 102]
  else if b == 13 then [92, 114]
  else [92, 117, 48, 48, Ascii.hexDigit (b.toNat / 16), Ascii.hexDigit (b.toNat % 16)]

def escape (bs : Bytes) : Bytes := bs.flatMap escapeByte

def shortEscape? (b : UInt8) : Option UInt8 :=
  if b == 34 || b == 92 || b == 47 then some b
  else if b == 98 then some 8
  else if b == 102 then some 12
  else if b == 110 then some 10
  else if b == 114 then some 13
  else if b == 116 then some 9
  else none

def codeUnit? (a b c d : UInt8) : Option Nat := do
  let a ← Ascii.hexValue? a
  let b ← Ascii.hexValue? b
  let c ← Ascii.hexValue? c
  let d ← Ascii.hexValue? d
  return ((a * 16 + b) * 16 + c) * 16 + d

def isHighSurrogate (n : Nat) : Bool := 0xD800 ≤ n && n < 0xDC00

def isLowSurrogate (n : Nat) : Bool := 0xDC00 ≤ n && n < 0xE000

def utf8 (n : Nat) : Bytes := Bytes.ofString (String.singleton (Char.ofNat n))

def unescapeOnto (done : Bytes) : Bytes → Option Bytes
  | [] => some done.reverse
  | 92 :: 117 :: a :: b :: c :: d :: rest =>
    match codeUnit? a b c d with
    | none => none
    | some high =>
      if isLowSurrogate high then none
      else if isHighSurrogate high then
        match rest with
        | 92 :: 117 :: a :: b :: c :: d :: rest =>
          match codeUnit? a b c d with
          | none => none
          | some low =>
            if isLowSurrogate low then
              unescapeOnto
                ((utf8 (0x10000 + (high - 0xD800) * 0x400 + (low - 0xDC00))).reverse ++ done) rest
            else none
        | _ => none
      else unescapeOnto ((utf8 high).reverse ++ done) rest
  | 92 :: b :: rest =>
    match shortEscape? b with
    | none => none
    | some b => unescapeOnto (b :: done) rest
  | [92] => none
  | b :: rest => unescapeOnto (b :: done) rest

def unescape? (raw : Bytes) : Option Bytes := unescapeOnto [] raw

def text? (raw : Bytes) : Option String := (unescape? raw).bind Bytes.toString?

def ofString (s : String) : Bytes := escape (Bytes.ofString s)

end Quoted

namespace Numeral

def fill (significand : Nat) : Bytes → Nat × Nat
  | [] => (significand, 0)
  | d :: ds =>
    let next := significand * 10 + Ascii.digitValue d
    if next < UInt64.size then
      let (significand, taken) := fill next ds
      (significand, taken + 1)
    else (significand, 0)

def mostTens : Nat := 308

def tens? (n : Nat) : Option Nat := Binary64.nearest? (.pow 10 n) 1

def shrink? : Nat → Nat → Option Nat
  | 0, f => some f
  | steps + 1, f =>
    if f = 0 then some 0
    else do
      let ten ← tens? mostTens
      shrink? steps (← Binary64.over? f ten)

def scale? (f : Nat) : Int → Option Nat
  | .ofNat n =>
    if n ≤ mostTens then do Binary64.times? f (← tens? n)
    else if f = 0 then some 0
    else none
  | .negSucc n => do
    let f ← shrink? (n / mostTens) f
    Binary64.over? f (← tens? (n % mostTens + 1))

/-- The double read from a numeral. It need not be the nearest one: digits beyond 64 bits are left
out, and the significand is rounded before it is scaled and again after that. -/
def scaled? (x : Numeral) : Option Float := do
  let (whole, taken) := fill 0 x.whole
  let (significand, places) := fill whole (x.fraction.getD [])
  let exponent := (x.exponent.map Exponent.value).getD 0 + (x.whole.length - taken : Nat) - places
  let f ← Binary64.nearest? significand 1
  return Binary64.ofBits x.negative (← scale? f exponent)

/-- The number read from a numeral: integers beyond 64 bits and a negative zero are doubles. -/
def number? (x : Numeral) : Option Number :=
  let n := Ascii.natValue x.whole
  if !x.isWhole then x.scaled?.map .real
  else if x.negative then
    if n = 0 || 1 <<< 63 < n then x.scaled?.map .real else some (.negative n)
  else if n < UInt64.size then some (.natural n)
  else x.scaled?.map .real

end Numeral

namespace Number

def toFloat : Number → Float
  | natural n => (Decimal.toFloat? ⟨false, n, 0⟩).getD 0
  | negative n => (Decimal.toFloat? ⟨true, n, 0⟩).getD 0
  | real x => x

def integralBound : Nat := 9_000_000_000_000_000

/-- Takes an integral double of moderate size for the integer it equals. -/
def settle : Number → Number
  | real x =>
    match Binary64.toInt? x with
    | some n =>
      if n.natAbs < integralBound then (if 0 ≤ n then natural n.toNat else negative n.natAbs)
      else real x
    | none => real x
  | n => n

end Number

namespace Json

def str (s : String) : Json := .string (Quoted.ofString s)

def nat (n : Nat) : Json := .number (.ofNat n)

def float (x : Float) : Json := if x.isFinite then .number (.ofFloat .json x) else .null

def obj (fields : List (String × Json)) : Json :=
  .object (fields.map fun f => (Quoted.ofString f.1, f.2))

def optional {α : Type} (write : α → Json) : Option α → Json
  | none => .null
  | some a => write a

def optionalField {α : Type} (name : String) (write : α → Json) : Option α → List (String × Json)
  | none => []
  | some a => [(name, write a)]

def list {α : Type} (write : α → Json) (xs : List α) : Json := .array (xs.map write)

def quoted (raw : Bytes) : Bytes := 34 :: (raw ++ [34])

mutual

def text : Json → Bytes
  | .null => Bytes.ofString "null"
  | .bool true => Bytes.ofString "true"
  | .bool false => Bytes.ofString "false"
  | .number x => x.text
  | .string raw => quoted raw
  | .array items => 91 :: (itemsText items ++ [93])
  | .object fields => 123 :: (fieldsText fields ++ [125])

def itemsText : List Json → Bytes
  | [] => []
  | [j] => text j
  | j :: items => text j ++ 44 :: itemsText items

def fieldsText : List (Bytes × Json) → Bytes
  | [] => []
  | [(k, j)] => quoted k ++ 58 :: text j
  | (k, j) :: fields => quoted k ++ 58 :: (text j ++ 44 :: fieldsText fields)

end

end Json

end HealthConsensus
