import HealthConsensus.Json.Basic

namespace HealthConsensus.Json

inductive Token where
  | beginArray
  | endArray
  | beginObject
  | endObject
  | colon
  | comma
  | null
  | bool (b : Bool)
  | number (x : Numeral)
  | string (raw : Bytes)
deriving DecidableEq

namespace Token

def digits? (bs : Bytes) : Option (Bytes × Bytes) :=
  match bs.takeWhile Ascii.isDigit with
  | [] => none
  | ds => some (ds, bs.dropWhile Ascii.isDigit)

def wholeDigits? (bs : Bytes) : Option (Bytes × Bytes) :=
  match digits? bs with
  | some (48 :: _ :: _, _) => none
  | found => found

def fraction? : Bytes → Option (Option Bytes × Bytes)
  | 46 :: rest => (digits? rest).map fun (ds, rest) => (some ds, rest)
  | rest => some (none, rest)

def exponentSign : Bytes → Option Bool × Bytes
  | 43 :: rest => (some false, rest)
  | 45 :: rest => (some true, rest)
  | rest => (none, rest)

def exponent? (bs : Bytes) : Option (Option Numeral.Exponent × Bytes) :=
  match bs with
  | [] => some (none, [])
  | b :: rest =>
    if b == 101 || b == 69 then
      let (sign, rest) := exponentSign rest
      (digits? rest).map fun (ds, rest) => (some ⟨sign, ds⟩, rest)
    else some (none, bs)

def minus : Bytes → Bool × Bytes
  | 45 :: rest => (true, rest)
  | rest => (false, rest)

def number? (bs : Bytes) : Option (Numeral × Bytes) := do
  let (negative, rest) := minus bs
  let (whole, rest) ← wholeDigits? rest
  let (fraction, rest) ← fraction? rest
  let (exponent, rest) ← exponent? rest
  return (⟨negative, whole, fraction, exponent⟩, rest)

def stringOnto (seen : Bytes) : Bytes → Option (Bytes × Bytes)
  | [] => none
  | 34 :: rest => some (seen.reverse, rest)
  | 92 :: 117 :: a :: b :: c :: d :: rest =>
    if (Quoted.codeUnit? a b c d).isSome then
      stringOnto (d :: c :: b :: a :: 117 :: 92 :: seen) rest
    else none
  | 92 :: b :: rest =>
    if (Quoted.shortEscape? b).isSome then stringOnto (b :: 92 :: seen) rest else none
  | b :: rest => if 32 ≤ b then stringOnto (b :: seen) rest else none

def literal? (word : String) (token : Token) (bs : Bytes) : Option (Token × Bytes) :=
  (Bytes.after? (Bytes.ofString word) bs).map fun rest => (token, rest)

def scan? : Bytes → Option (Token × Bytes)
  | [] => none
  | 91 :: rest => some (beginArray, rest)
  | 93 :: rest => some (endArray, rest)
  | 123 :: rest => some (beginObject, rest)
  | 125 :: rest => some (endObject, rest)
  | 58 :: rest => some (colon, rest)
  | 44 :: rest => some (comma, rest)
  | 34 :: rest => (stringOnto [] rest).map fun (raw, rest) => (string raw, rest)
  | 110 :: rest => literal? "null" null (110 :: rest)
  | 116 :: rest => literal? "true" (bool true) (116 :: rest)
  | 102 :: rest => literal? "false" (bool false) (102 :: rest)
  | bs => (number? bs).map fun (x, rest) => (number x, rest)

end Token

end HealthConsensus.Json
