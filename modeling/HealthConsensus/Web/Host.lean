import HealthConsensus.Text.Basic
import HealthConsensus.Text.Bytes
import HealthConsensus.Web.Encoding

namespace HealthConsensus

inductive Host where
  | name (text : List Char)
  | four (address : Nat)
  | eight (groups : List Nat)
deriving DecidableEq, Repr

namespace Host

def digitValue? (c : Char) : Option Nat :=
  if c.toNat < 128 then Ascii.hexValue? (Ascii.ofChar c) else none

def valueIn? (base : Nat) (cs : List Char) : Option Nat :=
  cs.foldlM (fun n c => do
    let d ← digitValue? c
    if d < base then some (n * base + d) else none) 0

def fourPart? : List Char → Option Nat
  | [] => none
  | '0' :: 'x' :: cs => valueIn? 16 cs
  | '0' :: 'X' :: cs => valueIn? 16 cs
  | '0' :: c :: cs => valueIn? 8 (c :: cs)
  | cs => valueIn? 10 cs

def withoutLastEmpty (parts : List (List Char)) : List (List Char) :=
  match parts.reverse with
  | [] :: rest => if rest.isEmpty then parts else rest.reverse
  | _ => parts

def endsInNumber (cs : List Char) : Bool :=
  match (withoutLastEmpty (splitOn '.' cs)).getLast? with
  | some part => (!part.isEmpty && part.all Char.isDigit) || (fourPart? part).isSome
  | none => false

def four? (cs : List Char) : Option Host := do
  let parts := withoutLastEmpty (splitOn '.' cs)
  if 4 < parts.length then none
  let values ← parts.mapM fourPart?
  let last ← values.getLast?
  let firsts := values.dropLast
  if firsts.any fun n => 255 < n then none
  let room := 1 <<< (8 * (5 - parts.length))
  if room ≤ last then none
  return four (firsts.foldl (fun n b => n * 256 + b) 0 * room + last)

def byte? (cs : List Char) : Option Nat :=
  match cs with
  | ['0'] => some 0
  | '0' :: _ => none
  | [] => none
  | cs => if cs.all Char.isDigit then (valueIn? 10 cs).filter (· < 256) else none

def twoGroups? (cs : List Char) : Option (List Nat) := do
  let [a, b, c, d] ← (splitOn '.' cs).mapM byte? | none
  return [a * 256 + b, c * 256 + d]

def group? (cs : List Char) : Option Nat :=
  if cs.isEmpty || 4 < cs.length then none else valueIn? 16 cs

def groups? (cs : List Char) : Option (List Nat) :=
  if cs.isEmpty then some []
  else
    let parts := splitOn ':' cs
    match parts.getLast? with
    | some last =>
      if last.contains '.' then do
        let firsts ← parts.dropLast.mapM group?
        let lasts ← twoGroups? last
        return firsts ++ lasts
      else parts.mapM group?
    | none => none

def atGap? : List Char → Option (List Char × List Char)
  | ':' :: ':' :: rest => some ([], rest)
  | c :: rest => (atGap? rest).map fun (a, b) => (c :: a, b)
  | [] => none

def eight? (cs : List Char) : Option Host :=
  match atGap? cs with
  | none => do
    let groups ← groups? cs
    if groups.length = 8 then some (eight groups) else none
  | some (before, after) => do
    let before ← if before.contains '.' then none else groups? before
    let after ← groups? after
    let given := before.length + after.length
    if 7 < given then none
    else some (eight (before ++ List.replicate (8 - given) 0 ++ after))

def isForbidden (c : Char) : Bool :=
  c.toNat ≤ 0x20 || c.toNat = 0x7F
    || ['#', '/', ':', '<', '>', '?', '@', '[', '\\', ']', '^', '|', '%'].contains c

def decoded (cs : List Char) : List Char :=
  (Lossy.text (Percent.decode (Bytes.ofString (String.ofList cs)))).toList

def ofText? (cs : List Char) : Option Host :=
  match cs with
  | [] => none
  | '[' :: rest =>
    match rest.reverse with
    | ']' :: inner => eight? inner.reverse
    | _ => none
  | cs =>
    let cs := Punycode.encodeName ((decoded cs).map Char.toLower)
    if cs.any isForbidden then none
    else if endsInNumber cs then four? cs
    else some (name cs)

def digits (n : Nat) : List Char := Nat.toDigits 10 n

def fourText (n : Nat) : List Char :=
  digits (n >>> 24) ++ '.' :: digits (n >>> 16 % 256) ++ '.' :: digits (n >>> 8 % 256)
    ++ '.' :: digits (n % 256)

def zeros (groups : List Nat) : Nat := (groups.takeWhile (· = 0)).length

def gap? (groups : List Nat) : Option (Nat × Nat) :=
  let runs := (List.range groups.length).map fun i => (i, zeros (groups.drop i))
  let best := runs.foldl (fun best r => if best.2 < r.2 then r else best) (0, 0)
  if 2 ≤ best.2 then some best else none

def groupsText (groups : List Nat) : List Char :=
  [':'].intercalate (groups.map (Nat.toDigits 16))

def eightText (groups : List Nat) : List Char :=
  match gap? groups with
  | none => groupsText groups
  | some (i, n) => groupsText (groups.take i) ++ ':' :: ':' :: groupsText (groups.drop (i + n))

def text : Host → List Char
  | name cs => cs
  | four n => fourText n
  | eight groups => '[' :: eightText groups ++ [']']

end Host

end HealthConsensus
