import HealthConsensus.Text.Basic
import HealthConsensus.Text.Bytes
import HealthConsensus.Web.Encoding

namespace HealthConsensus

structure AdminRequest where
  method : String
  target : String
  contentType : Option String
  body : Bytes
deriving DecidableEq, Repr

namespace AdminRequest

def before (separator : UInt8) (bs : Bytes) : Bytes := bs.takeWhile (· != separator)

def after (separator : UInt8) (bs : Bytes) : Bytes := (bs.dropWhile (· != separator)).drop 1

def address (r : AdminRequest) : Bytes := before 35 (Bytes.ofString r.target)

def steps (r : AdminRequest) : List Bytes :=
  match splitOn 47 (before 63 r.address) with
  | [] :: steps => steps
  | steps => steps

def stepText? (step : Bytes) : Option String := Bytes.toString? (Percent.decode step)

def queryText (bs : Bytes) : String :=
  Lossy.text (Percent.decode (bs.map fun b => if b == 43 then 32 else b))

def query (r : AdminRequest) : List (String × String) :=
  ((splitOn 38 (after 63 r.address)).filter fun part => !part.isEmpty).map fun part =>
    (queryText (before 61 part), queryText (after 61 part))

end AdminRequest

namespace ContentType

def isTokenByte (b : UInt8) : Bool :=
  Ascii.isAlphanumeric b
    || [33, 35, 36, 37, 38, 39, 42, 43, 45, 46, 94, 95, 96, 124, 126].contains b

def lower (bs : Bytes) : Bytes := bs.map Ascii.toLower

def isWord (word : String) (bs : Bytes) : Bool := lower bs == Bytes.ofString word

def afterQuoted? : Bytes → Option Bytes
  | [] => none
  | 34 :: rest =>
    match rest.dropWhile (· == 32) with
    | [] => some []
    | 59 :: rest => some rest
    | _ => none
  | b :: rest => if 31 < b && b != 127 then afterQuoted? rest else none

def afterParameter? (bs : Bytes) : Option Bytes :=
  let name := bs.takeWhile fun b => isTokenByte b
  match bs.drop name.length with
  | 61 :: 34 :: b :: rest => if name.isEmpty || b == 34 then none else afterQuoted? (b :: rest)
  | 61 :: rest =>
    let value := rest.takeWhile fun b => isTokenByte b
    match rest.drop value.length with
    | [] => if name.isEmpty then none else some []
    | 59 :: more => if name.isEmpty || value.isEmpty then none else some more
    | _ => none
  | _ => none

def areParameters : Nat → Bytes → Bool
  | 0, _ => false
  | fuel + 1, bs =>
    match bs.dropWhile (· == 32) with
    | [] => true
    | bs =>
      match afterParameter? bs with
      | some rest => areParameters fuel rest
      | none => false

def suffixed (subtype : Bytes) : Bytes × Option Bytes :=
  let suffix := (subtype.reverse.takeWhile (· != 43)).reverse
  let start := subtype.take (subtype.length - suffix.length - 1)
  if suffix.length < subtype.length && !start.isEmpty then (start, some suffix) else (subtype, none)

def isJsonSubtype (subtype : Bytes) : Bool :=
  let (start, suffix) := suffixed subtype
  isWord "json" start || suffix.any (isWord "json")

def isJson (text : String) : Bool :=
  let bs := Bytes.ofString text
  let kind := bs.takeWhile fun b => isTokenByte b
  match bs.drop kind.length with
  | 47 :: rest =>
    let subtype := rest.takeWhile fun b => isTokenByte b
    isWord "application" kind && !subtype.isEmpty && isJsonSubtype subtype
      && match rest.drop subtype.length with
        | [] => true
        | 59 :: parameters => areParameters (parameters.length + 1) parameters
        | _ => false
  | _ => false

end ContentType

end HealthConsensus
