import HealthConsensus.Json.Token

namespace HealthConsensus.Json

inductive Container where
  | array (items : List Json)
  | object (fields : List (Bytes × Json))
  | member (fields : List (Bytes × Json)) (key : Bytes)

inductive Expected where
  | value
  | itemOrEnd
  | memberOrEnd
  | key
  | colon
  | commaOrEnd

inductive Reading where
  | within (expected : Expected) (containers : List Container)
  | finished (value : Json)

namespace Reading

def place (j : Json) : List Container → Option Reading
  | [] => some (finished j)
  | .array items :: outer => some (within .commaOrEnd (.array (j :: items) :: outer))
  | .member fields key :: outer => some (within .commaOrEnd (.object ((key, j) :: fields) :: outer))
  | .object _ :: _ => none

def close : Token → List Container → Option Reading
  | .endArray, .array items :: outer => place (.array items.reverse) outer
  | .endObject, .object fields :: outer => place (.object fields.reverse) outer
  | _, _ => none

def beginValue : Token → List Container → Option Reading
  | .beginArray, outer => some (within .itemOrEnd (.array [] :: outer))
  | .beginObject, outer => some (within .memberOrEnd (.object [] :: outer))
  | .null, outer => place .null outer
  | .bool b, outer => place (.bool b) outer
  | .number x, outer => place (.number x) outer
  | .string raw, outer => place (.string raw) outer
  | _, _ => none

def beginMember : Token → List Container → Option Reading
  | .string raw, .object fields :: outer => some (within .colon (.member fields raw :: outer))
  | _, _ => none

def separate : List Container → Option Reading
  | .array items :: outer => some (within .value (.array items :: outer))
  | .object fields :: outer => some (within .key (.object fields :: outer))
  | _ => none

def step (token : Token) : Reading → Option Reading
  | finished _ => none
  | within .value cs => beginValue token cs
  | within .itemOrEnd cs => if token = .endArray then close token cs else beginValue token cs
  | within .memberOrEnd cs => if token = .endObject then close token cs else beginMember token cs
  | within .key cs => beginMember token cs
  | within .colon cs => if token = .colon then some (within .value cs) else none
  | within .commaOrEnd cs => if token = .comma then separate cs else close token cs

def run : Nat → Reading → Bytes → Option Reading
  | 0, _, _ => none
  | fuel + 1, r, bs =>
    match bs.dropWhile Ascii.isBlank with
    | [] => some r
    | bs =>
      match Token.scan? bs with
      | none => none
      | some (token, rest) =>
        match step token r with
        | none => none
        | some r => run fuel r rest

def value? : Reading → Option Json
  | finished j => some j
  | within _ _ => none

end Reading

def parse? (bs : Bytes) : Option Json :=
  (Reading.run (bs.length + 1) (.within .value []) bs).bind Reading.value?

end HealthConsensus.Json
