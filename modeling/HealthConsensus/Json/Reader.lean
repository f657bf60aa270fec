import HealthConsensus.Json.Basic

namespace HealthConsensus.Json

mutual

/-- Every string is a text, every number is in range and nesting stays within the given depth. -/
def isReadable (depth : Nat) : Json → Bool
  | .number x => x.number?.isSome
  | .string raw => (Quoted.text? raw).isSome
  | .array items =>
    match depth with
    | 0 => false
    | depth + 1 => itemsReadable depth items
  | .object fields =>
    match depth with
    | 0 => false
    | depth + 1 => fieldsReadable depth fields
  | .null => true
  | .bool _ => true

def itemsReadable (depth : Nat) : List Json → Bool
  | [] => true
  | j :: items => isReadable depth j && itemsReadable depth items

def fieldsReadable (depth : Nat) : List (Bytes × Json) → Bool
  | [] => true
  | (k, j) :: fields =>
    (Quoted.text? k).isSome && isReadable depth j && fieldsReadable depth fields

end

def bool? : Json → Option Bool
  | .bool b => some b
  | _ => none

def string? : Json → Option String
  | .string raw => Quoted.text? raw
  | _ => none

def number? : Json → Option Number
  | .number x => x.number?
  | _ => none

def natBelow? (bound : Nat) (j : Json) : Option Nat :=
  match j.number? with
  | some (.natural n) => if n < bound then some n else none
  | _ => none

def uint16? (j : Json) : Option UInt16 := (natBelow? UInt16.size j).map UInt16.ofNat

def uint32? (j : Json) : Option UInt32 := (natBelow? UInt32.size j).map UInt32.ofNat

def uint64? (j : Json) : Option UInt64 := (natBelow? UInt64.size j).map UInt64.ofNat

def float? (j : Json) : Option Float := j.number?.map Number.toFloat

def array? : Json → Option (List Json)
  | .array items => some items
  | _ => none

def isObject : Json → Bool
  | .object _ => true
  | _ => false

def list? {α : Type} (read : Json → Option α) (j : Json) : Option (List α) :=
  j.array?.bind fun items => items.mapM read

def members? : Json → Option (List (String × Json))
  | .object fields => fields.mapM fun (k, j) => (Quoted.text? k).map (·, j)
  | _ => none

def get? (name : String) : Json → Option Json
  | .object fields => (fields.reverse.find? fun f => Quoted.text? f.1 == some name).map (·.2)
  | _ => none

def constructor? : Json → Option String
  | .object [(k, .null)] => Quoted.text? k
  | j => j.string?

def fields? (names : List String) : Json → Option (List (Option Json))
  | .array items =>
    if items.length ≤ names.length then
      some (items.map some ++ List.replicate (names.length - items.length) none)
    else none
  | j => do
    let members ← j.members?
    names.mapM fun name =>
      match members.filter (·.1 == name) with
      | [] => some none
      | [(_, j)] => some (some j)
      | _ => none

namespace Field

variable {α : Type}

def required (read : Json → Option α) (field : Option Json) : Option α := field.bind read

def withDefault (default : α) (read : Json → Option α) : Option Json → Option α
  | none => some default
  | some j => read j

def optional (read : Json → Option α) : Option Json → Option (Option α)
  | none => some none
  | some .null => some none
  | some j => (read j).map some

end Field

end HealthConsensus.Json
