import HealthConsensus.Json.Parser
import HealthConsensus.Json.Reader

namespace HealthConsensus

inductive BodyError where
  | malformed
  | unfit
deriving DecidableEq, Repr

inductive FieldKind where
  | flag
  | text
deriving DecidableEq, Repr

structure BodyField where
  name : String
  kind : FieldKind
  isRequired : Bool

namespace BodyField

def valueFault? (kind : FieldKind) : Json → Option BodyError
  | .bool _ => if kind = .flag then none else some .unfit
  | .string raw =>
    if (Quoted.text? raw).isNone then some .malformed
    else if kind = .text then none else some .unfit
  | .number x => if x.number?.isNone then some .malformed else some .unfit
  | _ => some .unfit

def find? (fields : List BodyField) (name : String) : Option BodyField :=
  fields.find? fun f => f.name == name

def memberFault? (fields : List BodyField) (m : Bytes × Json) : Option BodyError :=
  match Quoted.text? m.1 with
  | none => some .malformed
  | some name => (find? fields name).bind fun f => valueFault? f.kind m.2

def isRepeated (fields : List BodyField) (members : List (Bytes × Json)) (key : Bytes) : Bool :=
  match Quoted.text? key with
  | none => false
  | some name =>
    (find? fields name).isSome && members.any fun m => Quoted.text? m.1 == some name

def keyFault? (fields : List BodyField) (members : List (Bytes × Json)) (key : Bytes) :
    Option BodyError :=
  if (Quoted.text? key).isNone then some .malformed
  else if isRepeated fields members key then some .unfit
  else none

def itemsFault? : List BodyField → List Json → Option BodyError
  | _, [] => none
  | [], _ :: _ => some .malformed
  | f :: rest, j :: items =>
    match valueFault? f.kind j with
    | some e => some e
    | none => itemsFault? rest items

def membersFault? (fields : List BodyField) (members : List (Bytes × Json)) : Option BodyError :=
  members.findSome? (memberFault? fields)

def isMissing (members : List (Bytes × Json)) (f : BodyField) : Bool :=
  f.isRequired && !members.any fun m => Quoted.text? m.1 == some f.name

def fault? (fields : List BodyField) : Json → Option BodyError
  | .object members =>
    (membersFault? fields members).or
      (if fields.any (isMissing members) then some .unfit else none)
  | .array items =>
    (itemsFault? fields items).or
      (if (fields.drop items.length).any BodyField.isRequired then some .unfit else none)
  | .string raw => some (if (Quoted.text? raw).isNone then .malformed else .unfit)
  | .number x => some (if x.number?.isNone then .malformed else .unfit)
  | _ => some .unfit

def openFault? (fields : List BodyField) (nested : Bool) : Json.Container → Option BodyError
  | .array items =>
    (itemsFault? fields items.reverse).or
      (if nested then some (if items.length < fields.length then .unfit else .malformed) else none)
  | .object members => membersFault? fields members.reverse
  | .member members key =>
    ((membersFault? fields members.reverse).or (keyFault? fields members key)).or
      (if nested && ((Quoted.text? key).bind (find? fields)).isSome then some .unfit else none)

def readingFault? (fields : List BodyField) : Json.Reading → Option BodyError
  | .finished j => fault? fields j
  | .within _ containers =>
    containers.getLast?.bind (openFault? fields (1 < containers.length))

def read (fields : List BodyField) : Nat → Json.Reading → Bytes → Except BodyError Json
  | 0, _, _ => .error .malformed
  | fuel + 1, r, bs =>
    match bs.dropWhile Ascii.isBlank with
    | [] => match r.value? with
      | some j => .ok j
      | none => .error .malformed
    | bs =>
      match Json.Token.scan? bs with
      | none => .error .malformed
      | some (token, rest) =>
        match Json.Reading.step token r with
        | none => .error .malformed
        | some r =>
          match readingFault? fields r with
          | some e => .error e
          | none => read fields fuel r rest

def parse (fields : List BodyField) (body : Bytes) : Except BodyError Json :=
  read fields (body.length + 1) (.within .value []) body

end BodyField

end HealthConsensus
