import HealthConsensus.Certificate.Der
import HealthConsensus.Certificate.Pem
import HealthConsensus.Digest.Sha256
import HealthConsensus.Report

namespace HealthConsensus

structure Certificate where
  fingerprint : String
  commonName : Option String
  notBefore : Instant
  notAfter : Instant
deriving DecidableEq, Repr

namespace Certificate

open Der

def fingerprintOf (der : Bytes) : String := Hex.text (Sha256.digest der)

def algorithm? (bs : Bytes) : Option (Unit × Bytes) := do
  let (content, rest) ← tagged? sequence bs
  let _ ← primitive? objectId content
  return ((), rest)

structure Attribute where
  objectId : Bytes
  value : Der.Element

def attribute? (bs : Bytes) : Option (Attribute × Bytes) := do
  let (content, rest) ← tagged? sequence bs
  let (id, more) ← primitive? Der.objectId content
  let (value, _) ← element? more
  return (⟨id, value⟩, rest)

def nameStep? (bs : Bytes) : Option (List Attribute × Bytes) := do
  let (content, rest) ← tagged? set bs
  match (many attribute? content.length content).1 with
  | [] => none
  | attributes => some (attributes, rest)

def name? (bs : Bytes) : Option (List Attribute × Bytes) := do
  let (content, rest) ← tagged? sequence bs
  return ((many nameStep? content.length content).1.flatten, rest)

def commonNameId : Bytes := [0x55, 0x04, 0x03]

def stringTags : List Nat := [utf8String, printableString, numericString, ia5String]

def commonName? (name : List Attribute) : Option String :=
  match name.find? fun a => a.objectId == commonNameId with
  | some a => if stringTags.contains a.value.tag then Bytes.toString? a.value.content else none
  | none => none

def validity? (bs : Bytes) : Option ((Instant × Instant) × Bytes) := do
  let (content, rest) ← tagged? sequence bs
  let (notBefore, more) ← time? content
  let (notAfter, _) ← time? more
  return ((notBefore, notAfter), rest)

def publicKey? (bs : Bytes) : Option (Unit × Bytes) := do
  let (content, rest) ← tagged? sequence bs
  let (_, more) ← algorithm? content
  let _ ← bits? more
  return ((), rest)

def version? (bs : Bytes) : Option (Unit × Bytes) := do
  let (e, rest) ← element? bs
  if e.tagClass = 2 && e.tag = 0 then
    let _ ← uint32? e.content
    return ((), rest)
  else return ((), bs)

def uniqueId? (tag : Nat) (bs : Bytes) : Option (Unit × Bytes) :=
  if bs.isEmpty then some ((), bs)
  else do
    let (e, rest) ← element? bs
    if e.tagClass = 2 && e.tag = tag then some ((), rest) else some ((), bs)

def extension? (bs : Bytes) : Option (Unit × Bytes) := do
  let (content, rest) ← tagged? sequence bs
  let (_, more) ← primitive? Der.objectId content
  let more := match primitive? boolean more with
    | some (_, after) => after
    | none => more
  let _ ← primitive? octetString more
  return ((), rest)

def extensions? (bs : Bytes) : Option Unit :=
  if bs.isEmpty then some ()
  else do
    let (tag, rest) ← tag? bs
    let (_, rest) ← length? rest
    if tag != 3 then none
    let (content, _) ← tagged? sequence rest
    if (many extension? content.length content).2.isEmpty then some () else none

def signedPart? (bs : Bytes) : Option (List Attribute × Instant × Instant) := do
  let (_, bs) ← version? bs
  let (_, bs) ← tagged? integer bs
  let (_, bs) ← algorithm? bs
  let (_, bs) ← name? bs
  let ((notBefore, notAfter), bs) ← validity? bs
  let (subject, bs) ← name? bs
  let (_, bs) ← publicKey? bs
  let (_, bs) ← uniqueId? 1 bs
  let (_, bs) ← uniqueId? 2 bs
  extensions? bs
  return (subject, notBefore, notAfter)

def ofDer? (der : Bytes) : Option Certificate := do
  let (content, _) ← tagged? sequence der
  let (signed, more) ← tagged? sequence content
  let (subject, notBefore, notAfter) ← signedPart? signed
  let (_, more) ← algorithm? more
  let _ ← bits? more
  return ⟨fingerprintOf der, commonName? subject, notBefore, notAfter⟩

def ofPem (pem : String) : Except Error Certificate :=
  match Pem.certificate? pem with
  | none => .error (.invalidCertificate "failed to decode PEM")
  | some der =>
    match ofDer? der with
    | none => .error (.invalidCertificate "failed to parse X.509")
    | some c => .ok c

def isValidAt (c : Certificate) (now : Instant) : Bool := c.notBefore ≤ now && now ≤ c.notAfter

def regionOf (commonName start : String) : String :=
  match Bytes.after? (Bytes.ofString (start ++ "-")) (Bytes.ofString commonName) with
  | some region => (Bytes.toString? region).getD ""
  | none => ""

end Certificate

namespace Fingerprint

def loggedLength : Nat := 16

def logged (fingerprint : String) : String := String.ofList (fingerprint.toList.take loggedLength)

end Fingerprint

end HealthConsensus
