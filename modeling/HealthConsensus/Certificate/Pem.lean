import HealthConsensus.Text.Base64

namespace HealthConsensus.Pem

def linesOnto (line : Bytes) : Bytes → List Bytes
  | [] => if line.isEmpty then [] else [line.reverse]
  | b :: rest =>
    if b == 10 || b == 13 then line.reverse :: linesOnto [] rest else linesOnto (b :: line) rest

def lines (bs : Bytes) : List Bytes := linesOnto [] bs

def beginMark : Bytes := Bytes.ofString "-----BEGIN "

def endMark (label : Bytes) : Bytes :=
  Bytes.ofString "-----END " ++ label ++ Bytes.ofString "-----"

def knownLabels : List Bytes :=
  ["CERTIFICATE", "PUBLIC KEY", "RSA PRIVATE KEY", "PRIVATE KEY", "EC PRIVATE KEY", "X509 CRL",
    "CERTIFICATE REQUEST", "ECHCONFIG"].map Bytes.ofString

def label? (afterBegin : Bytes) : Option Bytes :=
  let trailer := afterBegin.reverse.takeWhile fun b => b == 45 || b == 32
  if trailer.count 45 = 5 then
    let tail := (trailer.reverse.dropWhile (· == 32)).length
    some (afterBegin.take (afterBegin.length - tail))
  else none

def isSpace (b : UInt8) : Bool := (9 ≤ b && b ≤ 13) || b == 32

def content? (text : Bytes) : Option Bytes :=
  Base64.decode? false (text.filter fun b => !isSpace b)

def sectionFrom (wanted : Bytes) : List Bytes → Option Bytes → Bytes → Option Bytes
  | [], _, _ => none
  | line :: rest, label, text =>
    match Bytes.after? beginMark line, label with
    | some start, _ =>
      match label? start with
      | some label => sectionFrom wanted rest (some label) text
      | none => none
    | none, none => sectionFrom wanted rest none text
    | none, some label =>
      if (Bytes.after? (endMark label) line).isNone then
        sectionFrom wanted rest (some label) (text ++ line)
      else if knownLabels.contains label then
        match content? text with
        | none => none
        | some content =>
          if label = wanted then some content else sectionFrom wanted rest none []
      else sectionFrom wanted rest none []

def certificate? (text : String) : Option Bytes :=
  sectionFrom (Bytes.ofString "CERTIFICATE") (lines (Bytes.ofString text)) none []

end HealthConsensus.Pem
