import HealthConsensus.Text.Bytes

namespace HealthConsensus.Glob

inductive ClassItem where
  | one (b : UInt8)
  | range (low high : UInt8)
deriving DecidableEq, Repr

inductive Piece where
  | anyRun
  | anyByte
  | literal (b : UInt8)
  | inClass (negated : Bool) (items : List ClassItem)
deriving DecidableEq, Repr

namespace ClassItem

def holds (b : UInt8) : ClassItem → Bool
  | one c => b == c
  | range low high => (low ≤ b && b ≤ high) || (high ≤ b && b ≤ low)

end ClassItem

def classItems : Nat → Bytes → List ClassItem × Bytes
  | 0, bs => ([], bs)
  | _, [] => ([], [])
  | fuel + 1, b :: bs =>
    if b == 93 then ([], bs)
    else
      let (item, rest) : ClassItem × Bytes :=
        match b, bs with
        | 92, c :: rest => (.one c, rest)
        | low, 45 :: high :: rest => (.range low high, rest)
        | c, rest => (.one c, rest)
      let (items, rest) := classItems fuel rest
      (item :: items, rest)

def pieces : Nat → Bytes → List Piece
  | 0, _ => []
  | _, [] => []
  | fuel + 1, b :: bs =>
    if b == 42 then .anyRun :: pieces fuel bs
    else if b == 63 then .anyByte :: pieces fuel bs
    else if b == 91 then
      let (negated, bs) : Bool × Bytes := match bs with
        | 94 :: rest => (true, rest)
        | rest => (false, rest)
      let (items, rest) := classItems fuel bs
      .inClass negated items :: pieces fuel rest
    else
      match b, bs with
      | 92, c :: rest => .literal c :: pieces fuel rest
      | c, rest => .literal c :: pieces fuel rest

def parse (pattern : Bytes) : List Piece := pieces pattern.length pattern

namespace Piece

def takes (b : UInt8) : Piece → Bool
  | anyRun => false
  | anyByte => true
  | literal c => b == c
  | inClass negated items => (items.any (ClassItem.holds b)) != negated

end Piece

def anyEnd (test : Bytes → Bool) : Bytes → Bool
  | [] => test []
  | b :: bs => test (b :: bs) || anyEnd test bs

def covers : List Piece → Bytes → Bool
  | [], bs => bs.isEmpty
  | .anyRun :: ps, bs => anyEnd (covers ps) bs
  | _ :: _, [] => false
  | p :: ps, b :: bs => p.takes b && covers ps bs

def isMatch (pattern text : Bytes) : Bool := covers (parse pattern) text

def specials : List Char := ['*', '?', '[', ']', '\\']

def escapeChar (c : Char) : List Char := if specials.contains c then ['\\', c] else [c]

def ofStart (start : String) : String :=
  String.ofList (start.toList.flatMap escapeChar ++ ['*'])

end HealthConsensus.Glob
