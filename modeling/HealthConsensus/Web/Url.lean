import HealthConsensus.Web.Host

namespace HealthConsensus

structure Url where
  scheme : List Char
  host : Host
  port : Option Nat
  path : List (List Char)
  query : Option (List Char)
  fragment : Option (List Char)
deriving DecidableEq, Repr

namespace Url

def isSchemeChar (c : Char) : Bool := c.isAlphanum || c = '+' || c = '-' || c = '.'

def scheme? (cs : List Char) : Option (List Char × List Char) :=
  let word := cs.takeWhile isSchemeChar
  match word, cs.drop word.length with
  | c :: _, ':' :: rest => if c.isAlpha then some (word.map Char.toLower, rest) else none
  | _, _ => none

def usualPort? (scheme : List Char) : Option Nat :=
  match String.ofList scheme with
  | "http" => some 80
  | "ws" => some 80
  | "https" => some 443
  | "wss" => some 443
  | "ftp" => some 21
  | _ => none

def isEscaped (chars : List Char) (c : Char) : Bool :=
  c.toNat ≤ 0x20 || 0x7F ≤ c.toNat || chars.contains c

def pathChars : List Char := ['"', '#', '<', '>', '?', '`', '\x7b', '\x7d']

def queryChars : List Char := ['"', '#', '<', '>', '\'']

def fragmentChars : List Char := ['"', '<', '>', '`']

def isSeparator (c : Char) : Bool := c = '/' || c = '\\'

def steps (cs : List Char) : List (List Char) :=
  splitOn '/' (cs.map fun c => if isSeparator c then '/' else c)

def dots (step : List Char) : List Char :=
  let small := String.ofList (step.map Char.toLower)
  (small.replace "%2e" ".").toList

def follow (done : List (List Char)) : List (List Char) → List (List Char)
  | [] => done.reverse
  | step :: rest =>
    let last := rest.isEmpty
    if dots step = ['.'] then follow (if last then [] :: done else done) rest
    else if dots step = ['.', '.'] then
      follow (if last then [] :: done.drop 1 else done.drop 1) rest
    else follow (Percent.encode (isEscaped pathChars) step :: done) rest

def pathOf (cs : List Char) : List (List Char) :=
  match cs with
  | [] => [[]]
  | _ :: rest => follow [] (steps rest)

def cut (at' : Char) (cs : List Char) : List Char × Option (List Char) :=
  match cs.dropWhile (· ≠ at') with
  | [] => (cs, none)
  | _ :: rest => (cs.takeWhile (· ≠ at'), some rest)

def afterUser (cs : List Char) : List Char := (cs.reverse.takeWhile (· ≠ '@')).reverse

def hostAndPort (cs : List Char) : List Char × List Char :=
  let tail := cs.reverse.takeWhile fun c => c.isDigit
  match cs.reverse.drop tail.length with
  | ':' :: rest => (rest.reverse, tail.reverse)
  | _ => (cs, [])

def port? (scheme digits : List Char) : Option (Option Nat) :=
  match digits with
  | [] => some none
  | _ => do
    let n ← Host.valueIn? 10 digits
    if 65535 < n || scheme = ['f', 'i', 'l', 'e'] then none
    else some (if usualPort? scheme = some n then none else some n)

def clean (cs : List Char) : List Char :=
  let isEdge (c : Char) : Bool := c.toNat ≤ 0x20
  let inner := ((cs.dropWhile isEdge).reverse.dropWhile isEdge).reverse
  inner.filter fun c => c ≠ '\t' && c ≠ '\n' && c ≠ '\r'

def ofText? (text : String) : Option Url := do
  let (scheme, rest) ← scheme? (clean text.toList)
  let (rest, fragment) := cut '#' rest
  let (rest, query) := cut '?' rest
  let rest := rest.dropWhile isSeparator
  let authority := rest.takeWhile fun c => !isSeparator c
  let (host, digits) := hostAndPort (afterUser authority)
  let host ← Host.ofText? host
  let port ← port? scheme digits
  return {
    scheme, host, port
    path := pathOf (rest.drop authority.length)
    query := query.map (Percent.encode (isEscaped queryChars))
    fragment := fragment.map (Percent.encode (isEscaped fragmentChars)) }

def isWeb (u : Url) : Bool :=
  u.scheme = ['h', 't', 't', 'p'] || u.scheme = ['h', 't', 't', 'p', 's']

def partText (sign : Char) : Option (List Char) → List Char
  | none => []
  | some cs => sign :: cs

def text (u : Url) : String :=
  String.ofList (u.scheme ++ ':' :: '/' :: '/' :: u.host.text
    ++ partText ':' (u.port.map (Nat.toDigits 10))
    ++ u.path.flatMap ('/' :: ·) ++ partText '?' u.query ++ partText '#' u.fragment)

end Url

end HealthConsensus
