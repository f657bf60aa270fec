import HealthConsensus.Number.Literal
import HealthConsensus.Settings.Value
import HealthConsensus.Time.Instant

namespace HealthConsensus.Toml

abbrev Reader := StateT (List Char) Option

def peek : Reader (Option Char) := fun cs => some (cs.head?, cs)

def skipChar (c : Char) : Reader Unit
  | d :: cs => if c = d then some ((), cs) else none
  | [] => none

def startsWith (word : String) : Reader Bool := fun cs => some (word.toList.isPrefixOf cs, cs)

def skip (word : String) : Reader Unit := fun cs =>
  if word.toList.isPrefixOf cs then some ((), cs.drop word.length) else none

def takeWhile (p : Char → Bool) : Reader (List Char) := fun cs => some (cs.span p)

def isSpace (c : Char) : Bool := c = ' ' || c = '\t'

def skipSpaces : Reader Unit := do let _ ← takeWhile isSpace

def isPrintable (c : Char) : Bool := c = '\t' || (' ' ≤ c && c != '\x7f')

def skipNewline : Reader Unit
  | '\n' :: cs => some ((), cs)
  | '\r' :: '\n' :: cs => some ((), cs)
  | _ => none

def skipComment : Reader Unit := do
  if (← peek) == some '#' then let _ ← takeWhile isPrintable

def skipLineEnd : Reader Unit := do
  skipSpaces
  skipComment
  if (← peek).isSome then skipNewline

def skipBlankLines : Nat → Reader Unit
  | 0 => pure ()
  | fuel + 1 => do
    skipSpaces
    skipComment
    match ← peek with
    | some '\n' => skipNewline; skipBlankLines fuel
    | some '\r' => skipNewline; skipBlankLines fuel
    | _ => pure ()

def hexValue? (cs : List Char) : Option Nat :=
  cs.foldlM (fun n c => (Ascii.hexValue? (Ascii.ofChar c)).bind fun d =>
    if c.toNat < 128 then some (16 * n + d) else none) 0

def codePoint (width : Nat) : Reader Char := fun cs =>
  let ds := cs.take width
  match hexValue? ds with
  | some n =>
    if ds.length = width && n.isValidChar then some (Char.ofNat n, cs.drop width) else none
  | none => none

def escaped : Reader Char := do
  match ← peek with
  | some 'b' => skipChar 'b'; return '\x08'
  | some 't' => skipChar 't'; return '\t'
  | some 'n' => skipChar 'n'; return '\n'
  | some 'f' => skipChar 'f'; return '\x0c'
  | some 'r' => skipChar 'r'; return '\r'
  | some '"' => skipChar '"'; return '"'
  | some '\\' => skipChar '\\'; return '\\'
  | some 'u' => skipChar 'u'; codePoint 4
  | some 'U' => skipChar 'U'; codePoint 8
  | _ => failure

def basicString : Nat → List Char → Reader String
  | 0, _ => failure
  | fuel + 1, done => do
    match ← peek with
    | some '"' => skipChar '"'; return String.ofList done.reverse
    | some '\\' =>
      skipChar '\\'
      let c ← escaped
      basicString fuel (c :: done)
    | some c =>
      skipChar c
      if isPrintable c then basicString fuel (c :: done) else failure
    | none => failure

def literalString : Reader String := do
  let text ← takeWhile fun c => c != '\'' && isPrintable c
  skipChar '\''
  return String.ofList text

def closing (quote : Char) (done : List Char) : Reader (Option (List Char)) := fun cs =>
  let quotes := (cs.takeWhile (· = quote)).length
  if quotes < 3 then some (none, cs)
  else if quotes ≤ 5 then
    some (some (List.replicate (quotes - 3) quote ++ done), cs.drop quotes)
  else none

def skipFold : Reader Unit := do
  skipSpaces
  skipNewline
  let _ ← takeWhile fun c => isSpace c || c = '\n' || c = '\r'

def longBasicString : Nat → List Char → Reader String
  | 0, _ => failure
  | fuel + 1, done => do
    match ← closing '"' done with
    | some done => return String.ofList done.reverse
    | none =>
      match ← peek with
      | some '\\' =>
        skipChar '\\'
        match ← peek with
        | some c =>
          if isSpace c || c = '\n' || c = '\r' then
            skipFold
            longBasicString fuel done
          else
            let c ← escaped
            longBasicString fuel (c :: done)
        | none => failure
      | some '\r' => skipNewline; longBasicString fuel ('\n' :: '\r' :: done)
      | some c =>
        skipChar c
        if isPrintable c || c = '\n' then longBasicString fuel (c :: done) else failure
      | none => failure

def longLiteralString : Nat → List Char → Reader String
  | 0, _ => failure
  | fuel + 1, done => do
    match ← closing '\'' done with
    | some done => return String.ofList done.reverse
    | none =>
      match ← peek with
      | some '\r' => skipNewline; longLiteralString fuel ('\n' :: '\r' :: done)
      | some c =>
        skipChar c
        if isPrintable c || c = '\n' then longLiteralString fuel (c :: done) else failure
      | none => failure

def skipFirstNewline : Reader Unit := do
  match ← peek with
  | some '\n' => skipNewline
  | some '\r' => skipNewline
  | _ => pure ()

def string (fuel : Nat) : Reader String := do
  if ← startsWith "\"\"\"" then
    skip "\"\"\""
    skipFirstNewline
    longBasicString fuel []
  else if ← startsWith "'''" then
    skip "'''"
    skipFirstNewline
    longLiteralString fuel []
  else if ← startsWith "\"" then
    skipChar '"'
    basicString fuel []
  else
    skipChar '\''
    literalString

def isBare (c : Char) : Bool :=
  c.isAlphanum || c = '_' || c = '-'

def simpleKey (fuel : Nat) : Reader String := do
  match ← peek with
  | some '"' => skipChar '"'; basicString fuel []
  | some '\'' => skipChar '\''; literalString
  | _ =>
    match ← takeWhile isBare with
    | [] => failure
    | cs => return String.ofList cs

def key : Nat → Reader (List String)
  | 0 => failure
  | fuel + 1 => do
    let first ← simpleKey (fuel + 1)
    skipSpaces
    if (← peek) == some '.' then
      skipChar '.'
      skipSpaces
      let rest ← key fuel
      return first :: rest
    else return [first]

def grouped? (isDigit : Char → Bool) : List Char → Option (List Char)
  | [] => none
  | [c] => if isDigit c then some [c] else none
  | c :: '_' :: rest =>
    if isDigit c then (grouped? isDigit rest).map (c :: ·) else none
  | c :: rest => if isDigit c then (grouped? isDigit rest).map (c :: ·) else none

def digitOfRadix (radix : Nat) (c : Char) : Bool :=
  match hexValue? [c] with
  | some d => d < radix
  | none => false

def valueOfRadix (radix : Nat) (cs : List Char) : Nat :=
  cs.foldl (fun n c => n * radix + (hexValue? [c]).getD 0) 0

def wholeDigits? (cs : List Char) : Option (List Char) :=
  match grouped? Char.isDigit cs with
  | some ('0' :: _ :: _) => none
  | found => found

def whole? (n : Int) : Option SettingValue :=
  if Int64.minValue.toInt ≤ n ∧ n ≤ Int64.maxValue.toInt then some (.whole n) else none

def radix? (radix : Nat) (cs : List Char) : Option SettingValue :=
  (grouped? (digitOfRadix radix) cs).bind fun ds => whole? (valueOfRadix radix ds)

def asciiBytes (cs : List Char) : Bytes := cs.map Ascii.ofChar

def real? (negative : Bool) (cs : List Char) : Option SettingValue := do
  let whole ← wholeDigits? (cs.takeWhile fun c => c.isDigit || c = '_')
  let rest := cs.dropWhile fun c => c.isDigit || c = '_'
  let (fraction, rest) ← match rest with
    | '.' :: rest =>
      (grouped? Char.isDigit (rest.takeWhile fun c => c.isDigit || c = '_')).map
        (·, rest.dropWhile fun c => c.isDigit || c = '_')
    | rest => some ([], rest)
  let exponent ← match rest with
    | [] => if fraction.isEmpty then none else some 0
    | mark :: rest =>
      if mark = 'e' || mark = 'E' then
        let (minus, ds) := Literal.sign (asciiBytes rest)
        let text := if ds.length < rest.length then rest.drop 1 else rest
        (grouped? Char.isDigit text).map fun ds =>
          let n : Int := Ascii.natValue (asciiBytes ds)
          if minus then -n else n
      else none
  let digits := Ascii.natValue (asciiBytes (whole ++ fraction))
  let x : Decimal := ⟨negative, digits, exponent - fraction.length⟩
  (x.toFloat?).map .real

def number? (cs : List Char) : Option SettingValue :=
  let (negative, rest) := match cs with
    | '+' :: rest => (false, rest)
    | '-' :: rest => (true, rest)
    | rest => (false, rest)
  match rest with
  | ['i', 'n', 'f'] => some (.real (Literal.infinity negative))
  | ['n', 'a', 'n'] => some (.real (0.0 / 0.0))
  | '0' :: 'x' :: ds => if rest.length = cs.length then radix? 16 ds else none
  | '0' :: 'o' :: ds => if rest.length = cs.length then radix? 8 ds else none
  | '0' :: 'b' :: ds => if rest.length = cs.length then radix? 2 ds else none
  | _ =>
    match wholeDigits? rest with
    | some ds =>
      let n : Int := valueOfRadix 10 ds
      whole? (if negative then -n else n)
    | none => real? negative rest

def digits? (width : Nat) (cs : List Char) : Option (Nat × List Char) :=
  let ds := cs.take width
  if ds.length = width && ds.all Char.isDigit then some (valueOfRadix 10 ds, cs.drop width)
  else none

def after? (c : Char) : List Char → Option (List Char)
  | d :: cs => if c = d then some cs else none
  | [] => none

def date? (cs : List Char) : Option (List Char) := do
  let (year, cs) ← digits? 4 cs
  let (month, cs) ← digits? 2 (← after? '-' cs)
  let (day, cs) ← digits? 2 (← after? '-' cs)
  let date : Calendar.Date := ⟨year, month, day⟩
  if date.isValid then some cs else none

def fraction? : List Char → Option (List Char × List Char)
  | '.' :: cs =>
    match cs.takeWhile Char.isDigit with
    | [] => none
    | ds =>
      let kept := ((ds.take 9).reverse.dropWhile (· = '0')).reverse
      some (if kept.isEmpty then [] else '.' :: kept, cs.drop ds.length)
  | cs => some ([], cs)

def clock? (cs : List Char) : Option (List Char × List Char) := do
  let (hour, rest) ← digits? 2 cs
  let (minute, rest) ← digits? 2 (← after? ':' rest)
  let (second, rest) ← digits? 2 (← after? ':' rest)
  if 23 < hour || 59 < minute || 60 < second then none
  let (fraction, rest) ← fraction? rest
  return (cs.take 8 ++ fraction, rest)

def offset? : List Char → Option (List Char × List Char)
  | 'Z' :: cs => some (['Z'], cs)
  | 'z' :: cs => some (['Z'], cs)
  | sign :: cs =>
    if sign = '+' || sign = '-' then do
      let (hours, rest) ← digits? 2 cs
      let (minutes, rest) ← digits? 2 (← after? ':' rest)
      if 23 < hours || 59 < minutes then none
      let mark := if hours = 0 && minutes = 0 then '+' else sign
      return (mark :: cs.take 5, rest)
    else some ([], sign :: cs)
  | [] => some ([], [])

def moment? (cs : List Char) : Option (List Char × List Char) :=
  match date? cs with
  | none => clock? cs
  | some rest =>
    let day := cs.take 10
    match rest with
    | mark :: next =>
      if mark = 'T' || mark = 't' || (mark = ' ' && (digits? 2 next).isSome) then do
        let (clock, rest) ← clock? next
        let (zone, rest) ← offset? rest
        return (day ++ 'T' :: clock ++ zone, rest)
      else some (day, rest)
    | [] => some (day, [])

def isNumeric (c : Char) : Bool := c.isAlphanum || c = '+' || c = '-' || c = '_' || c = '.'

def isDateLike (cs : List Char) : Bool :=
  (digits? 4 cs).any (fun r => r.2.head? == some '-')
    || (digits? 2 cs).any (fun r => r.2.head? == some ':')

def bareValue : Reader SettingValue := fun cs =>
  if isDateLike cs then
    (moment? cs).map fun (text, rest) => (.text (String.ofList text), rest)
  else
    let (word, rest) := cs.span isNumeric
    if word = ['t', 'r', 'u', 'e'] then some (.flag true, rest)
    else if word = ['f', 'a', 'l', 's', 'e'] then some (.flag false, rest)
    else (number? word).map (·, rest)

end HealthConsensus.Toml
