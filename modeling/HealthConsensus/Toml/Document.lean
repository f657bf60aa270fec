import HealthConsensus.Toml.Scalar
import HealthConsensus.Toml.Table

namespace HealthConsensus.Toml

mutual

def value : Nat → Reader SettingValue
  | 0 => failure
  | fuel + 1 => do
    match ← peek with
    | some '"' => return .text (← string (fuel + 1))
    | some '\'' => return .text (← string (fuel + 1))
    | some '[' =>
      skipChar '['
      return .list (← items fuel)
    | some '\x7b' =>
      skipChar '\x7b'
      skipSpaces
      if (← peek) == some '\x7d' then
        skipChar '\x7d'
        return .table []
      else return .table (entriesToValues (← inlineEntries fuel []))
    | _ => bareValue

def items : Nat → Reader (List SettingValue)
  | 0 => failure
  | fuel + 1 => do
    skipBlankLines (fuel + 1)
    if (← peek) == some ']' then
      skipChar ']'
      return []
    let first ← value fuel
    skipBlankLines (fuel + 1)
    match ← peek with
    | some ',' =>
      skipChar ','
      return first :: (← items fuel)
    | _ =>
      skipChar ']'
      return [first]

def inlineEntries : Nat → Entries → Reader Entries
  | 0, _ => failure
  | fuel + 1, done => do
    skipSpaces
    let path ← key (fuel + 1)
    skipSpaces
    skipChar '='
    skipSpaces
    let v ← value fuel
    let done ← (addValue path v done : Option Entries)
    skipSpaces
    match ← peek with
    | some ',' =>
      skipChar ','
      inlineEntries fuel done
    | _ =>
      skipChar '\x7d'
      return done

end

structure Progress where
  root : Entries
  current : List String

def header (fuel : Nat) (p : Progress) : Reader Progress := do
  let row ← startsWith "[["
  skip (if row then "[[" else "[")
  skipSpaces
  let path ← key fuel
  skipSpaces
  skip (if row then "]]" else "]")
  let change := if row then append else define
  let root ← (modify path.dropLast (change (path.getLastD "")) p.root : Option Entries)
  return ⟨root, path⟩

def keyValue (fuel : Nat) (p : Progress) : Reader Progress := do
  let path ← key fuel
  skipSpaces
  skipChar '='
  skipSpaces
  let v ← value fuel
  let root ← (modify p.current (addValue path v) p.root : Option Entries)
  return ⟨root, p.current⟩

def document : Nat → Progress → Reader Entries
  | 0, _ => failure
  | fuel + 1, p => do
    skipBlankLines (fuel + 1)
    match ← peek with
    | none => return p.root
    | some '[' =>
      let p ← header (fuel + 1) p
      skipLineEnd
      document fuel p
    | some _ =>
      let p ← keyValue (fuel + 1) p
      skipLineEnd
      document fuel p

def withoutByteOrderMark : List Char → List Char
  | '\ufeff' :: cs => cs
  | cs => cs

def parse? (text : String) : Option (List (String × SettingValue)) :=
  let cs := withoutByteOrderMark text.toList
  ((document (cs.length + 1) ⟨[], []⟩).run cs).map fun r => entriesToValues r.1

end HealthConsensus.Toml
