import HealthConsensus.Settings.Value
import HealthConsensus.Text.Basic
import HealthConsensus.Toml.Document

namespace HealthConsensus

namespace Environment

def nameStart : String := "gslb__"

def listName : String := "auth.service_tokens"

def dotted : List Char → List Char
  | '_' :: '_' :: rest => '.' :: dotted rest
  | c :: rest => c :: dotted rest
  | [] => []

def settingName? (varName : String) : Option String :=
  let name := Ascii.lower varName
  if nameStart.toList.isPrefixOf name.toList then
    some (String.ofList (dotted (name.toList.drop nameStart.length)))
  else none

def fitsInt64 (n : Int) : Bool := decide (Int64.minValue.toInt ≤ n ∧ n ≤ Int64.maxValue.toInt)

def valueOf (name text : String) : SettingValue :=
  let word := Ascii.lower text
  if word = "true" then .flag true
  else if word = "false" then .flag false
  else
    match (Literal.int? text).filter fitsInt64 with
    | some n => .whole n
    | none =>
      match Literal.float? text with
      | some x => .real x
      | none =>
        if name = listName then
          .list ((splitOn ',' text.toList).map fun part => .text (.ofList part))
        else .text text

end Environment

namespace SettingValue

def isNamePart (cs : List Char) : Bool :=
  !cs.isEmpty && cs.all fun c => c.isAlphanum || c = '_' || c = '-'

def pathOf (name : String) : List String :=
  let parts := splitOn '.' name.toList
  if parts.all isNamePart then parts.map String.ofList else [name]

def setAll (root : SettingValue) (entries : List (String × SettingValue)) : SettingValue :=
  entries.foldl (fun root e => set (pathOf e.1) e.2 root) root

end SettingValue

inductive LoadError where
  | malformed
  | unfit
  | refused (e : Error)
deriving DecidableEq, Repr

namespace LoadError

def message : LoadError → String
  | malformed => "Failed to load config"
  | unfit => "Failed to parse config"
  | refused e => e.message

end LoadError

namespace Settings

def environmentEntries (env : List (String × String)) : List (String × SettingValue) :=
  env.filterMap fun (varName, text) =>
    (Environment.settingName? varName).map fun name => (name, Environment.valueOf name text)

def load (file : Option String) (env : List (String × String)) (overrides : SettingsOverrides) :
    Except LoadError Settings :=
  match (match file with | none => some [] | some text => Toml.parse? text) with
  | none => .error .malformed
  | some entries =>
    let root := ((SettingValue.table []).setAll entries).setAll (environmentEntries env)
    match ofValue? root with
    | none => .error .unfit
    | some settings =>
      let settings := settings.withOverrides overrides
      match settings.validate with
      | .error e => .error (.refused e)
      | .ok () => .ok settings

end Settings

end HealthConsensus
