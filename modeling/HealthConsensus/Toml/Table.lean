import HealthConsensus.Settings.Value

namespace HealthConsensus.Toml

inductive Origin where
  | implied
  | dotted
  | defined
deriving DecidableEq, Repr

inductive Node where
  | value (v : SettingValue)
  | table (origin : Origin) (entries : List (String × Node))
  | tables (rows : List (List (String × Node)))
deriving Inhabited

abbrev Entries := List (String × Node)

def lookup (name : String) (es : Entries) : Option Node := (es.find? (·.1 == name)).map (·.2)

def insert (name : String) (node : Node) : Entries → Entries
  | [] => [(name, node)]
  | (k, old) :: rest => if k == name then (k, node) :: rest else (k, old) :: insert name node rest

def addValue (path : List String) (v : SettingValue) (es : Entries) : Option Entries :=
  match path with
  | [] => none
  | [name] => if (lookup name es).isNone then some (insert name (.value v) es) else none
  | name :: rest =>
    match lookup name es with
    | none => (addValue rest v []).map fun inner => insert name (.table .dotted inner) es
    | some (.table .dotted inner) =>
      (addValue rest v inner).map fun inner => insert name (.table .dotted inner) es
    | some (.table .implied inner) =>
      if rest.length = 1 then none
      else (addValue rest v inner).map fun inner => insert name (.table .implied inner) es
    | _ => none

def modify (path : List String) (change : Entries → Option Entries) (es : Entries) :
    Option Entries :=
  match path with
  | [] => change es
  | name :: rest =>
    match lookup name es with
    | none => (modify rest change []).map fun inner => insert name (.table .implied inner) es
    | some (.table origin inner) =>
      (modify rest change inner).map fun inner => insert name (.table origin inner) es
    | some (.tables (row :: rows)) =>
      (modify rest change row).map fun row => insert name (.tables (row :: rows)) es
    | _ => none

def define (name : String) (es : Entries) : Option Entries :=
  match lookup name es with
  | none => some (insert name (.table .defined []) es)
  | some (.table .implied inner) => some (insert name (.table .defined inner) es)
  | _ => none

def append (name : String) (es : Entries) : Option Entries :=
  match lookup name es with
  | none => some (insert name (.tables [[]]) es)
  | some (.tables rows) => some (insert name (.tables ([] :: rows)) es)
  | _ => none

mutual

def Node.toValue : Node → SettingValue
  | .value v => v
  | .table _ es => .table (entriesToValues es)
  | .tables rows => .list (rowsToValues rows)

def entriesToValues : List (String × Node) → List (String × SettingValue)
  | [] => []
  | (k, n) :: rest => (k, n.toValue) :: entriesToValues rest

def rowsToValues : List (List (String × Node)) → List SettingValue
  | [] => []
  | row :: rows => rowsToValues rows ++ [.table (entriesToValues row)]

end

end HealthConsensus.Toml
