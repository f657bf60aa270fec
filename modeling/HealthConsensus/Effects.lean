import HealthConsensus.Report
import HealthConsensus.Store.Keeper
import HealthConsensus.Table

namespace HealthConsensus

structure Effects where
  changes : List StatusChange
  writes : List RecordWrite
  log : List LogLine

namespace Effects

def none : Effects := ⟨[], [], []⟩

def append (a b : Effects) : Effects :=
  ⟨a.changes ++ b.changes, a.writes ++ b.writes, a.log ++ b.log⟩

instance : Append Effects := ⟨append⟩

instance : Inhabited Effects := ⟨none⟩

def concat (es : List Effects) : Effects := es.foldr append none

@[simp] theorem changes_append (a b : Effects) : (a ++ b).changes = a.changes ++ b.changes := rfl

@[simp] theorem writes_append (a b : Effects) : (a ++ b).writes = a.writes ++ b.writes := rfl

@[simp] theorem log_append (a b : Effects) : (a ++ b).log = a.log ++ b.log := rfl

end Effects

structure Outcome (σ α : Type) where
  result : α
  state : σ
  effects : Effects

/-- An operation has in view what takes its records, and leaves it as it is by then. Applied to a
state alone, it is performed without a store. -/
structure Operation (σ α : Type) where
  under : (stored : Bool) → Keep stored → σ → Outcome σ α × Keep stored

namespace Operation

variable {σ τ α β : Type}

def unstored (a : Operation σ α) (s : σ) : Outcome σ α := (a.under false () s).1

instance : CoeFun (Operation σ α) fun _ => σ → Outcome σ α := ⟨unstored⟩

def done (x : α) : Operation σ α := ⟨fun _ k s => (⟨x, s, .none⟩, k)⟩

def andThen (a : Operation σ α) (f : α → Operation σ β) : Operation σ β := ⟨fun stored k s =>
  let first := a.under stored k s
  let second := (f first.1.result).under stored first.2 first.1.state
  (⟨second.1.result, second.1.state, first.1.effects ++ second.1.effects⟩, second.2)⟩

instance : Monad (Operation σ) where
  pure := done
  bind := andThen

def state : Operation σ σ := ⟨fun _ k s => (⟨s, s, .none⟩, k)⟩

def modify (f : σ → σ) : Operation σ Unit := ⟨fun _ k s => (⟨(), f s, .none⟩, k)⟩

def effect (e : Effects) : Operation σ Unit :=
  ⟨fun _ k s => (⟨(), s, e⟩, k.takeAll e.writes)⟩

def log (l : LogLine) : Operation σ Unit := effect ⟨[], [], [l]⟩

def write (w : RecordWrite) : Operation σ Unit := effect ⟨[], [w], []⟩

def announce (c : StatusChange) : Operation σ Unit := effect ⟨[c], [], []⟩

def on (part : τ → σ) (replace : σ → τ → τ) (a : Operation σ α) : Operation τ α :=
  ⟨fun stored k t =>
    let o := a.under stored k (part t)
    (⟨o.1.result, replace o.1.state t, o.1.effects⟩, o.2)⟩

def announced (a : Operation σ α) : Operation σ (List StatusChange) := ⟨fun stored k s =>
  let o := a.under stored k s
  (⟨o.1.effects.changes, o.1.state, o.1.effects⟩, o.2)⟩

def forEach (xs : List β) (f : β → Operation σ Unit) : Operation σ Unit :=
  match xs with
  | [] => done ()
  | x :: xs => (f x).andThen fun () => forEach xs f

end Operation

/-- How records of one kind are taken from a listing: what each is read as, the key to find it by,
the line for one that cannot be read and the line at the end. -/
structure Loader (κ ν : Type) where
  key : ν → κ
  read? : Bytes → Option ν
  skipping : String
  loaded : String

namespace Loader

open Operation

variable {κ ν : Type} [DecidableEq κ] (l : Loader κ ν)

def take (record : String × Bytes) : Operation (Table κ ν) Unit :=
  match l.read? record.2 with
  | some v => modify (Table.set (l.key v) v)
  | none => log (.warn l.skipping [("key", record.1)])

def readable (records : List (String × Bytes)) : List ν := records.filterMap fun e => l.read? e.2

def load (listing : Option (Except Error (List (String × Bytes)))) :
    Operation (Table κ ν) (Except Error Nat) := do
  match listing with
  | none => return .ok 0
  | some (.error e) => return .error e
  | some (.ok records) =>
    forEach records l.take
    let count := (l.readable records).length
    log (.info l.loaded [("count", toString count)])
    return .ok count

end Loader

end HealthConsensus
