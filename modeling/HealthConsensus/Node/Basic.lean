import HealthConsensus.Admission.Basic
import HealthConsensus.Gossip.Handler
import HealthConsensus.Registry.Basic

/-!
A node: what it knows, and the records it keeps of that. Operations never wait for the store; the
writes they want are queued, those of backends apart from those of pins.
-/

namespace HealthConsensus

structure Node where
  settings : Settings
  state : NodeState
  storage : Storage
  backendWrites : WriteQueue
  pinWrites : WriteQueue

structure Observed where
  changes : List StatusChange
  events : List StoreEvent
  log : List LogLine

namespace Observed

def nothing : Observed := ⟨[], [], []⟩

def append (a b : Observed) : Observed :=
  ⟨a.changes ++ b.changes, a.events ++ b.events, a.log ++ b.log⟩

instance : Append Observed := ⟨append⟩

end Observed

namespace Node

def policy (n : Node) : NodePolicy := n.settings.policy

def archive (n : Node) : Archive := ⟨n.storage, n.backendWrites, n.pinWrites⟩

def performAmid {α : Type} (meanwhile : Nat → Archive → Archive) (a : Operation NodeState α)
    (n : Node) : α × Node × Observed :=
  if n.storage.isPresent then
    let (o, k) := a.under true ⟨n.archive, [], meanwhile⟩ n.state
    (o.result,
      { n with
        state := o.state
        storage := k.archive.storage
        backendWrites := k.archive.backendWrites
        pinWrites := k.archive.pinWrites },
      ⟨o.effects.changes, [], o.effects.log ++ k.log⟩)
  else
    let o := a n.state
    (o.result, { n with state := o.state }, ⟨o.effects.changes, [], o.effects.log⟩)

def perform {α : Type} (a : Operation NodeState α) (n : Node) : α × Node × Observed :=
  n.performAmid Keeper.undisturbed a

def flush (n : Node) : Node × Observed :=
  let backends := n.backendWrites.drain Storage.timeLimit n.storage
  let pins := n.pinWrites.drain Storage.timeLimit backends.storage
  ({ n with
      storage := pins.storage
      backendWrites := n.backendWrites.emptied
      pinWrites := n.pinWrites.emptied },
    ⟨[], backends.events ++ pins.events, backends.log ++ pins.log⟩)

def loadBackends (now : Instant) (n : Node) : Operation NodeState (Except Error Nat) :=
  NodeState.onRegistry
    (Registry.load n.policy.registry now (n.storage.list? BackendKey.storeFolder))

def loadPins (n : Node) : Operation NodeState (Except Error Nat) :=
  NodeState.onPins (Pins.load (n.storage.list? Pin.storeFolder))

inductive StartError where
  | backends (e : Error)
  | pins (e : Error)
deriving DecidableEq, Repr

def StartError.message : StartError → String
  | backends _ => "Failed to load backends"
  | pins _ => "Failed to load pinned certificates"

def fresh (settings : Settings) (storage : Storage) : Node :=
  ⟨settings, default, storage, default, default⟩

def startupLog (settings : Settings) : List LogLine := settings.auth.policy.startupLog

def start (settings : Settings) (storage : Storage) (now : Instant) :
    Except StartError Node × List LogLine :=
  let n := fresh settings storage
  match n.perform (n.loadBackends now) with
  | (.error e, _, seen) => (.error (.backends e), startupLog settings ++ seen.log)
  | (.ok _, n, backendsSeen) =>
    match n.perform n.loadPins with
    | (.error e, _, seen) =>
      (.error (.pins e), startupLog settings ++ backendsSeen.log ++ seen.log)
    | (.ok _, n, seen) => (.ok n, startupLog settings ++ backendsSeen.log ++ seen.log)

end Node

end HealthConsensus
