import HealthConsensus.Backend.Record
import HealthConsensus.Pin.Basic
import HealthConsensus.Store.WriteQueue

namespace HealthConsensus

inductive RecordWrite where
  | putBackend (b : Backend)
  | dropBackend (k : BackendKey)
  | putPin (p : Pin)
  | dropPin (agentId : String)

namespace RecordWrite

def storeWrite : RecordWrite → StoreWrite
  | putBackend b => .put b.key.storeKey b.toJson.text
  | dropBackend k => .delete k.storeKey
  | putPin p => .put (Pin.storeKey p.agentId) p.toJson.text
  | dropPin agentId => .delete (Pin.storeKey agentId)

def isOfPin : RecordWrite → Bool
  | putPin _ => true
  | dropPin _ => true
  | _ => false

end RecordWrite

structure Archive where
  storage : Storage
  backendWrites : WriteQueue
  pinWrites : WriteQueue

def Archive.queue (w : RecordWrite) (a : Archive) : Archive × List LogLine :=
  if w.isOfPin then
    let (q, log) := a.pinWrites.enqueue w.storeWrite
    ({ a with pinWrites := q }, log)
  else
    let (q, log) := a.backendWrites.enqueue w.storeWrite
    ({ a with backendWrites := q }, log)

/-- Queues the records that operations want written, while the store and its writers go on:
`meanwhile` is what they do before each of the records to come. -/
structure Keeper where
  archive : Archive
  log : List LogLine
  meanwhile : Nat → Archive → Archive

namespace Keeper

def undisturbed : Nat → Archive → Archive := fun _ archive => archive

def take (k : Keeper) (w : RecordWrite) : Keeper :=
  let (archive, log) := (k.meanwhile 0 k.archive).queue w
  ⟨archive, k.log ++ log, fun i => k.meanwhile (i + 1)⟩

def takeAll (ws : List RecordWrite) (k : Keeper) : Keeper := ws.foldl take k

end Keeper

/-- What an operation has at hand to persist records: a keeper, or nothing without a store. -/
def Keep : Bool → Type
  | false => Unit
  | true => Keeper

def Keep.takeAll (ws : List RecordWrite) : {stored : Bool} → Keep stored → Keep stored
  | false, k => k
  | true, k => Keeper.takeAll ws k

end HealthConsensus
