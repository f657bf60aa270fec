import HealthConsensus.Store.Memory
import HealthConsensus.Time.Duration

namespace HealthConsensus

inductive StoreWrite where
  | put (key : String) (value : Bytes)
  | delete (key : String)
deriving DecidableEq, Repr

def StoreWrite.key : StoreWrite → String
  | put key _ => key
  | delete key => key

inductive Storage where
  | absent
  | memory (s : MemoryStore)
  | hanging

namespace Storage

def timeLimit : Duration := .ofSeconds 5

def timeoutError (limit : Duration) : Error :=
  .store ("store operation timed out after " ++ limit.text)

def kind : Storage → String
  | hanging => "hanging"
  | _ => MemoryStore.kind

def isReachable : Storage → Bool
  | memory s => s.isOpen
  | _ => true

def isPresent : Storage → Bool
  | absent => false
  | _ => true

def list? (start : String) : Storage → Option (Except Error (List (String × Bytes)))
  | absent => none
  | memory s => some (s.list start).result
  | hanging => some (.error (timeoutError timeLimit))

def apply (limit : Duration) (w : StoreWrite) :
    Storage → Except Error Unit × Storage × List StoreEvent
  | absent => (.ok (), absent, [])
  | memory s =>
    let o := match w with
      | .put k v => s.set k v
      | .delete k => s.delete k
    (o.result, memory o.store, o.events)
  | hanging => (.error (timeoutError limit), hanging, [])

end Storage

end HealthConsensus
