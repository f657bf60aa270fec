import HealthConsensus.Report
import HealthConsensus.Store.Contents

namespace HealthConsensus

inductive StoreEvent where
  | put (key : String) (value : Bytes)
  | delete (key : String)
deriving DecidableEq, Repr

def StoreEvent.key : StoreEvent → String
  | put key _ => key
  | delete key => key

structure MemoryStore where
  contents : Contents
  isOpen : Bool

structure StoreOutcome (α : Type) where
  result : Except Error α
  store : MemoryStore
  events : List StoreEvent

namespace MemoryStore

def empty : MemoryStore := ⟨.empty, true⟩

instance : Inhabited MemoryStore := ⟨empty⟩

def kind : String := "memory"

def closedError : Error := .store "store closed"

def read {α : Type} (answer : Contents → α) (s : MemoryStore) : StoreOutcome α :=
  if s.isOpen then ⟨.ok (answer s.contents), s, []⟩ else ⟨.error closedError, s, []⟩

def get (k : String) (s : MemoryStore) : StoreOutcome (Option Bytes) := s.read (Contents.get? k)

def list (start : String) (s : MemoryStore) : StoreOutcome (List (String × Bytes)) :=
  s.read (Contents.under start)

def set (k : String) (v : Bytes) (s : MemoryStore) : StoreOutcome Unit :=
  if s.isOpen then ⟨.ok (), { s with contents := s.contents.set k v }, [.put k v]⟩
  else ⟨.error closedError, s, []⟩

def delete (k : String) (s : MemoryStore) : StoreOutcome Unit :=
  if s.isOpen then
    ⟨.ok (), { s with contents := s.contents.erase k },
      if (s.contents.get? k).isSome then [.delete k] else []⟩
  else ⟨.error closedError, s, []⟩

def close (s : MemoryStore) : MemoryStore := { s with isOpen := false }

end MemoryStore

structure Watcher where
  start : String
  ended : Bool

inductive Notice where
  | event (e : StoreEvent)
  | ended
deriving DecidableEq, Repr

abbrev Watchers := List Watcher

namespace Watcher

def hears (w : Watcher) (e : StoreEvent) : Bool := startsWith w.start e.key

def finish (w : Watcher) : Watcher := { w with ended := true }

def notices (events : List StoreEvent) (w : Watcher) : List Notice :=
  if w.ended then [.ended] else (events.filter w.hears).map .event

end Watcher

namespace Watchers

def watch (isOpen : Bool) (start : String) (ws : Watchers) : Except Error Nat × Watchers :=
  if isOpen then (.ok ws.length, ws ++ [⟨start, false⟩])
  else (.error MemoryStore.closedError, ws)

def unwatch (i : Nat) (ws : Watchers) : Watchers := ws.modify i Watcher.finish

def close (ws : Watchers) : Watchers := ws.map Watcher.finish

def notices (events : List StoreEvent) (ws : Watchers) : List (Nat × Notice) :=
  ws.zipIdx.flatMap fun (w, i) => (w.notices events).map (i, ·)

end Watchers

end HealthConsensus
