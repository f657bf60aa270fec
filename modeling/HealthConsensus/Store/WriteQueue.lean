import HealthConsensus.Report
import HealthConsensus.Store.Storage

/-!
Writing behind: callers put changes into a bounded queue and never wait for the store, and a writer
makes them in their order. A caller may ask to be told when all changes before its request are made.
-/

namespace HealthConsensus

inductive Pending where
  | write (w : StoreWrite)
  | marker (caller : Nat)
deriving DecidableEq, Repr

structure WriteQueue where
  capacity : Nat
  pending : List Pending
  waiting : List Nat
  capacity_pos : 0 < capacity
  length_le : pending.length ≤ capacity
  waiting_full : waiting ≠ [] → pending.length = capacity

namespace WriteQueue

def nodeCapacity : Nat := 4096

def empty (capacity : Nat) : WriteQueue where
  capacity := max capacity 1
  pending := []
  waiting := []
  capacity_pos := by omega
  length_le := by simp
  waiting_full := fun h => absurd rfl h

instance : Inhabited WriteQueue := ⟨empty nodeCapacity⟩

def dropped (w : StoreWrite) : LogLine :=
  .warn "Persistence queue full, dropping write" [("key", w.key)]

def enqueue (w : StoreWrite) (q : WriteQueue) : WriteQueue × List LogLine :=
  if h : q.pending.length < q.capacity then
    ({ q with
        pending := q.pending ++ [.write w]
        length_le := by rw [List.length_append]; exact h
        waiting_full := fun hw => absurd (q.waiting_full hw) (Nat.ne_of_lt h) }, [])
  else (q, [dropped w])

def flush (caller : Nat) (q : WriteQueue) : WriteQueue :=
  if h : q.pending.length < q.capacity then
    { q with
      pending := q.pending ++ [.marker caller]
      length_le := by rw [List.length_append]; exact h
      waiting_full := fun hw => absurd (q.waiting_full hw) (Nat.ne_of_lt h) }
  else
    { q with
      waiting := q.waiting ++ [caller]
      waiting_full := fun _ => Nat.le_antisymm q.length_le (Nat.le_of_not_lt h) }

def next? (q : WriteQueue) : Option (Pending × WriteQueue) :=
  match hp : q.pending with
  | [] => none
  | p :: rest =>
    have bound : rest.length + 1 ≤ q.capacity := by simpa [hp] using q.length_le
    match hw : q.waiting with
    | [] =>
      some (p, { q with
        pending := rest
        waiting := []
        length_le := by omega
        waiting_full := fun h => absurd rfl h })
    | caller :: callers =>
      some (p, { q with
        pending := rest ++ [.marker caller]
        waiting := callers
        length_le := by simpa using bound
        waiting_full := fun _ => by
          have := q.waiting_full (by simp [hw])
          simpa [hp] using this })

def failed (w : StoreWrite) (e : Error) : LogLine :=
  match w with
  | .put k _ => .warn "Failed to persist record" [("key", k), ("error", e.message)]
  | .delete k => .warn "Failed to delete persisted record" [("key", k), ("error", e.message)]

structure Written where
  storage : Storage
  events : List StoreEvent
  log : List LogLine

def attempt (limit : Duration) (done : Written) : Pending → Written
  | .marker _ => done
  | .write w =>
    match done.storage.apply limit w with
    | (.ok (), storage, events) => { done with storage, events := done.events ++ events }
    | (.error e, storage, events) =>
      ⟨storage, done.events ++ events, done.log ++ [failed w e]⟩

def drain (limit : Duration) (storage : Storage) (q : WriteQueue) : Written :=
  q.pending.foldl (attempt limit) ⟨storage, [], []⟩

def emptied (q : WriteQueue) : WriteQueue := empty q.capacity

end WriteQueue

end HealthConsensus
