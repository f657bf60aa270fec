import HealthConsensus.Proofs.Store.Mirror

namespace HealthConsensus

namespace StoreWrite

def into (c : Contents) : StoreWrite → Contents
  | put k v => c.set k v
  | delete k => c.erase k

theorem found_into (c : Contents) (w : StoreWrite) : (w.into c).found = w.overlay c.found := by
  funext s
  cases w with
  | put k v =>
    rw [overlay, Function.update_apply]
    exact Contents.get?_set
  | delete k =>
    rw [overlay, Function.update_apply]
    exact Contents.get?_erase

theorem found_foldl_into (ws : List StoreWrite) (c : Contents) :
    (ws.foldl into c).found = replay ws c.found := by
  induction ws generalizing c with
  | nil => rfl
  | cons w ws ih => rw [List.foldl_cons, ih, found_into, replay, replay, List.foldl_cons]

end StoreWrite

def Pending.write? : Pending → Option StoreWrite
  | write w => some w
  | marker _ => none

namespace WriteQueue

variable {q q' : WriteQueue} {w : StoreWrite} {place : Pending} {c : Contents}

def writes (q : WriteQueue) : List StoreWrite := q.pending.filterMap Pending.write?

theorem writes_enqueue (kept : dropped w ∉ (q.enqueue w).2) :
    (q.enqueue w).1.writes = q.writes ++ [w] := by
  unfold enqueue at kept ⊢
  split
  · simp [writes, Pending.write?]
  · next full => simp [full] at kept

theorem writes_flush (caller : Nat) (q : WriteQueue) : (q.flush caller).writes = q.writes := by
  unfold flush
  split
  · simp [writes, Pending.write?]
  · rfl

theorem writes_next? (h : q.next? = some (place, q')) :
    q.writes = place.write?.toList ++ q'.writes := by
  have first (rest : List Pending) (hp : q.pending = place :: rest) :
      q.writes = place.write?.toList ++ rest.filterMap Pending.write? := by
    rw [writes, hp, List.filterMap_cons]
    cases place.write? <;> rfl
  unfold next? at h
  split at h
  · cases h
  · next p rest hp =>
    dsimp only at h
    split at h
    · cases h
      exact first rest hp
    · cases h
      -- a marker that moves up wants nothing written
      exact (first rest hp).trans (by simp [writes, Pending.write?])

theorem attempt_storage (limit : Duration) (events : List StoreEvent) (log : List LogLine)
    (c : Contents) (place : Pending) :
    (attempt limit ⟨.memory ⟨c, true⟩, events, log⟩ place).storage =
      .memory ⟨place.write?.toList.foldl StoreWrite.into c, true⟩ := by
  cases place with
  | marker caller => rfl
  | write w => cases w <;> rfl

theorem foldl_attempt_storage (limit : Duration) (places : List Pending) {done : Written}
    (h : done.storage = .memory ⟨c, true⟩) :
    (places.foldl (attempt limit) done).storage =
      .memory ⟨(places.filterMap Pending.write?).foldl StoreWrite.into c, true⟩ := by
  induction places generalizing done c with
  | nil => exact h
  | cons place places ih =>
    obtain ⟨storage, events, log⟩ := done
    cases h
    rw [List.foldl_cons, ih (attempt_storage limit events log c place)]
    cases place <;> rfl

theorem drain_storage (limit : Duration) (c : Contents) (q : WriteQueue) :
    (q.drain limit (.memory ⟨c, true⟩)).storage =
      .memory ⟨q.writes.foldl StoreWrite.into c, true⟩ :=
  foldl_attempt_storage limit q.pending rfl

end WriteQueue

end HealthConsensus
