import HealthConsensus.Proofs.Store.Contents
import HealthConsensus.Store.Memory

namespace HealthConsensus

inductive StoreCall where
  | get (key : String)
  | set (key : String) (value : Bytes)
  | delete (key : String)
  | list (start : String)
  | watch (start : String)
  | close
deriving DecidableEq, Repr

inductive StoreAnswer where
  | value (found : Option Bytes)
  | entries (found : List (String × Bytes))
  | watcher (number : Nat)
  | done
deriving DecidableEq, Repr

structure WatchedStore where
  store : MemoryStore
  watchers : Watchers

structure StoreTurn where
  answer : Except Error StoreAnswer
  after : WatchedStore
  notices : List (Nat × Notice)

namespace WatchedStore

def turn {α : Type} (o : StoreOutcome α) (answer : α → StoreAnswer) (ws : Watchers) : StoreTurn :=
  ⟨o.result.map answer, ⟨o.store, ws⟩, ws.notices o.events⟩

def call (w : WatchedStore) : StoreCall → StoreTurn
  | .get k => turn (w.store.get k) .value w.watchers
  | .set k v => turn (w.store.set k v) (fun () => .done) w.watchers
  | .delete k => turn (w.store.delete k) (fun () => .done) w.watchers
  | .list start => turn (w.store.list start) .entries w.watchers
  | .watch start =>
    let (opened, ws) := w.watchers.watch w.store.isOpen start
    ⟨opened.map .watcher, ⟨w.store, ws⟩, ws.notices []⟩
  | .close => ⟨.ok .done, ⟨w.store.close, w.watchers.close⟩, w.watchers.close.notices []⟩

def after (calls : List StoreCall) (w : WatchedStore) : WatchedStore :=
  calls.foldl (fun w c => (w.call c).after) w

end WatchedStore

def Watchers.heard (i : Nat) (ns : List (Nat × Notice)) : List Notice :=
  ns.filterMap fun n => if n.1 = i then some n.2 else none

namespace WatchedStore

def reads (i : Nat) : List StoreCall → WatchedStore → List (List Notice)
  | [], _ => []
  | c :: calls, w => Watchers.heard i (w.call c).notices :: reads i calls (w.call c).after

end WatchedStore

namespace StoreCall

def into (c : Contents) : StoreCall → Contents
  | set k v => c.set k v
  | delete k => c.erase k
  | _ => c

def changes (start : String) (c : Contents) : StoreCall → List StoreEvent
  | set k v => if startsWith start k then [.put k v] else []
  | delete k => if startsWith start k && (c.get? k).isSome then [.delete k] else []
  | _ => []

def changesOf (start : String) (c : Contents) : List StoreCall → List (List StoreEvent)
  | [] => []
  | call :: calls => call.changes start c :: changesOf start (call.into c) calls

end StoreCall

def StoreEvent.lay (es : List (String × Bytes)) : StoreEvent → List (String × Bytes)
  | put k v => Contents.insert k v es
  | delete k => es.filter fun e => e.1 ≠ k

namespace Contents

variable {c : Contents} {start k : String} {v : Bytes}

theorem under_ascending (start : String) (c : Contents) :
    (c.under start).Pairwise fun a b => a.1 < b.1 := by
  rw [under_eq_filter]
  exact c.sorted.filter _

theorem under_set_of_starts (starts : startsWith start k = true) :
    (c.set k v).under start = insert k v (c.under start) := by
  refine eq_of_ascending (under_ascending start _) (insert_sorted k v (under_ascending start c)) ?_
  intro e
  rw [mem_insert_iff (under_ascending start c), under_eq_filter, under_eq_filter, List.mem_filter,
    List.mem_filter, set, mem_insert_iff c.sorted]
  constructor
  · rintro ⟨rfl | ⟨there, other⟩, fits⟩
    · exact .inl rfl
    · exact .inr ⟨⟨there, fits⟩, other⟩
  · rintro (rfl | ⟨⟨there, fits⟩, other⟩)
    · exact ⟨.inl rfl, starts⟩
    · exact ⟨.inr ⟨there, other⟩, fits⟩

theorem under_set_of_not (outside : startsWith start k = false) :
    (c.set k v).under start = c.under start := by
  refine eq_of_ascending (under_ascending start _) (under_ascending start c) fun e => ?_
  rw [under_eq_filter, under_eq_filter, List.mem_filter, List.mem_filter, set,
    mem_insert_iff c.sorted]
  constructor
  · rintro ⟨rfl | ⟨there, -⟩, fits⟩
    · exact absurd fits (by simp [outside])
    · exact ⟨there, fits⟩
  · rintro ⟨there, fits⟩
    refine ⟨.inr ⟨there, fun same => ?_⟩, fits⟩
    rw [same, outside] at fits
    cases fits

theorem under_erase : (c.erase k).under start = (c.under start).filter fun e => e.1 ≠ k := by
  rw [under_eq_filter, under_eq_filter, erase, List.filter_filter, List.filter_filter]
  congr 1
  funext e
  exact Bool.and_comm _ _

end Contents

namespace StoreCall

variable {c : Contents} {start : String}

theorem lay_changes (call : StoreCall) :
    (call.changes start c).foldl StoreEvent.lay (c.under start) =
      (call.into c).under start := by
  cases call with
  | set k v =>
    rw [changes, into]
    cases starts : startsWith start k with
    | true => exact (Contents.under_set_of_starts starts).symm
    | false => exact (Contents.under_set_of_not starts).symm
  | delete k =>
    rw [changes, into, Contents.under_erase]
    split
    · rfl
    · next still =>
      -- no entry under the start has the key
      rw [List.filter_eq_self.2]
      · rfl
      rintro ⟨k', v⟩ there
      obtain ⟨found, starts⟩ := Contents.mem_under_iff.1 there
      rw [decide_eq_true_eq]
      rintro rfl
      exact still (by simp [found, starts])
  | get k => rfl
  | list start => rfl
  | watch start => rfl
  | close => rfl

theorem lay_changesOf (calls : List StoreCall) :
    (changesOf start c calls).flatten.foldl StoreEvent.lay (c.under start) =
      (calls.foldl into c).under start := by
  induction calls generalizing c with
  | nil => rfl
  | cons call calls ih =>
    rw [changesOf, List.flatten_cons, List.foldl_append, lay_changes, ih, List.foldl_cons]

end StoreCall

namespace Watchers

variable {ws : Watchers} {w : Watcher} {events : List StoreEvent} {i : Nat}

theorem heard_append (i : Nat) (xs ys : List (Nat × Notice)) :
    heard i (xs ++ ys) = heard i xs ++ heard i ys := List.filterMap_append

theorem heard_own (i : Nat) (ns : List Notice) : heard i (ns.map (i, ·)) = ns := by
  simp [heard, List.filterMap_map]

theorem heard_other {j : Nat} (h : j ≠ i) (ns : List Notice) : heard i (ns.map (j, ·)) = [] := by
  simp [heard, List.filterMap_map, h]

def noticesFrom (events : List StoreEvent) (n : Nat) (ws : Watchers) : List (Nat × Notice) :=
  (ws.zipIdx n).flatMap fun (w, i) => (w.notices events).map (i, ·)

theorem noticesFrom_cons (n : Nat) : noticesFrom events n (w :: ws) =
    (w.notices events).map (n, ·) ++ noticesFrom events (n + 1) ws := by
  rw [noticesFrom, List.zipIdx_cons, List.flatMap_cons]
  rfl

theorem heard_before {n : Nat} (h : i < n) : heard i (noticesFrom events n ws) = [] := by
  induction ws generalizing n with
  | nil => rfl
  | cons w ws ih =>
    rw [noticesFrom_cons, heard_append, heard_other (by omega), ih (by omega), List.nil_append]

theorem heard_from (n : Nat) (h : ws[i]? = some w) :
    heard (n + i) (noticesFrom events n ws) = w.notices events := by
  induction ws generalizing n i with
  | nil => simp at h
  | cons w' ws ih =>
    rw [noticesFrom_cons, heard_append]
    cases i with
    | zero =>
      obtain rfl : w' = w := by simpa using h
      rw [Nat.add_zero, heard_own, heard_before (by omega), List.append_nil]
    | succ i =>
      rw [heard_other (by omega), List.nil_append, Nat.add_comm i, ← Nat.add_assoc,
        ih (n + 1) (by simpa using h)]

theorem heard_notices (events : List StoreEvent) (h : ws[i]? = some w) :
    heard i (ws.notices events) = w.notices events := by
  have here := @heard_from ws w events i 0 h
  rwa [Nat.zero_add] at here

theorem notices_ended (ended : ∀ w ∈ ws, w.ended = true) (events : List StoreEvent) :
    ∀ n ∈ ws.notices events, n.2 = .ended := by
  intro n hn
  obtain ⟨⟨w, i⟩, there, read⟩ := List.mem_flatMap.1 hn
  have finished := ended w (List.fst_mem_of_mem_zipIdx there)
  simp only [Watcher.notices, finished, if_true, List.map_cons, List.map_nil, List.mem_singleton]
    at read
  exact read ▸ rfl

theorem close_watcher (h : ws[i]? = some w) : ws.close[i]? = some w.finish := by
  rw [close, List.getElem?_map, h]
  rfl

theorem close_ended (ws : Watchers) : ∀ w ∈ ws.close, w.ended = true := by
  intro w hw
  obtain ⟨_, -, rfl⟩ := List.mem_map.1 hw
  rfl

end Watchers

namespace WatchedStore

variable {c : Contents} {start : String} {i : Nat} {w : WatchedStore}

structure Follows (start : String) (i : Nat) (c : Contents) (w : WatchedStore) : Prop where
  store : w.store = ⟨c, true⟩
  watcher : w.watchers[i]? = some ⟨start, false⟩

structure IsClosed (start : String) (i : Nat) (c : Contents) (w : WatchedStore) : Prop where
  store : w.store = ⟨c, false⟩
  watcher : w.watchers[i]? = some ⟨start, true⟩
  ended : ∀ watcher ∈ w.watchers, watcher.ended = true

theorem Follows.call (h : w.Follows start i c) {call : StoreCall} (stays : call ≠ .close) :
    (w.call call).answer.isOk = true ∧ (w.call call).after.Follows start i (call.into c) ∧
      Watchers.heard i (w.call call).notices = (call.changes start c).map .event := by
  obtain ⟨store, ws⟩ := w
  obtain ⟨same, watcher⟩ := h
  dsimp only at same watcher
  subst same
  cases call with
  | get k => exact ⟨rfl, ⟨rfl, watcher⟩, Watchers.heard_notices _ watcher⟩
  | list start => exact ⟨rfl, ⟨rfl, watcher⟩, Watchers.heard_notices _ watcher⟩
  | set k v =>
    refine ⟨rfl, ⟨rfl, watcher⟩, (Watchers.heard_notices _ watcher).trans ?_⟩
    cases starts : startsWith start k <;>
      simp [MemoryStore.set, Watcher.notices, Watcher.hears, StoreEvent.key, StoreCall.changes,
        starts]
  | delete k =>
    refine ⟨rfl, ⟨rfl, watcher⟩, (Watchers.heard_notices _ watcher).trans ?_⟩
    cases starts : startsWith start k <;> cases there : (c.get? k).isSome <;>
      simp [MemoryStore.delete, Watcher.notices, Watcher.hears, StoreEvent.key,
        StoreCall.changes, starts, there]
  | watch other =>
    have kept : (ws ++ [⟨other, false⟩])[i]? = some ⟨start, false⟩ := by
      rw [List.getElem?_append_left (List.getElem?_eq_some_iff.1 watcher).1, watcher]
    exact ⟨rfl, ⟨rfl, kept⟩, Watchers.heard_notices _ kept⟩
  | close => exact absurd rfl stays

theorem Follows.close (h : w.Follows start i c) : (w.call .close).after.IsClosed start i c ∧
    Watchers.heard i (w.call .close).notices = [.ended] := by
  obtain ⟨store, ws⟩ := w
  obtain ⟨same, watcher⟩ := h
  dsimp only at same watcher
  subst same
  have ended := Watchers.close_watcher watcher
  exact ⟨⟨rfl, ended, Watchers.close_ended ws⟩, Watchers.heard_notices _ ended⟩

theorem IsClosed.call (h : w.IsClosed start i c) (call : StoreCall) :
    (w.call call).after.IsClosed start i c ∧
      (call ≠ .close → (w.call call).answer = .error MemoryStore.closedError) ∧
      (∀ n ∈ (w.call call).notices, n.2 = .ended) ∧
      Watchers.heard i (w.call call).notices = [.ended] := by
  obtain ⟨store, ws⟩ := w
  obtain ⟨same, watcher, ended⟩ := h
  dsimp only at same watcher ended
  subst same
  have still : IsClosed start i c ⟨⟨c, false⟩, ws⟩ := ⟨rfl, watcher, ended⟩
  have quiet := Watchers.notices_ended ended []
  have heard := Watchers.heard_notices [] watcher
  cases call with
  | close =>
    have again := Watchers.close_watcher watcher
    have all := Watchers.close_ended ws
    exact ⟨⟨rfl, again, all⟩, fun other => absurd rfl other, Watchers.notices_ended all [],
      Watchers.heard_notices _ again⟩
  | get k => exact ⟨still, fun _ => rfl, quiet, heard⟩
  | set k v => exact ⟨still, fun _ => rfl, quiet, heard⟩
  | delete k => exact ⟨still, fun _ => rfl, quiet, heard⟩
  | list start => exact ⟨still, fun _ => rfl, quiet, heard⟩
  | watch start => exact ⟨still, fun _ => rfl, quiet, heard⟩

theorem Follows.run (h : w.Follows start i c) {calls : List StoreCall}
    (stays : StoreCall.close ∉ calls) :
    (w.after calls).Follows start i (calls.foldl StoreCall.into c) ∧
      reads i calls w = (StoreCall.changesOf start c calls).map (·.map .event) := by
  induction calls generalizing w c with
  | nil => exact ⟨h, rfl⟩
  | cons call calls ih =>
    have now : call ≠ .close := fun same => stays (same ▸ List.mem_cons_self)
    obtain ⟨-, follows, heard⟩ := h.call now
    obtain ⟨follows, reads⟩ := ih follows fun later => stays (List.mem_cons_of_mem _ later)
    exact ⟨follows, congrArg₂ List.cons heard reads⟩

theorem IsClosed.run (h : w.IsClosed start i c) (calls : List StoreCall) :
    (w.after calls).IsClosed start i c ∧
      reads i calls w = List.replicate calls.length [.ended] := by
  induction calls generalizing w with
  | nil => exact ⟨h, rfl⟩
  | cons call calls ih =>
    obtain ⟨closed, -, -, heard⟩ := h.call call
    obtain ⟨closed, reads⟩ := ih closed
    exact ⟨closed, congrArg₂ List.cons heard reads⟩

theorem after_append (calls later : List StoreCall) :
    w.after (calls ++ later) = (w.after calls).after later := List.foldl_append

theorem reads_append (calls later : List StoreCall) :
    reads i (calls ++ later) w = reads i calls w ++ reads i later (w.after calls) := by
  induction calls generalizing w with
  | nil => rfl
  | cons call calls ih => exact congrArg (_ :: ·) ih

def lay (es : List (String × Bytes)) : Notice → List (String × Bytes)
  | .event e => e.lay es
  | .ended => es

theorem foldl_lay_events (es : List (String × Bytes)) (events : List (List StoreEvent)) :
    (events.map (·.map Notice.event)).flatten.foldl lay es =
      events.flatten.foldl StoreEvent.lay es := by
  rw [← List.map_flatten, List.foldl_map]
  rfl

theorem watch_follows (h : w.store.isOpen = true) (start : String) :
    (w.call (.watch start)).answer = .ok (.watcher w.watchers.length) ∧
      (w.call (.watch start)).after.Follows start w.watchers.length w.store.contents := by
  obtain ⟨⟨contents, isOpen⟩, ws⟩ := w
  obtain rfl : isOpen = true := h
  exact ⟨rfl, rfl, List.getElem?_concat_length⟩

/-- A watcher reads the changes under its start of keys, each when it is made, and so knows what is
there; once the store is closed it has ended, and nothing changes or answers any more. -/
theorem watcher_replays_store {w : WatchedStore} (isOpen : w.store.isOpen = true)
    (start : String) :
    ∃ i, (w.call (.watch start)).answer = .ok (.watcher i) ∧
      let opened := (w.call (.watch start)).after
      ∀ calls, StoreCall.close ∉ calls →
        (∀ call, ((opened.after calls).call call).answer.isOk = true) ∧
        reads i calls opened =
          (StoreCall.changesOf start w.store.contents calls).map (·.map .event) ∧
        (∃ first, (opened.store.list start).result = .ok first ∧
          ((opened.after calls).store.list start).result =
            .ok ((reads i calls opened).flatten.foldl lay first)) ∧
        ∀ later, let closed := opened.after (calls ++ .close :: later)
          reads i (calls ++ .close :: later) opened =
            reads i calls opened ++ List.replicate (later.length + 1) [.ended] ∧
          closed.store.contents = (opened.after calls).store.contents ∧
          ∀ call, (∀ n ∈ (closed.call call).notices, n.2 = .ended) ∧
            (call ≠ .close → (closed.call call).answer = .error MemoryStore.closedError) := by
  obtain ⟨answer, opened⟩ := watch_follows isOpen start
  refine ⟨w.watchers.length, answer, fun calls stays => ?_⟩
  obtain ⟨follows, read⟩ := opened.run stays
  refine ⟨fun call => ?_, read, ⟨w.store.contents.under start, ?_, ?_⟩, fun later => ?_⟩
  · by_cases closes : call = .close
    · subst closes
      rfl
    · exact (follows.call closes).1
  · rw [opened.store]
    rfl
  · rw [read, foldl_lay_events, StoreCall.lay_changesOf, follows.store]
    rfl
  · obtain ⟨closed, last⟩ := follows.close
    obtain ⟨closed, silent⟩ := closed.run later
    rw [after_append, reads_append]
    refine ⟨?_, ?_, fun call => ?_⟩
    · rw [List.replicate_succ]
      exact congrArg (_ ++ ·) (congrArg₂ List.cons last silent)
    · exact closed.store ▸ follows.store ▸ rfl
    · obtain ⟨-, refused, quiet, -⟩ := closed.call call
      exact ⟨quiet, refused⟩

theorem watcher_replays_store_until_close :
    let store : MemoryStore := ⟨(Contents.empty.set "a/1" [1]).set "b" [2], true⟩
    let calls : List StoreCall := [.set "a/2" [3], .set "b" [4], .delete "a/1", .delete "a/9"]
    ∃ i, (call ⟨store, []⟩ (.watch "a/")).answer = .ok (.watcher i) ∧
      reads i (calls ++ [.close, .set "a/3" [5]]) (call ⟨store, []⟩ (.watch "a/")).after =
        [[.event (.put "a/2" [3])], [], [.event (.delete "a/1")], [], [.ended], [.ended]] := by
  intro store calls
  obtain ⟨i, answer, runs⟩ := watcher_replays_store (w := ⟨store, []⟩) rfl "a/"
  obtain ⟨-, read, -, closes⟩ := runs calls (by decide)
  obtain ⟨all, -⟩ := closes [.set "a/3" [5]]
  refine ⟨i, answer, all.trans ?_⟩
  rw [read]
  rfl

end WatchedStore

end HealthConsensus
