import HealthConsensus.Proofs.Store.Queues
import Mathlib.Data.List.Induction

/-!
Writing behind as its callers see it: changes that found a place and callers who wait stand in one
line, and the writer deals with them in this order. The store may fail, hang and come back meanwhile.
-/

namespace HealthConsensus

def Storage.contents? : Storage → Option Contents
  | .memory s => some s.contents
  | _ => none

theorem Storage.contents?_apply {s : Storage} {c : Contents} {limit : Duration} {w : StoreWrite}
    (h : s.contents? = some c) (succeeds : (s.apply limit w).1 = .ok ()) :
    (s.apply limit w).2.1.contents? = some (w.into c) := by
  cases s with
  | absent => cases h
  | hanging => cases h
  | memory s =>
    obtain ⟨contents, isOpen⟩ := s
    cases h
    cases isOpen with
    | true => cases w <;> rfl
    | false => cases w <;> cases succeeds

def Pending.caller? : Pending → Option Nat
  | write _ => none
  | marker caller => some caller

namespace WriteQueue

variable {q q' : WriteQueue} {w : StoreWrite} {place : Pending}

def line (q : WriteQueue) : List Pending := q.pending ++ q.waiting.map .marker

theorem waiting_of_place (h : q.pending.length < q.capacity) : q.waiting = [] := by
  by_contra waits
  exact Nat.ne_of_lt h (q.waiting_full waits)

theorem writes_eq_line (q : WriteQueue) : q.writes = q.line.filterMap Pending.write? := by
  have markers : (q.waiting.map Pending.marker).filterMap Pending.write? = [] := by
    rw [List.filterMap_map, List.filterMap_eq_nil_iff]
    exact fun caller _ => rfl
  rw [line, List.filterMap_append, markers, List.append_nil, writes]

theorem enqueue_full (h : ¬q.pending.length < q.capacity) : q.enqueue w = (q, [dropped w]) := by
  rw [enqueue, dif_neg h]

theorem enqueue_log (h : q.pending.length < q.capacity) : (q.enqueue w).2 = [] := by
  rw [enqueue, dif_pos h]

theorem line_enqueue (h : q.pending.length < q.capacity) :
    (q.enqueue w).1.line = q.line ++ [.write w] := by
  simp [enqueue, h, line, waiting_of_place h]

theorem line_flush (caller : Nat) (q : WriteQueue) :
    (q.flush caller).line = q.line ++ [.marker caller] := by
  unfold flush
  split
  · next h => simp [line, waiting_of_place h]
  · simp [line]

theorem line_next? (h : q.next? = some (place, q')) : q.line = place :: q'.line := by
  unfold next? at h
  split at h
  · cases h
  · next p rest hp =>
    dsimp only at h
    split at h
    · next hw =>
      cases h
      simp [line, hp, hw]
    · next hw =>
      cases h
      simp [line, hp, hw]

theorem line_of_next?_none (h : q.next? = none) : q.line = [] := by
  unfold next? at h
  split at h
  · next hp =>
    have roomy : q.pending.length < q.capacity := by
      rw [hp]
      exact q.capacity_pos
    rw [line, hp, waiting_of_place roomy]
    rfl
  · dsimp only at h
    split at h <;> cases h

theorem storage_attempt_write (limit : Duration) (storage : Storage) (w : StoreWrite) :
    (attempt limit ⟨storage, [], []⟩ (.write w)).storage = (storage.apply limit w).2.1 := by
  rw [attempt]
  split <;> simp [*]

theorem capacity_enqueue (w : StoreWrite) (q : WriteQueue) :
    (q.enqueue w).1.capacity = q.capacity := by
  unfold enqueue
  split <;> rfl

theorem capacity_flush (caller : Nat) (q : WriteQueue) :
    (q.flush caller).capacity = q.capacity := by
  unfold flush
  split <;> rfl

theorem capacity_next? (h : q.next? = some (place, q')) : q'.capacity = q.capacity := by
  unfold next? at h
  split at h
  · cases h
  · dsimp only at h
    split at h <;> cases h <;> rfl

end WriteQueue

inductive QueueEvent where
  | accepted (w : StoreWrite)
  | refused (w : StoreWrite)
  | asked (caller : Nat)
  | attempted (w : StoreWrite) (result : Except Error Unit)
  | acknowledged (caller : Nat)

namespace QueueEvent

def entry? : QueueEvent → Option Pending
  | accepted w => some (.write w)
  | asked caller => some (.marker caller)
  | _ => none

def exit? : QueueEvent → Option Pending
  | attempted w _ => some (.write w)
  | acknowledged caller => some (.marker caller)
  | _ => none

def entries (events : List QueueEvent) : List Pending := events.filterMap entry?

def exits (events : List QueueEvent) : List Pending := events.filterMap exit?

def acceptedIn (events : List QueueEvent) : List StoreWrite :=
  (entries events).filterMap Pending.write?

def askedIn (events : List QueueEvent) : List Nat := (entries events).filterMap Pending.caller?

def attemptedIn (events : List QueueEvent) : List StoreWrite :=
  (exits events).filterMap Pending.write?

def acknowledgedIn (events : List QueueEvent) : List Nat :=
  (exits events).filterMap Pending.caller?

theorem entries_concat (events : List QueueEvent) (e : QueueEvent) :
    entries (events ++ [e]) = entries events ++ e.entry?.toList := by
  cases e <;> simp [entries, entry?]

theorem exits_concat (events : List QueueEvent) (e : QueueEvent) :
    exits (events ++ [e]) = exits events ++ e.exit?.toList := by
  cases e <;> simp [exits, exit?]

theorem eq_asked {e : QueueEvent} {caller : Nat} (h : e.entry? = some (.marker caller)) :
    e = asked caller := by
  cases e <;> cases h
  rfl

end QueueEvent

structure WriteBehind where
  queue : WriteQueue
  storage : Storage
  events : List QueueEvent
  log : List LogLine

inductive WriteStep where
  | write (w : StoreWrite)
  | flush (caller : Nat)
  | next
  | turn (f : Storage → Storage)

namespace WriteBehind

open QueueEvent WriteQueue

def start (capacity : Nat) (storage : Storage) : WriteBehind := ⟨.empty capacity, storage, [], []⟩

def answer (limit : Duration) (storage : Storage) : Pending → QueueEvent
  | .write w => .attempted w (storage.apply limit w).1
  | .marker caller => .acknowledged caller

def step (limit : Duration) (s : WriteBehind) : WriteStep → WriteBehind
  | .write w =>
    { s with
      queue := (s.queue.enqueue w).1
      events := s.events ++
        [if s.queue.pending.length < s.queue.capacity then .accepted w else .refused w]
      log := s.log ++ (s.queue.enqueue w).2 }
  | .flush caller =>
    { s with queue := s.queue.flush caller, events := s.events ++ [.asked caller] }
  | .next =>
    match s.queue.next? with
    | none => s
    | some (place, queue) =>
      let done := attempt limit ⟨s.storage, [], []⟩ place
      { queue
        storage := done.storage
        events := s.events ++ [answer limit s.storage place]
        log := s.log ++ done.log }
  | .turn f => { s with storage := f s.storage }

def run (limit : Duration) (steps : List WriteStep) (s : WriteBehind) : WriteBehind :=
  steps.foldl (step limit) s

variable {limit : Duration} {capacity : Nat} {storage : Storage} {s : WriteBehind}

theorem step_write_accepted {w : StoreWrite} (h : s.queue.pending.length < s.queue.capacity) :
    step limit s (.write w) =
      { s with queue := (s.queue.enqueue w).1, events := s.events ++ [.accepted w] } := by
  rw [step, if_pos h, enqueue_log h, List.append_nil]

theorem step_write_refused {w : StoreWrite} (h : ¬s.queue.pending.length < s.queue.capacity) :
    step limit s (.write w) =
      { s with events := s.events ++ [.refused w], log := s.log ++ [dropped w] } := by
  rw [step, if_neg h, enqueue_full h]

structure InOrder (capacity : Nat) (s : WriteBehind) : Prop where
  capacity_eq : s.queue.capacity = max capacity 1
  entries_eq : entries s.events = exits s.events ++ s.queue.line
  earlier : ∀ l, l <+: s.events → exits l <+: entries l

theorem InOrder.extend {s' : WriteBehind} (h : InOrder capacity s)
    (capacity_eq : s'.queue.capacity = s.queue.capacity) {e : QueueEvent}
    (events : s'.events = s.events ++ [e])
    (line : s.queue.line ++ e.entry?.toList = e.exit?.toList ++ s'.queue.line) :
    InOrder capacity s' := by
  have entries_eq : entries s'.events = exits s'.events ++ s'.queue.line := by
    rw [events, entries_concat, exits_concat, h.entries_eq, List.append_assoc, line,
      List.append_assoc]
  refine ⟨capacity_eq.trans h.capacity_eq, entries_eq, ?_⟩
  intro l hl
  rw [events] at hl
  obtain rfl | inner := List.prefix_concat_iff.1 hl
  · rw [← events, entries_eq]
    exact List.prefix_append _ _
  · exact h.earlier l inner

theorem InOrder.step (h : InOrder capacity s) (x : WriteStep) :
    InOrder capacity (step limit s x) := by
  cases x with
  | write w =>
    by_cases place : s.queue.pending.length < s.queue.capacity
    · rw [step_write_accepted place]
      exact h.extend (capacity_enqueue w s.queue) rfl (line_enqueue place).symm
    · rw [step_write_refused place]
      exact h.extend rfl rfl (List.append_nil _)
  | flush caller =>
    exact h.extend (capacity_flush caller s.queue) rfl (line_flush caller s.queue).symm
  | next =>
    rw [WriteBehind.step]
    cases taken : s.queue.next? with
    | none => exact h
    | some pair =>
      obtain ⟨place, q⟩ := pair
      refine h.extend (capacity_next? taken) rfl ?_
      rw [line_next? taken]
      cases place <;> simp [answer, entry?, exit?]
  | turn f => exact ⟨h.capacity_eq, h.entries_eq, h.earlier⟩

theorem inOrder_start : InOrder capacity (start capacity storage) := by
  refine ⟨rfl, rfl, ?_⟩
  intro l hl
  rw [List.prefix_nil.1 hl]
  exact List.nil_prefix

theorem run_concat (steps : List WriteStep) (x : WriteStep) (s : WriteBehind) :
    run limit (steps ++ [x]) s = step limit (run limit steps s) x := by
  simp [run]

theorem InOrder.run (h : InOrder capacity s) (limit : Duration) (steps : List WriteStep) :
    InOrder capacity (run limit steps s) := by
  induction steps using List.reverseRecOn with
  | nil => exact h
  | append_singleton steps x ih =>
    rw [run_concat]
    exact ih.step x

theorem InOrder.accepted_eq (h : InOrder capacity s) :
    acceptedIn s.events = attemptedIn s.events ++ s.queue.writes := by
  rw [acceptedIn, h.entries_eq, List.filterMap_append, ← writes_eq_line, attemptedIn]

theorem InOrder.acknowledged (h : InOrder capacity s) {before after : List QueueEvent} {caller : Nat}
    (split : s.events = before ++ .acknowledged caller :: after) :
    ∃ earlier later, before = earlier ++ .asked caller :: later ∧
      acceptedIn earlier = attemptedIn before ∧ askedIn earlier = acknowledgedIn before := by
  have there : before ++ [.acknowledged caller] <+: s.events := ⟨after, by simp [split]⟩
  obtain ⟨rest, entered⟩ := h.earlier _ there
  rw [exits_concat, entries_concat] at entered
  have entered : entries before = exits before ++ .marker caller :: rest := by
    simpa [exit?, entry?] using entered.symm
  -- up to the marker as many have entered as have left by now, so these are the same ones
  obtain ⟨first, others, rfl, same, opened⟩ := List.filterMap_eq_append_iff.1 entered
  obtain ⟨skipped, e, later, rfl, silent, asked, -⟩ := List.filterMap_eq_cons_iff.1 opened
  have earlier : entries (first ++ skipped) = exits (first ++ (skipped ++ e :: later)) := by
    rw [entries, List.filterMap_append, List.filterMap_eq_nil_iff.2 silent, List.append_nil, same]
  refine ⟨first ++ skipped, later, ?_, congrArg _ earlier, congrArg _ earlier⟩
  rw [eq_asked asked, List.append_assoc]

theorem events_step (x : WriteStep) : s.events <+: (step limit s x).events := by
  cases x with
  | write w => exact List.prefix_append _ _
  | flush caller => exact List.prefix_append _ _
  | next =>
    rw [step]
    cases s.queue.next? with
    | none => exact List.prefix_rfl
    | some pair => exact List.prefix_append _ _
  | turn f => exact List.prefix_rfl

theorem attemptedIn_concat (events : List QueueEvent) (e : QueueEvent) :
    attemptedIn (events ++ [e]) = attemptedIn events ++ (e.exit?.bind Pending.write?).toList := by
  rw [attemptedIn, exits_concat, List.filterMap_append, attemptedIn]
  cases e <;> rfl

theorem contents_step {x : WriteStep} {c : Contents} (held : s.storage.contents? = some c)
    (undisturbed : ∀ f, x = .turn f → ∀ y : Storage, (f y).contents? = y.contents?)
    (succeed : ∀ w e, .attempted w (.error e) ∉ (step limit s x).events) :
    ∃ ws, attemptedIn (step limit s x).events = attemptedIn s.events ++ ws ∧
      (step limit s x).storage.contents? = some (ws.foldl StoreWrite.into c) := by
  cases x with
  | write w =>
    refine ⟨[], ?_, held⟩
    rw [step, attemptedIn_concat]
    split <;> rfl
  | flush caller =>
    refine ⟨[], ?_, held⟩
    rw [step, attemptedIn_concat]
    rfl
  | next =>
    rw [step] at succeed ⊢
    cases taken : s.queue.next? with
    | none => exact ⟨[], (List.append_nil _).symm, held⟩
    | some pair =>
      obtain ⟨place, q⟩ := pair
      rw [taken] at succeed
      cases place with
      | marker caller => exact ⟨[], attemptedIn_concat _ _, held⟩
      | write w =>
        refine ⟨[w], attemptedIn_concat _ _, ?_⟩
        have succeeds : (s.storage.apply limit w).1 = .ok () := by
          cases result : (s.storage.apply limit w).1 with
          | ok => rfl
          | error e =>
            refine absurd ?_ (succeed w e)
            simp [answer, result]
        exact (congrArg _ (storage_attempt_write limit s.storage w)).trans
          (Storage.contents?_apply held succeeds)
  | turn f => exact ⟨[], (List.append_nil _).symm, (undisturbed f rfl s.storage).trans held⟩

theorem contents_run {steps : List WriteStep} {c : Contents} (held : s.storage.contents? = some c)
    (fresh : s.events = [])
    (undisturbed : ∀ f, .turn f ∈ steps → ∀ y : Storage, (f y).contents? = y.contents?)
    (succeed : ∀ w e, .attempted w (.error e) ∉ (run limit steps s).events) :
    (run limit steps s).storage.contents? =
      some ((attemptedIn (run limit steps s).events).foldl StoreWrite.into c) := by
  induction steps using List.reverseRecOn with
  | nil =>
    rw [run, List.foldl_nil, fresh]
    exact held
  | append_singleton steps x ih =>
    rw [run_concat] at succeed ⊢
    have before := ih (fun f hf => undisturbed f (List.mem_append_left _ hf))
      fun w e failed => succeed w e ((events_step x).subset failed)
    obtain ⟨ws, attempted, contents⟩ := contents_step before
      (fun f hf => undisturbed f (by simp [hf])) succeed
    rw [attempted, contents, List.foldl_append]

theorem run_next (limit : Duration) (n : Nat) (s : WriteBehind) :
    entries (run limit (List.replicate n .next) s).events = entries s.events ∧
      (run limit (List.replicate n .next) s).queue.line = s.queue.line.drop n := by
  induction n generalizing s with
  | zero => exact ⟨rfl, rfl⟩
  | succ n ih =>
    rw [List.replicate_succ, run, List.foldl_cons, ← run]
    obtain ⟨entered, line⟩ := ih (step limit s .next)
    rw [entered, line, step]
    cases taken : s.queue.next? with
    | none =>
      rw [line_of_next?_none taken]
      exact ⟨rfl, by simp⟩
    | some pair =>
      obtain ⟨place, q⟩ := pair
      rw [line_next? taken, entries_concat]
      cases place <;> simp [answer, entry?]

theorem InOrder.served_all (h : InOrder capacity s) (limit : Duration) {n : Nat}
    (enough : s.queue.pending.length + s.queue.waiting.length ≤ n) :
    exits (WriteBehind.run limit (List.replicate n .next) s).events = entries s.events := by
  have long : s.queue.line.length ≤ n := by simpa [line] using enough
  obtain ⟨entered, line⟩ := run_next limit n s
  have done := (h.run limit (List.replicate n .next)).entries_eq
  rw [line, List.drop_eq_nil_of_le long, List.append_nil] at done
  exact done.symm.trans entered

theorem serves_in_order (limit : Duration) (capacity : Nat) (storage : Storage)
    (steps : List WriteStep) :
    let first := start capacity storage
    let last := run limit steps first
    acceptedIn last.events = attemptedIn last.events ++ last.queue.writes ∧
    last.queue.pending.length ≤ max capacity 1 ∧
    (∀ before w after, steps = before ++ .write w :: after →
      let s := run limit before first
      if s.queue.pending.length < max capacity 1 then
        step limit s (.write w) =
          { s with queue := (s.queue.enqueue w).1, events := s.events ++ [.accepted w] }
      else
        step limit s (.write w) =
          { s with events := s.events ++ [.refused w], log := s.log ++ [dropped w] }) ∧
    (∀ before caller after, last.events = before ++ .acknowledged caller :: after →
      ∃ earlier later, before = earlier ++ .asked caller :: later ∧
        acceptedIn earlier = attemptedIn before ∧ askedIn earlier = acknowledgedIn before) ∧
    (∀ c, storage.contents? = some c →
      (∀ f, .turn f ∈ steps → ∀ x : Storage, (f x).contents? = x.contents?) →
      (∀ w e, .attempted w (.error e) ∉ last.events) →
      last.storage.contents? = some ((attemptedIn last.events).foldl StoreWrite.into c)) ∧
    ∀ n, last.queue.pending.length + last.queue.waiting.length ≤ n →
      let done := run limit (List.replicate n .next) last
      attemptedIn done.events = acceptedIn last.events ∧
        acknowledgedIn done.events = askedIn last.events := by
  intro first last
  have inOrder (steps : List WriteStep) : InOrder capacity (run limit steps first) :=
    inOrder_start.run limit steps
  refine ⟨(inOrder steps).accepted_eq, ?_, ?_, ?_, ?_, ?_⟩
  · rw [← (inOrder steps).capacity_eq]
    exact last.queue.length_le
  · intro before w after _ s
    rw [← (inOrder before).capacity_eq]
    split
    · next place => exact step_write_accepted place
    · next full => exact step_write_refused full
  · exact fun before caller after split => (inOrder steps).acknowledged split
  · exact fun c held undisturbed succeed => contents_run held rfl undisturbed succeed
  · intro n enough done
    have all := (inOrder steps).served_all limit enough
    exact ⟨congrArg _ all, congrArg _ all⟩

def opened (isOpen : Bool) : Storage → Storage
  | .memory s => .memory { s with isOpen }
  | other => other

def narrowRun : List WriteStep :=
  [.write (.put "a" [1]), .write (.put "b" [2]), .flush 7, .turn (opened false),
    .turn (opened true), .next, .write (.put "c" [3]), .next, .write (.put "d" [4]), .next]

theorem serves_narrow_run :
    let last := run .zero narrowRun (start 0 (.memory .empty))
    last.events = [.accepted (.put "a" [1]), .refused (.put "b" [2]), .asked 7,
      .attempted (.put "a" [1]) (.ok ()), .refused (.put "c" [3]), .acknowledged 7,
      .accepted (.put "d" [4]), .attempted (.put "d" [4]) (.ok ())] ∧
    (∃ earlier later, last.events.take 5 = earlier ++ .asked 7 :: later ∧
      acceptedIn earlier = attemptedIn (last.events.take 5) ∧
      askedIn earlier = acknowledgedIn (last.events.take 5)) ∧
    last.storage.contents? =
      some ([.put "a" [1], .put "d" [4]].foldl StoreWrite.into Contents.empty) := by
  intro last
  have happened : last.events = [.accepted (.put "a" [1]), .refused (.put "b" [2]), .asked 7,
      .attempted (.put "a" [1]) (.ok ()), .refused (.put "c" [3]), .acknowledged 7,
      .accepted (.put "d" [4]), .attempted (.put "d" [4]) (.ok ())] := rfl
  obtain ⟨-, -, -, acknowledged, contents, -⟩ :=
    serves_in_order .zero 0 (.memory .empty) narrowRun
  have undisturbed : ∀ f, .turn f ∈ narrowRun → ∀ x : Storage, (f x).contents? = x.contents? := by
    intro f hf x
    have : f = opened false ∨ f = opened true := by simpa [narrowRun] using hf
    obtain rfl | rfl := this <;> cases x <;> rfl
  have succeed : ∀ w e, .attempted w (.error e) ∉ last.events := by
    intro w e failed
    rw [happened] at failed
    simp at failed
  exact ⟨happened, acknowledged _ 7 _ rfl, contents Contents.empty rfl undisturbed succeed⟩

end WriteBehind

end HealthConsensus
