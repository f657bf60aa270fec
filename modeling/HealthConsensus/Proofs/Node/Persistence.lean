import HealthConsensus.Proofs.Backend.Record
import HealthConsensus.Proofs.Node.Runs
import HealthConsensus.Proofs.Store.Queues

namespace HealthConsensus

theorem startsWith_append (start rest : String) : startsWith start (start ++ rest) = true := by
  rw [startsWith_iff, String.toList_append]
  exact List.prefix_append _ _

def backendFiling : Filing backendKind where
  folder := BackendKey.storeFolder
  storeKey := BackendKey.storeKey
  text b := b.toJson.text
  put _ := rfl
  drop _ := rfl
  inFolder k := startsWith_append _ k.text

def pinFiling : Filing pinKind where
  folder := Pin.storeFolder
  storeKey := Pin.storeKey
  text pin := pin.toJson.text
  put _ := rfl
  drop _ := rfl
  inFolder := startsWith_append _

theorem Pin.storeKey_injective {agentId agentId' : String}
    (h : Pin.storeKey agentId = Pin.storeKey agentId') : agentId = agentId' := by
  have lists := congrArg String.toList h
  rw [storeKey, storeKey, String.toList_append, String.toList_append] at lists
  exact String.toList_inj.1 (List.append_cancel_left lists)

theorem folders_apart {s : String} (backend : startsWith BackendKey.storeFolder s = true) :
    startsWith Pin.storeFolder s = false := by
  refine Bool.eq_false_iff.2 fun pin => ?_
  obtain ⟨rest, hrest⟩ := startsWith_iff.1 backend
  obtain ⟨rest', hrest'⟩ := startsWith_iff.1 pin
  have first := congrArg List.head? (hrest.trans hrest'.symm)
  revert first
  simp [BackendKey.storeFolder, Pin.storeFolder]

theorem Drain.none_reads : Drain.none.Reads := by
  constructor <;> decide +kernel

def StoreKeysApart (v : Backends) : Prop :=
  ∀ k k', (v k).isSome = true → (v k').isSome = true → k.storeKey = k'.storeKey → k = k'

namespace RegistryCall

variable {p : RegistryPolicy} {now : Instant} {c : RegistryCall} {m : Move Backend}

inductive Grows : RegistryCall → Prop
  | register (r : Registration) : Grows (register r)
  | drain (agentId : String) (signal : Drain) : Grows (drain agentId signal)

theorem Makes.after_isSome (h : c.Makes p now m) (grows : c.Grows) : m.after.isSome = true := by
  cases h with
  | leave b => cases grows
  | expire b expired => cases grows
  | _ => rfl

theorem Makes.before_isSome (h : c.Makes p now m) (known : ∀ r, c ≠ register r) :
    m.before.isSome = true := by
  cases h with
  | appear r => exact absurd rfl (known r)
  | _ => rfl

theorem Makes.reads (h : c.Makes p now m)
    (signals : ∀ agentId signal, c = drain agentId signal → signal.Reads)
    (before : ∀ b, m.before = some b → b.drain.Reads) : ∀ b, m.after = some b → b.drain.Reads := by
  intro next after
  cases h with
  | appear r =>
    cases after
    exact Drain.none_reads
  | leave b => cases after
  | expire b expired => cases after
  | shed b signal =>
    cases after
    have reads := signals _ _ rfl
    exact ⟨reads.cpu, reads.memory, reads.errors⟩
  | reappear r b key =>
    cases after
    exact before b rfl
  | check b healthy error latency =>
    cases after
    exact before b rfl
  | overrule b healthy reason operator =>
    cases after
    exact before b rfl
  | yield b overridden =>
    cases after
    exact before b rfl
  | age b kept aged =>
    cases after
    exact before b rfl

end RegistryCall

theorem Message.grows_or_not (m : Message) :
    (∀ c, m.Asks c → c.Grows) ∨ ∀ c, m.Asks c → ∀ r, c ≠ .register r := by
  by_cases leaves : ∃ r, m.payload = .deregister r
  · obtain ⟨r, payload⟩ := leaves
    right
    rintro c asks r' rfl
    cases asks with
    | claim h claim payload' hc => cases payload.symm.trans payload'
    | register r payload' => cases payload.symm.trans payload'
  · left
    intro c asks
    cases asks with
    | claim h claim payload hc => exact .register _
    | register r payload => exact .register _
    | deregister r payload => exact absurd ⟨r, payload⟩ leaves
    | forecast h f payload hf => exact .drain _ _

inductive NodeCall.Signals : NodeCall → Drain → Prop
  | heartbeat (m : Message) (h : Heartbeat) (f : Forecast) : m.payload = .heartbeat h →
      h.forecast = some f → Signals (.message m) f.drain
  | drain (agentId : String) (signal : Drain) : Signals (.registry (.drain agentId signal)) signal

inductive NodeAction.Signals : NodeAction → Drain → Prop
  | call (now : Instant) {c : NodeCall} {signal : Drain} : c.Signals signal →
      Signals (.call now c) signal

namespace NodeCall

variable {p : NodePolicy} {ps : Pins} {now : Instant} {c : NodeCall}

theorem OnRegistry.signals {agentId : String} {signal : Drain}
    (h : c.OnRegistry p ps (.drain agentId signal)) : c.Signals signal := by
  cases h with
  | message m c admitted asks =>
    cases asks with
    | forecast h f payload hf => exact .heartbeat m h f payload hf
  | registry c => exact .drain agentId signal
  | checkAll script s c check => cases check
  | checkBackend script s k c check => cases check
  | request ctx r c operator =>
    cases operator with
    | check c check => cases check

theorem grows_or_not (p : NodePolicy) (ps : Pins) (c : NodeCall) :
    (∀ call, c.OnRegistry p ps call → call.Grows) ∨
      ∀ call, c.OnRegistry p ps call → ∀ r, call ≠ .register r := by
  cases c with
  | message m =>
    rcases m.grows_or_not with grows | known
    · left
      rintro call ⟨⟩
      exact grows call ‹_›
    · right
      rintro call ⟨⟩
      exact known call ‹_›
  | registry call =>
    by_cases grows : call.Grows
    · left
      rintro call ⟨⟩
      exact grows
    · right
      rintro call ⟨⟩ r rfl
      exact grows (.register r)
  | pins call =>
    left
    rintro call ⟨⟩
  | checkAll script s =>
    right
    rintro call ⟨⟩
    exact RegistryCall.IsCheck.not_register ‹_›
  | checkBackend script s k =>
    right
    rintro call ⟨⟩
    exact RegistryCall.IsCheck.not_register ‹_›
  | request ctx r =>
    right
    rintro call ⟨⟩
    exact RegistryCall.IsOperator.not_register ‹_›

theorem storeKeys_on_path {v v' : Backends} {ms : List (Move Backend)}
    (path : Path backendKind v ms v')
    (made : ∀ m ∈ ms, Registry.MadeBy p.registry now (c.OnRegistry p ps) m)
    (before : StoreKeysApart v) (after : StoreKeysApart v') :
    ∀ k k', Appears backendKind v ms k → Appears backendKind v ms k' →
      k.storeKey = k'.storeKey → k = k' := by
  rcases grows_or_not p ps c with grows | known
  · have there : ∀ m ∈ ms, m.after.isSome = true := by
      intro m hm
      obtain ⟨call, on, makes⟩ := made m hm
      exact makes.after_isSome (grows call on)
    intro k k' hk hk'
    exact after k k' (path.isSome_of_growing there hk) (path.isSome_of_growing there hk')
  · have there : ∀ m ∈ ms, m.before.isSome = true := by
      intro m hm
      obtain ⟨call, on, makes⟩ := made m hm
      exact makes.before_isSome (known call on)
    intro k k' hk hk'
    exact before k k' (path.isSome_of_shrinking there hk) (path.isSome_of_shrinking there hk')

end NodeCall

namespace Archive

open WriteQueue

variable {a : Archive}

theorem queue_storage (w : RecordWrite) (a : Archive) : (a.queue w).1.storage = a.storage := by
  unfold queue
  split <;> rfl

theorem queueAll_storage (ws : List RecordWrite) (a : Archive) :
    (a.queueAll ws).1.storage = a.storage := by
  induction ws generalizing a with
  | nil => rfl
  | cons w ws ih => exact (ih _).trans (queue_storage w a)

theorem queue_writes {w : RecordWrite} (kept : ∀ w', dropped w' ∉ (a.queue w).2) :
    (a.queue w).1.backendWrites.writes =
        a.backendWrites.writes ++ ([w].filter fun w => !w.isOfPin).map RecordWrite.storeWrite ∧
      (a.queue w).1.pinWrites.writes =
        a.pinWrites.writes ++ ([w].filter RecordWrite.isOfPin).map RecordWrite.storeWrite := by
  unfold queue at kept ⊢
  cases ofPin : w.isOfPin with
  | true =>
    rw [ofPin] at kept
    simp [ofPin, writes_enqueue (kept w.storeWrite)]
  | false =>
    rw [ofPin] at kept
    simp [ofPin, writes_enqueue (kept w.storeWrite)]

theorem queueAll_writes {ws : List RecordWrite} (kept : ∀ w, dropped w ∉ (a.queueAll ws).2) :
    (a.queueAll ws).1.backendWrites.writes =
        a.backendWrites.writes ++ (ws.filter fun w => !w.isOfPin).map RecordWrite.storeWrite ∧
      (a.queueAll ws).1.pinWrites.writes =
        a.pinWrites.writes ++ (ws.filter RecordWrite.isOfPin).map RecordWrite.storeWrite := by
  induction ws generalizing a with
  | nil => simp [queueAll]
  | cons w ws ih =>
    have first := queue_writes fun w' hw => kept w' (List.mem_append_left _ hw)
    have rest := @ih (a.queue w).1 fun w' hw => kept w' (List.mem_append_right _ hw)
    constructor
    · rw [queueAll, rest.1, first.1, List.append_assoc, ← List.map_append, ← List.filter_append]
      rfl
    · rw [queueAll, rest.2, first.2, List.append_assoc, ← List.map_append, ← List.filter_append]
      rfl

end Archive

namespace Node

open StoreWrite WriteQueue

variable {n : Node} {c : Contents}

structure Keeps (n : Node) (c : Contents) : Prop where
  storage : n.storage = .memory ⟨c, true⟩
  keyed : n.state.Keyed
  reads : ∀ k b, n.state.registry.view k = some b → b.drain.Reads
  backends : CatchesUp backendFiling n.state.registry.view n.backendWrites.writes c.found
  pins : CatchesUp pinFiling n.state.pins.view n.pinWrites.writes c.found

theorem Keeps.fresh (settings : Settings) : Keeps (fresh settings (.memory .empty)) .empty where
  storage := rfl
  keyed := ⟨Table.keyed_empty, Table.keyed_empty⟩
  reads _ _ h := nomatch h
  backends := ⟨⟨fun _ _ h => (nomatch h), fun _ _ _ h => (nomatch h)⟩, fun _ h => (nomatch h)⟩
  pins := ⟨⟨fun _ _ h => (nomatch h), fun _ _ _ h => (nomatch h)⟩, fun _ h => (nomatch h)⟩

theorem outside_pins {ws : List StoreWrite}
    (h : ∀ w ∈ ws, startsWith backendFiling.folder w.key = true) :
    ∀ w ∈ ws, startsWith pinFiling.folder w.key = false := fun w hw => folders_apart (h w hw)

theorem outside_backends {ws : List StoreWrite}
    (h : ∀ w ∈ ws, startsWith pinFiling.folder w.key = true) :
    ∀ w ∈ ws, startsWith backendFiling.folder w.key = false := by
  intro w hw
  refine Bool.eq_false_iff.2 fun backend => ?_
  have pin := folders_apart backend
  rw [show startsWith Pin.storeFolder w.key = true from h w hw] at pin
  cases pin

theorem Keeps.call (h : Keeps n c) {now : Instant} {call : NodeCall}
    (signals : ∀ signal, call.Signals signal → signal.Reads)
    (kept : ∀ w, dropped w ∉ (n.act (.call now call)).2.log)
    (before : StoreKeysApart n.state.registry.view)
    (after : StoreKeysApart (n.act (.call now call)).1.state.registry.view) :
    Keeps (n.act (.call now call)).1 c := by
  have traced := call.operation_traced n.policy now n.state h.keyed
  obtain ⟨ms, made, path, -, writes⟩ := traced.1 h.keyed.registry
  obtain ⟨ps, -, pinPath, -, pinWrites⟩ := traced.2 h.keyed.pins
  have present : n.storage.isPresent = true := by rw [h.storage]; rfl
  have performed := perform_eq (call.operation_blind n.policy now) n
  rw [present] at performed
  rw [act, performed] at kept after ⊢
  have queued := Archive.queueAll_writes (a := n.archive) fun w hw =>
    kept w (List.mem_append_right _ hw)
  constructor
  · exact (Archive.queueAll_storage _ _).trans h.storage
  · exact ⟨path.keyed h.keyed.registry, pinPath.keyed h.keyed.pins⟩
  · refine path.forall (fun b => b.drain.Reads) h.reads fun m hm held => ?_
    obtain ⟨registryCall, on, makes⟩ := made m hm
    refine makes.reads (fun agentId signal same => ?_) held
    subst same
    exact signals signal on.signals
  · have caught := h.backends.extend path (NodeCall.storeKeys_on_path path made before after)
    rw [← writes] at caught
    exact queued.1 ▸ caught
  · have caught := h.pins.extend pinPath fun k k' _ _ same => Pin.storeKey_injective same
    rw [← pinWrites] at caught
    exact queued.2 ▸ caught

theorem Keeps.writeNext (h : Keeps n c) (w : Writer) : ∃ c', Keeps (n.writeNext w).1 c' := by
  unfold Node.writeNext
  cases next : (n.queueOf w).next? with
  | none => exact ⟨c, h⟩
  | some taken =>
    obtain ⟨place, q⟩ := taken
    let first := place.write?.toList
    have writes : (n.queueOf w).writes = first ++ q.writes := writes_next? next
    have storage : (attempt Storage.timeLimit ⟨n.storage, [], []⟩ place).storage =
        .memory ⟨first.foldl into c, true⟩ := by
      rw [h.storage]
      exact attempt_storage _ _ _ c place
    refine ⟨first.foldl into c, ?_⟩
    cases w with
    | backends =>
      have backends := h.backends
      rw [show n.backendWrites.writes = first ++ q.writes from writes] at backends
      have ours : ∀ w ∈ first, startsWith backendFiling.folder w.key = true := fun w hw =>
        backends.inFolder w (List.mem_append_left _ hw)
      refine ⟨storage, h.keyed, h.reads, ?_, ?_⟩
      · rw [found_foldl_into]
        exact backends.advance
      · rw [found_foldl_into]
        exact h.pins.elsewhere (outside_pins ours)
    | pins =>
      have pins := h.pins
      rw [show n.pinWrites.writes = first ++ q.writes from writes] at pins
      have ours : ∀ w ∈ first, startsWith pinFiling.folder w.key = true := fun w hw =>
        pins.inFolder w (List.mem_append_left _ hw)
      refine ⟨storage, h.keyed, h.reads, ?_, ?_⟩
      · rw [found_foldl_into]
        exact h.backends.elsewhere (outside_backends ours)
      · rw [found_foldl_into]
        exact pins.advance

theorem Keeps.flush (h : Keeps n c) : ∃ c', Keeps n.flush.1 c' := by
  refine ⟨n.pinWrites.writes.foldl into (n.backendWrites.writes.foldl into c), ?_⟩
  constructor
  · change (drain _ (drain _ n.storage n.backendWrites).storage n.pinWrites).storage = _
    rw [h.storage, drain_storage, drain_storage]
  · exact h.keyed
  · exact h.reads
  · rw [found_foldl_into, found_foldl_into]
    exact h.backends.done.elsewhere (outside_backends h.pins.inFolder)
  · rw [found_foldl_into, found_foldl_into]
    exact (h.pins.elsewhere (outside_pins h.backends.inFolder)).done

theorem Keeps.act (h : Keeps n c) {a : NodeAction}
    (signals : ∀ signal, a.Signals signal → signal.Reads)
    (kept : ∀ w, dropped w ∉ (n.act a).2.log) (before : StoreKeysApart n.state.registry.view)
    (after : StoreKeysApart (n.act a).1.state.registry.view) : ∃ c', Keeps (n.act a).1 c' := by
  cases a with
  | call now call =>
    exact ⟨c, h.call (fun signal hs => signals signal (.call now hs)) kept before after⟩
  | arrange order =>
    refine ⟨c, h.storage, ⟨?_, h.keyed.pins⟩, ?_, ?_, h.pins⟩
    · rw [Node.act, Registry.Keyed, order.view_arrange]
      exact h.keyed.registry
    · rw [Node.act, order.view_arrange]
      exact h.reads
    · rw [Node.act, order.view_arrange]
      exact h.backends
  | ask w caller =>
    cases w with
    | backends =>
      refine ⟨c, h.storage, h.keyed, h.reads, ?_, h.pins⟩
      exact writes_flush caller n.backendWrites ▸ h.backends
    | pins =>
      refine ⟨c, h.storage, h.keyed, h.reads, h.backends, ?_⟩
      exact writes_flush caller n.pinWrites ▸ h.pins
  | write w => exact h.writeNext w
  | flush => exact h.flush

theorem Keeps.run {actions : List NodeAction} (h : Keeps n c)
    (signals : ∀ a ∈ actions, ∀ signal, a.Signals signal → signal.Reads)
    (kept : ∀ w, dropped w ∉ (run actions n).2.log)
    (apart : ∀ earlier, earlier <+: actions →
      StoreKeysApart (Node.run earlier n).1.state.registry.view) :
    ∃ c', Keeps (Node.run actions n).1 c' := by
  induction actions generalizing n c with
  | nil => exact ⟨c, h⟩
  | cons a as ih =>
    have before := apart [] List.nil_prefix
    have after := apart [a] (List.cons_prefix_cons.2 ⟨rfl, List.nil_prefix⟩)
    obtain ⟨c', h'⟩ := h.act (signals a List.mem_cons_self)
      (fun w hw => kept w (List.mem_append_left _ hw)) before after
    refine ih h' (fun b hb => signals b (List.mem_cons_of_mem a hb))
      (fun w hw => kept w (List.mem_append_right _ hw)) fun earlier hp => ?_
    exact apart (a :: earlier) (List.cons_prefix_cons.2 ⟨rfl, hp⟩)

end Node

end HealthConsensus
