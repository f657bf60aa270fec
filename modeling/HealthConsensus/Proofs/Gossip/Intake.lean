import HealthConsensus.Gossip.Handler
import HealthConsensus.Proofs.Operation
import Mathlib.Logic.ExistsUnique

namespace HealthConsensus

namespace Handler

open Operation NodeState

def Spares (n : NodeState) (_ : Effects) (n' : NodeState) : Prop :=
  n'.counters.badFrames = n.counters.badFrames ∧
    n'.counters.decodeErrors = n.counters.decodeErrors ∧
    n'.counters.queueFull = n.counters.queueFull

theorem spares_law : Law Spares where
  silent _ _ := ⟨rfl, rfl, rfl⟩
  comp h h' := ⟨h'.1.trans h.1, h'.2.1.trans h.2.1, h'.2.2.trans h.2.2⟩

variable {p : NodePolicy} {now : Instant}

theorem onRegistry_spares {α : Type} (a : Operation Registry α) (n : NodeState) :
    (onRegistry a).Obeys Spares n := ⟨rfl, rfl, rfl⟩

theorem onPins_spares {α : Type} (a : Operation Pins α) (n : NodeState) :
    (onPins a).Obeys Spares n := ⟨rfl, rfl, rfl⟩

theorem reject_spares (agentId kind fingerprint : String) (e : Error) (n : NodeState) :
    (reject agentId kind fingerprint e).Obeys Spares n :=
  spares_law.bind ⟨rfl, rfl, rfl⟩ (spares_law.log _ _)

theorem claim_spares (agentId region : String) (c : BackendClaim) (n : NodeState) :
    (claim p now agentId region c).Obeys Spares n := by
  apply spares_law.bind (onRegistry_spares _ n)
  split
  · exact spares_law.pure _ _
  · exact spares_law.log _ _

theorem forecast_spares (agentId : String) (f : Option Forecast) (n : NodeState) :
    (forecast p now agentId f).Obeys Spares n := by
  cases f with
  | none => exact spares_law.pure _ _
  | some f => exact spares_law.bind (onRegistry_spares _ n) (spares_law.log _ _)

theorem heartbeat_spares (agentId region : String) (h : Heartbeat) (n : NodeState) :
    (heartbeat p now agentId region h).Obeys Spares n := by
  apply Obeys.readState
  split
  · exact reject_spares _ _ _ _ n
  · apply spares_law.bind (spares_law.forEach (fun c _ n => claim_spares _ _ c n) n)
    exact spares_law.bind (forecast_spares _ _ _) ⟨rfl, rfl, rfl⟩

theorem ifAdmitted_spares {agentId kind : String} {next : Operation NodeState Unit} {n : NodeState}
    (h : next.Obeys Spares n) : (ifAdmitted p agentId kind next).Obeys Spares n := by
  apply Obeys.readState
  split
  · exact h
  · exact spares_law.bind ⟨rfl, rfl, rfl⟩ (spares_law.log _ _)

theorem register_spares (agentId region : String) (r : RegisterRequest) (n : NodeState) :
    (register p now agentId region r).Obeys Spares n := by
  apply ifAdmitted_spares
  apply spares_law.bind (onRegistry_spares _ n)
  split
  · exact ⟨rfl, rfl, rfl⟩
  · exact spares_law.log _ _

theorem deregister_spares (agentId : String) (r : DeregisterRequest) (n : NodeState) :
    (deregister p agentId r).Obeys Spares n := by
  apply ifAdmitted_spares
  apply spares_law.bind (onRegistry_spares _ n)
  split
  · exact ⟨rfl, rfl, rfl⟩
  · exact spares_law.log _ _

theorem agentAuth_spares (agentId : String) (r : AuthRequest) (n : NodeState) :
    (agentAuth p now agentId r).Obeys Spares n := by
  apply spares_law.bind (onPins_spares _ n)
  split
  · exact ⟨rfl, rfl, rfl⟩
  · exact spares_law.bind ⟨rfl, rfl, rfl⟩ (spares_law.log _ _)

theorem handle_spares (m : Message) (n : NodeState) : (handle p now m).Obeys Spares n := by
  unfold handle
  split
  · exact heartbeat_spares _ _ _ n
  · exact register_spares _ _ _ n
  · exact deregister_spares _ _ n
  · exact agentAuth_spares _ _ n
  · exact spares_law.bind ⟨rfl, rfl, rfl⟩ (spares_law.log _ _)

end Handler

namespace Receiver

def body? (key datagram : Bytes) : Option Bytes := (Frame.decode key datagram).toOption

def read? (key datagram : Bytes) : Option Message :=
  (body? key datagram).bind fun body => (Message.decode body).toOption

def isUndecodable (key datagram : Bytes) : Bool :=
  (body? key datagram).any fun body => (Message.decode body).toOption.isNone

end Receiver

structure Intake where
  key : Bytes
  capacity : Nat
  queue : List Message
  current : Option Message
  taken : List Message
  node : NodeState

inductive IntakeStep where
  | arrive (datagram : Bytes)
  | take
  | handle (now : Instant)
  | meanwhile (registry : Registry) (pins : Pins)

def IntakeStep.datagram? : IntakeStep → Option Bytes
  | arrive datagram => some datagram
  | _ => none

inductive Fate where
  | badFrame
  | undecodable
  | refused
  | queued (m : Message)

namespace Intake

open Receiver

def start (key : Bytes) (capacity : Nat) (node : NodeState) : Intake :=
  ⟨key, capacity, [], none, [], node⟩

def receiver (s : Intake) : Receiver := ⟨s.key, s.capacity, s.queue, true, s.node.counters⟩

def withReceiver (r : Receiver) (s : Intake) : Intake :=
  { s with queue := r.queue, node := { s.node with counters := r.counters } }

def step (p : NodePolicy) (s : Intake) : IntakeStep → Intake
  | .arrive datagram => s.withReceiver (s.receiver.receive datagram)
  | .take =>
    match s.current, s.receiver.take with
    | none, (some m, r) => { s.withReceiver r with current := some m, taken := s.taken ++ [m] }
    | _, _ => s
  | .handle now =>
    match s.current with
    | some m => { s with current := none, node := (Handler.handle p now m s.node).state }
    | none => s
  | .meanwhile registry pins => { s with node := { s.node with registry, pins } }

def run (p : NodePolicy) (steps : List IntakeStep) (s : Intake) : Intake := steps.foldl (step p) s

def count (f : Counters → Counters) (s : Intake) : Intake :=
  { s with node := { s.node with counters := f s.node.counters } }

def meet (s : Intake) : Fate → Intake
  | .badFrame => s.count fun c => { c with badFrames := c.badFrames + 1 }
  | .undecodable => s.count fun c => { c with decodeErrors := c.decodeErrors + 1 }
  | .refused => s.count fun c => { c with queueFull := c.queueFull + 1 }
  | .queued m => { s with queue := s.queue ++ [m] }

/-- The fate of a datagram, by its frame, its body and the messages that are pending. -/
inductive Meets (s : Intake) (datagram : Bytes) : Fate → Prop
  | badFrame (e : Error) : Frame.decode s.key datagram = .error e → Meets s datagram .badFrame
  | undecodable (body : Bytes) (e : Error) : Frame.decode s.key datagram = .ok body →
      Message.decode body = .error e → Meets s datagram .undecodable
  | refused (body : Bytes) (m : Message) : Frame.decode s.key datagram = .ok body →
      Message.decode body = .ok m → s.queue.length = s.capacity → Meets s datagram .refused
  | queued (body : Bytes) (m : Message) : Frame.decode s.key datagram = .ok body →
      Message.decode body = .ok m → s.queue.length < s.capacity → Meets s datagram (.queued m)

structure Accounted (s : Intake) (datagram : Bytes) (s' : Intake) : Prop where
  once : ∃! fate, s' = s.meet fate
  fate : ∀ fate, s' = s.meet fate ↔ Meets s datagram fate
  registry : s'.node.registry = s.node.registry
  pins : s'.node.pins = s.node.pins

def offer? (s : Intake) (x : IntakeStep) : Option (Message × Bool) :=
  (x.datagram?.bind (read? s.key)).map fun m => (m, decide (s.queue.length < s.capacity))

def offers (p : NodePolicy) : List IntakeStep → Intake → List (Message × Bool)
  | [], _ => []
  | x :: xs, s => (s.offer? x).toList ++ offers p xs (s.step p x)

structure Balances (s : Intake) (datagrams : List Bytes) (offers : List (Message × Bool))
    (s' : Intake) : Prop where
  key : s'.key = s.key
  capacity : s'.capacity = s.capacity
  offered : offers.map Prod.fst = datagrams.filterMap (read? s.key)
  queued : s'.taken ++ s'.queue = s.taken ++ s.queue ++ (offers.filter Prod.snd).map Prod.fst
  badFrames : s'.node.counters.badFrames = s.node.counters.badFrames +
    .ofNat (datagrams.countP fun d => (body? s.key d).isNone)
  decodeErrors : s'.node.counters.decodeErrors = s.node.counters.decodeErrors +
    .ofNat (datagrams.countP (isUndecodable s.key))
  queueFull : s'.node.counters.queueFull = s.node.counters.queueFull +
    .ofNat (offers.countP fun o => !o.2)

variable {p : NodePolicy} {s s' s'' : Intake} {datagram : Bytes} {f : Fate}

theorem meet_injective : s.meet.Injective := by
  intro f f' h
  have counters := congrArg (fun s : Intake => s.node.counters) h
  have queue := congrArg Intake.queue h
  cases f <;> cases f' <;> simp_all [meet, count]

theorem exists_meets (h : s.queue.length ≤ s.capacity) (datagram : Bytes) :
    ∃ f, Meets s datagram f := by
  cases frame : Frame.decode s.key datagram with
  | error e => exact ⟨_, .badFrame e frame⟩
  | ok body =>
    cases read : Message.decode body with
    | error e => exact ⟨_, .undecodable body e frame read⟩
    | ok m =>
      rcases Nat.lt_or_eq_of_le h with room | full
      · exact ⟨_, .queued body m frame read room⟩
      · exact ⟨_, .refused body m frame read full⟩

theorem Meets.step_eq (h : Meets s datagram f) : s.step p (.arrive datagram) = s.meet f := by
  cases h with
  | badFrame e frame =>
    simp only [step, receive, receiver, frame]
    rfl
  | undecodable body e frame read =>
    simp only [step, receive, receiver, frame, read]
    rfl
  | refused body m frame read full =>
    simp [step, receive, receiver, enqueue, frame, read, full]
    rfl
  | queued body m frame read room =>
    simp [step, receive, receiver, enqueue, frame, read, room]
    rfl

theorem accounted (h : s.queue.length ≤ s.capacity) :
    Accounted s datagram (s.step p (.arrive datagram)) := by
  obtain ⟨f, met⟩ := exists_meets h datagram
  have fate (f' : Fate) : s.step p (.arrive datagram) = s.meet f' ↔ Meets s datagram f' := by
    constructor
    · intro same
      rwa [← meet_injective (met.step_eq.symm.trans same)]
    · exact Meets.step_eq
  refine ⟨⟨f, met.step_eq, fun f' same => ?_⟩, fate, ?_, ?_⟩
  · exact meet_injective (same.symm.trans met.step_eq)
  · rw [met.step_eq]
    cases f <;> rfl
  · rw [met.step_eq]
    cases f <;> rfl

theorem step_bounded (x : IntakeStep) (h : s.queue.length ≤ s.capacity) :
    (s.step p x).queue.length ≤ (s.step p x).capacity := by
  cases x with
  | arrive datagram =>
    obtain ⟨f, met⟩ := exists_meets h datagram
    rw [met.step_eq]
    cases met with
    | queued body m frame read room =>
      simpa [meet]
    | _ => exact h
  | take =>
    simp only [step, receiver, Receiver.take]
    cases s.current <;> cases hq : s.queue <;> simp_all [withReceiver]
    omega
  | handle now => cases hc : s.current <;> simpa [step, hc]
  | meanwhile registry pins => exact h

theorem run_bounded (steps : List IntakeStep) (h : s.queue.length ≤ s.capacity) :
    (run p steps s).queue.length ≤ (run p steps s).capacity := by
  induction steps generalizing s with
  | nil => exact h
  | cons x xs ih => exact ih (step_bounded x h)

namespace Balances

theorem refl : Balances s [] [] s := by
  constructor <;> simp

theorem trans {ds es : List Bytes} {os os' : List (Message × Bool)} (h : Balances s ds os s')
    (h' : Balances s' es os' s'') : Balances s (ds ++ es) (os ++ os') s'' where
  key := h'.key.trans h.key
  capacity := h'.capacity.trans h.capacity
  offered := by
    rw [List.map_append, List.filterMap_append, h.offered, h'.offered, h.key]
  queued := by
    simp only [h'.queued, h.queued, List.filter_append, List.map_append, List.append_assoc]
  badFrames := by
    rw [h'.badFrames, h.badFrames, h.key, List.countP_append, UInt64.ofNat_add, UInt64.add_assoc]
  decodeErrors := by
    rw [h'.decodeErrors, h.decodeErrors, h.key, List.countP_append, UInt64.ofNat_add,
      UInt64.add_assoc]
  queueFull := by
    rw [h'.queueFull, h.queueFull, List.countP_append, UInt64.ofNat_add, UInt64.add_assoc]

theorem silent (key : s'.key = s.key) (capacity : s'.capacity = s.capacity)
    (queued : s'.taken ++ s'.queue = s.taken ++ s.queue)
    (counters : Handler.Spares s.node .none s'.node) : Balances s [] [] s' where
  key := key
  capacity := capacity
  offered := rfl
  queued := by simpa
  badFrames := by simpa using counters.1
  decodeErrors := by simpa using counters.2.1
  queueFull := by simpa using counters.2.2

theorem arrive (h : s.queue.length ≤ s.capacity) :
    Balances s [datagram] (s.offer? (.arrive datagram)).toList (s.step p (.arrive datagram)) := by
  obtain ⟨f, met⟩ := exists_meets h datagram
  rw [met.step_eq]
  cases met with
  | badFrame e frame =>
    have opened : body? s.key datagram = none := by rw [body?, frame, Except.toOption]
    constructor <;> simp [offer?, IntakeStep.datagram?, read?, isUndecodable, opened, meet, count]
  | undecodable body e frame read =>
    have opened : body? s.key datagram = some body := by rw [body?, frame, Except.toOption]
    constructor <;> simp [offer?, IntakeStep.datagram?, read?, isUndecodable, opened, read, meet,
      count, Except.toOption]
  | refused body m frame read full =>
    have opened : body? s.key datagram = some body := by rw [body?, frame, Except.toOption]
    constructor <;> simp [offer?, IntakeStep.datagram?, read?, isUndecodable, opened, read, full,
      meet, count, Except.toOption]
  | queued body m frame read room =>
    have opened : body? s.key datagram = some body := by rw [body?, frame, Except.toOption]
    constructor <;> simp [offer?, IntakeStep.datagram?, read?, isUndecodable, opened, read, room,
      meet, Except.toOption]

theorem step (x : IntakeStep) (h : s.queue.length ≤ s.capacity) :
    Balances s x.datagram?.toList (s.offer? x).toList (s.step p x) := by
  cases x with
  | arrive datagram => exact arrive h
  | take =>
    apply silent <;> simp only [Intake.step, receiver, Receiver.take, Handler.Spares] <;>
      cases s.current <;> cases hq : s.queue <;> simp [withReceiver, hq]
  | handle now =>
    cases hc : s.current with
    | none =>
      rw [Intake.step, hc]
      exact refl
    | some m =>
      apply silent <;> simp only [Intake.step, hc]
      exact Handler.handle_spares m s.node
  | meanwhile registry pins => exact silent rfl rfl rfl ⟨rfl, rfl, rfl⟩

theorem run (steps : List IntakeStep) (h : s.queue.length ≤ s.capacity) :
    Balances s (steps.filterMap IntakeStep.datagram?) (offers p steps s) (s.run p steps) := by
  -- from the front, because the offers of the later steps depend on what the first one leaves
  induction steps generalizing s with
  | nil => exact refl
  | cons x xs ih =>
    have whole : Balances s _ _ (s.run p (x :: xs)) := (step x h).trans (ih (step_bounded x h))
    rw [List.filterMap_cons]
    cases there : x.datagram? <;> simpa [there, offers] using whole

end Balances

/-- Each datagram has one fate, the handler gets what was queued in the order of arrival, and what
is pending stays within the capacity, however the arrivals and the work of the handler alternate. -/
theorem run_accounts (p : NodePolicy) (key : Bytes) (capacity : Nat) (node : NodeState)
    (steps : List IntakeStep) :
    let first := start key capacity node
    let last := run p steps first
    (∀ before datagram after, steps = before ++ .arrive datagram :: after →
        Accounted (run p before first) datagram (step p (run p before first) (.arrive datagram))) ∧
      Balances first (steps.filterMap IntakeStep.datagram?) (offers p steps first) last ∧
      last.queue.length ≤ capacity := by
  intro first last
  have empty : first.queue.length ≤ first.capacity := Nat.zero_le _
  have balances : Balances first _ _ last := Balances.run steps empty
  refine ⟨fun before datagram _ _ => accounted (run_bounded before empty), balances, ?_⟩
  calc last.queue.length ≤ last.capacity := run_bounded steps empty
    _ = capacity := balances.capacity

def openPolicy : NodePolicy := ⟨RegistrySettings.policy {}, AuthSettings.policy {}, false⟩

def ninesKey : Bytes := List.replicate 32 9

def ninesFrame (body : Bytes) : Bytes := Frame.encode ninesKey (List.replicate 12 0) body

def ofKind (kind : String) : Bytes := ninesFrame (Bytes.ofString ("\x7b\"type\":\"" ++ kind ++ "\"\x7d"))

def crowdedSteps : List IntakeStep :=
  [.arrive [1, 2, 3], .arrive (ninesFrame [1, 2, 3]), .arrive (ofKind "a"), .arrive (ofKind "b"),
    .take, .arrive (ofKind "c"), .handle .epoch]

def crowded : Intake := run openPolicy crowdedSteps (start ninesKey 1 ⟨.empty, .empty, {}⟩)

theorem run_accounts_crowded :
    crowded.queue.length ≤ 1 ∧
      crowded.taken.map (fun m => m.payload.kind) = ["a"] ∧
      crowded.queue.map (fun m => m.payload.kind) = ["c"] ∧
      crowded.node.counters = { unknown := 1, badFrames := 1, decodeErrors := 1, queueFull := 1 } :=
  ⟨(run_accounts openPolicy ninesKey 1 ⟨.empty, .empty, {}⟩ crowdedSteps).2.2, by decide +kernel⟩

end Intake

end HealthConsensus
