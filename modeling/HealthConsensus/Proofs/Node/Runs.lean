import HealthConsensus.Proofs.Node.Calls
import HealthConsensus.Proofs.Node.Keeping

namespace HealthConsensus

open Operation

inductive NodeCall where
  | message (m : Message)
  | registry (c : RegistryCall)
  | pins (c : PinsCall)
  | checkAll (script : Validator.Script) (s : ValidatorSettings)
  | checkBackend (script : Validator.Script) (s : ValidatorSettings) (k : BackendKey)
  | request (ctx : AdminContext) (r : AdminRequest)

inductive NodeAnswer where
  | handled
  | registry (reply : RegistryReply)
  | pins (reply : PinsReply)
  | checkedAll (sum : ValidationSummary)
  | checked (verdict : Option (Except Error Verdict))
  | response (r : AdminResponse)
  | loaded (count : Except Error Nat)

theorem RegistryCall.operation_blind {p : RegistryPolicy} {now : Instant} (c : RegistryCall) :
    (c.operation p now).Blind := by
  cases c with
  | register x => exact (Registry.register_blind x).reply _
  | deregister k => exact (Registry.deregister_blind k).reply _
  | validate k healthy error latency => exact (Registry.validate_blind _ _ _ _).reply _
  | setOverride k healthy reason operator => exact (Registry.setOverride_blind _ _ _ _).reply _
  | clearOverride k => exact (Registry.clearOverride_blind k).reply _
  | drain agentId signal => exact (Registry.drain_blind agentId signal).reply _
  | sweep => exact Registry.sweep_blind.reply _

theorem PinsCall.operation_blind {p : AdmissionPolicy} {now : Instant} (c : PinsCall) :
    (c.operation p now).Blind := by
  cases c with
  | authenticate agentId pem token => exact (Pins.authenticate_blind _ _ _).reply _
  | rotate agentId pem current => exact (Pins.rotate_blind _ _ _).reply _
  | revoke agentId reason => exact (Pins.revoke_blind _ _).reply _
  | unpin agentId => exact (Pins.unpin_blind _).reply _
  | verify agentId fingerprint => exact blind_state.reply _
  | isAdmitted agentId => exact blind_state.reply _
  | find agentId => exact blind_state.reply _
  | list => exact blind_state.reply _
  | expiring within => exact blind_state.reply _

namespace NodeCall

open NodeState

def operation (p : NodePolicy) (now : Instant) : NodeCall → Operation NodeState Unit
  | message m => Handler.handle p now m
  | registry c => do let _ ← onRegistry (c.operation p.registry now)
  | pins c => do let _ ← onPins (c.operation p.admission now)
  | checkAll script s => do let _ ← onRegistry (Validator.sweep p.registry now script s)
  | checkBackend script s k => do
    let _ ← onRegistry (Validator.checkBackend p.registry now script s k)
  | request ctx r => do let _ ← Admin.serve p now ctx r

def answered (p : NodePolicy) (now : Instant) : NodeCall → Operation NodeState NodeAnswer
  | message m => do
    Handler.handle p now m
    return .handled
  | registry c => do return .registry (← onRegistry (c.operation p.registry now))
  | pins c => do return .pins (← onPins (c.operation p.admission now))
  | checkAll script s => do
    return .checkedAll (← onRegistry (Validator.sweep p.registry now script s))
  | checkBackend script s k => do
    return .checked (← onRegistry (Validator.checkBackend p.registry now script s k))
  | request ctx r => do return .response (← Admin.serve p now ctx r)

theorem answered_blind (p : NodePolicy) (now : Instant) (c : NodeCall) :
    (c.answered p now).Blind := by
  cases c with
  | message m => exact (Handler.handle_blind m).bind fun _ => blind_pure _
  | registry c => exact (onRegistry_blind c.operation_blind).reply _
  | pins c => exact (onPins_blind c.operation_blind).reply _
  | checkAll script s => exact (onRegistry_blind (Validator.sweep_blind script s)).reply _
  | checkBackend script s k =>
    exact (onRegistry_blind (Validator.checkBackend_blind script s k)).reply _
  | request ctx r => exact (Admin.serve_blind r).reply _

theorem operation_blind (p : NodePolicy) (now : Instant) (c : NodeCall) :
    (c.operation p now).Blind := by
  cases c with
  | message m => exact Handler.handle_blind m
  | registry c => exact (onRegistry_blind c.operation_blind).bind fun _ => blind_pure _
  | pins c => exact (onPins_blind c.operation_blind).bind fun _ => blind_pure _
  | checkAll script s =>
    exact (onRegistry_blind (Validator.sweep_blind script s)).bind fun _ => blind_pure _
  | checkBackend script s k =>
    exact (onRegistry_blind (Validator.checkBackend_blind script s k)).bind fun _ => blind_pure _
  | request ctx r => exact (Admin.serve_blind r).bind fun _ => blind_pure _

theorem answered_quietly (p : NodePolicy) (now : Instant) (c : NodeCall) (n : NodeState) :
    c.operation p now n = ⟨(), (c.answered p now n).state, (c.answered p now n).effects⟩ := by
  cases c <;> simp [answered, operation]

inductive OnRegistry (p : NodePolicy) (ps : Pins) : NodeCall → RegistryCall → Prop
  | message (m : Message) (c : RegistryCall) : (p.requireAuth = true → m.Admitted ps) → m.Asks c →
      OnRegistry p ps (message m) c
  | registry (c : RegistryCall) : OnRegistry p ps (registry c) c
  | checkAll (script : Validator.Script) (s : ValidatorSettings) (c : RegistryCall) : c.IsCheck →
      OnRegistry p ps (checkAll script s) c
  | checkBackend (script : Validator.Script) (s : ValidatorSettings) (k : BackendKey)
      (c : RegistryCall) : c.IsCheck → OnRegistry p ps (checkBackend script s k) c
  | request (ctx : AdminContext) (r : AdminRequest) (c : RegistryCall) : c.IsOperator →
      OnRegistry p ps (request ctx r) c

inductive OnPins : NodeCall → PinsCall → Prop
  | message (m : Message) (c : PinsCall) : m.Presents c → OnPins (message m) c
  | pins (c : PinsCall) : OnPins (pins c) c
  | request (ctx : AdminContext) (r : AdminRequest) (c : PinsCall) : c.IsOperator →
      OnPins (request ctx r) c

theorem operation_traced (p : NodePolicy) (now : Instant) (c : NodeCall) (n : NodeState) :
    (c.operation p now).Obeys
      (Traced (Registry.MadeBy p.registry now (c.OnRegistry p n.pins))
        (Pins.MadeBy p.admission now c.OnPins)) n := by
  have law := traced_law (Registry.MadeBy p.registry now (c.OnRegistry p n.pins))
    (Pins.MadeBy p.admission now c.OnPins)
  cases c with
  | message m =>
    refine (Handler.handle_grants m n).mono fun _ _ _ h => h.mono ?_ ?_
    · exact fun _ ⟨c, asks, hm⟩ => ⟨c, .message m c asks.1 asks.2, hm⟩
    · exact fun _ ⟨c, presents, hm⟩ => ⟨c, .message m c presents, hm⟩
  | registry c =>
    refine law.bind (onRegistry_traced ?_) (law.pure _ _)
    exact (c.operation_traced p.registry now n.registry).mono fun _ _ _ h =>
      h.mono fun _ hm => ⟨c, .registry c, hm⟩
  | pins c =>
    refine law.bind (onPins_traced ?_) (law.pure _ _)
    exact (Pins.operation_traced c n.pins).mono fun _ _ _ h =>
      h.mono fun _ hm => ⟨c, .pins c, hm⟩
  | checkAll script s =>
    refine law.bind (onRegistry_traced ?_) (law.pure _ _)
    exact (Validator.sweep_checks script s n.registry).mono fun _ _ _ h =>
      h.mono fun _ ⟨c, check, hm⟩ => ⟨c, .checkAll script s c check, hm⟩
  | checkBackend script s k =>
    refine law.bind (onRegistry_traced ?_) (law.pure _ _)
    exact (Validator.checkBackend_checks script s k n.registry).mono fun _ _ _ h =>
      h.mono fun _ ⟨c, check, hm⟩ => ⟨c, .checkBackend script s k c check, hm⟩
  | request ctx r =>
    refine law.bind ?_ (law.pure _ _)
    refine (Admin.serve_operates r n).mono fun _ _ _ h => h.mono ?_ ?_
    · exact fun _ ⟨c, operator, hm⟩ => ⟨c, .request ctx r c operator, hm⟩
    · exact fun _ ⟨c, operator, hm⟩ => ⟨c, .request ctx r c operator, hm⟩

end NodeCall

inductive Writer where
  | backends
  | pins
deriving DecidableEq

inductive NodeAction where
  | call (now : Instant) (c : NodeCall)
  | arrange (order : Table.Arrangement BackendKey Backend)
  | ask (w : Writer) (caller : Nat)
  | write (w : Writer)
  | flush

namespace Node

def queueOf (n : Node) : Writer → WriteQueue
  | .backends => n.backendWrites
  | .pins => n.pinWrites

def withQueue (n : Node) (q : WriteQueue) : Writer → Node
  | .backends => { n with backendWrites := q }
  | .pins => { n with pinWrites := q }

def writeNext (w : Writer) (n : Node) : Node × Observed :=
  match (n.queueOf w).next? with
  | none => (n, .nothing)
  | some (place, q) =>
    let done := WriteQueue.attempt Storage.timeLimit ⟨n.storage, [], []⟩ place
    ({ n with storage := done.storage }.withQueue q w, ⟨[], done.events, done.log⟩)

def act (n : Node) : NodeAction → Node × Observed
  | .call now c => (n.perform (c.operation n.policy now)).2
  | .arrange order =>
    ({ n with state := { n.state with registry := order.arrange n.state.registry } }, .nothing)
  | .ask w caller => (n.withQueue ((n.queueOf w).flush caller) w, .nothing)
  | .write w => n.writeNext w
  | .flush => n.flush

def run : List NodeAction → Node → Node × Observed
  | [], n => (n, .nothing)
  | a :: as, n =>
    let (n, seen) := n.act a
    let (n, later) := run as n
    (n, seen ++ later)

variable {n : Node}

@[simp] theorem withQueue_state (n : Node) (q : WriteQueue) (w : Writer) :
    (n.withQueue q w).state = n.state := by cases w <;> rfl

@[simp] theorem withQueue_settings (n : Node) (q : WriteQueue) (w : Writer) :
    (n.withQueue q w).settings = n.settings := by cases w <;> rfl

@[simp] theorem writeNext_state (w : Writer) (n : Node) : (n.writeNext w).1.state = n.state := by
  unfold writeNext
  split
  · rfl
  · exact withQueue_state _ _ _

@[simp] theorem writeNext_settings (w : Writer) (n : Node) :
    (n.writeNext w).1.settings = n.settings := by
  unfold writeNext
  split
  · rfl
  · exact withQueue_settings _ _ _

@[simp] theorem act_settings (n : Node) (a : NodeAction) : (n.act a).1.settings = n.settings := by
  cases a with
  | call now c => exact performAmid_settings (c.operation_blind _ _) _ _
  | arrange order => rfl
  | ask w caller => exact withQueue_settings _ _ _
  | write w => exact writeNext_settings w n
  | flush => rfl

theorem run_induction (good : Node → Prop) {actions : List NodeAction}
    (step : ∀ a ∈ actions, ∀ n, good n → good (n.act a).1) (h : good n) :
    good (run actions n).1 := by
  induction actions generalizing n with
  | nil => exact h
  | cons a as ih =>
    exact ih (fun b hb => step b (List.mem_cons_of_mem a hb)) (step a List.mem_cons_self n h)

end Node

end HealthConsensus
