import HealthConsensus.Proofs.Node.Runs
import HealthConsensus.Proofs.Node.Starting

namespace HealthConsensus

abbrev fails {α : Type} (result : Except Error α) : Bool := !result.isOk

namespace Operation

variable {σ τ α β : Type} {failed : α → Bool} {a : Operation σ α} {during : Operation σ Unit}
  {s : σ}

/-- If the operation fails, then nothing is done but what is done during it in any case. -/
def AtomicBut (failed : α → Bool) (a : Operation σ α) (during : Operation σ Unit) (s : σ) : Prop :=
  failed (a s).result = true → Alike (a s) (during s)

abbrev Atomic (failed : α → Bool) (a : Operation σ α) (s : σ) : Prop :=
  a.AtomicBut failed (done ()) s

theorem atomic_pure (x : α) (s : σ) : Atomic failed (pure x : Operation σ α) s :=
  fun _ => ⟨rfl, rfl, rfl⟩

theorem atomicBut_of_success (h : failed (a s).result = false) : a.AtomicBut failed during s := by
  intro failure
  rw [h] at failure
  cases failure

theorem atomicBut_read {f : σ → Operation σ α} {g : σ → Operation σ Unit}
    (h : (f s).AtomicBut failed (g s) s) : (state >>= f).AtomicBut failed (state >>= g) s :=
  fun failure => ⟨(h failure).state, (h failure).changes, (h failure).writes⟩

theorem atomic_read {f : σ → Operation σ α} (h : (f s).Atomic failed s) :
    (state >>= f).Atomic failed s := atomicBut_read (g := fun _ => done ()) h

theorem atomic_log {l : LogLine} (h : a.Atomic failed s) : (log l >>= fun _ => a).Atomic failed s :=
  fun failure => ⟨(h failure).state, (h failure).changes, (h failure).writes⟩

theorem atomicBut_after (h : a.Atomic failed (during s).state) :
    (during >>= fun _ => a).AtomicBut failed during s := by
  intro failure
  obtain ⟨state, changes, writes⟩ := h failure
  refine ⟨state, ?_, ?_⟩
  · simp [changes]
  · simp [writes]

theorem atomic_attempt {a : Operation σ (Except Error α)} {next : Except Error α → Operation σ β}
    {failed : β → Bool} (h : a.Atomic fails s)
    (failure : ∀ e, (next (.error e)).Atomic failed s)
    (success : ∀ x, (a s).result = .ok x → failed (next (.ok x) (a s).state).result = false) :
    (a >>= next).Atomic failed s := by
  cases result : (a s).result with
  | error e =>
    obtain ⟨same, changes, writes⟩ := h (by rw [result]; rfl)
    have same : (a s).state = s := same
    intro failed
    rw [bind_apply, result, same] at failed
    obtain ⟨later, laterChanges, laterWrites⟩ := failure e failed
    rw [bind_apply, result, same]
    refine ⟨later, ?_, ?_⟩
    · simp [changes, laterChanges]
    · simp [writes, laterWrites]
  | ok x =>
    apply atomicBut_of_success
    rw [bind_apply, result]
    exact success x result

theorem atomicBut_reply {f : α → β} {failed : β → Bool}
    (h : a.AtomicBut (fun x => failed (f x)) during s) :
    AtomicBut failed (do return f (← a)) during s := by
  intro failure
  obtain ⟨state, changes, writes⟩ := h failure
  refine ⟨state, ?_, ?_⟩
  · simpa using changes
  · simpa using writes

theorem atomicBut_on {part : τ → σ} {replace : σ → τ → τ} {t : τ}
    (h : a.AtomicBut failed during (part t)) :
    (a.on part replace).AtomicBut failed (during.on part replace) t := fun failure =>
  (h failure).on

end Operation

open Operation

def RegistryReply.failed : RegistryReply → Bool
  | done result => fails result
  | _ => false

def PinsReply.failed : PinsReply → Bool
  | pin result => fails result
  | done result => fails result
  | _ => false

def AdminResponse.failed (r : AdminResponse) : Bool := decide (400 ≤ r.status)

theorem Loader.load_atomic {κ ν : Type} [DecidableEq κ] {l : Loader κ ν}
    (listing : Option (Except Error (List (String × Bytes)))) (t : Table κ ν) :
    (l.load listing).Atomic fails t := by
  match listing with
  | none => exact atomic_pure _ _
  | some (.error e) => exact atomic_pure _ _
  | some (.ok records) => exact atomicBut_of_success rfl

namespace Registry

variable {p : RegistryPolicy} {now : Instant} {r : Registry}

theorem register_atomic (x : Registration) (r : Registry) :
    (register p now x).Atomic fails r := by
  unfold register
  split
  · exact atomic_pure _ _
  · split
    · exact atomic_pure _ _
    · apply atomic_read
      cases r.get? x.key with
      | some b => exact atomicBut_of_success rfl
      | none => exact atomicBut_of_success rfl

theorem onBackend_atomic (k : BackendKey) (change : Backend → Operation Registry Unit)
    (r : Registry) : (onBackend k change).Atomic fails r := by
  apply atomic_read
  cases r.get? k with
  | none => exact atomic_pure _ _
  | some b => exact atomicBut_of_success rfl

end Registry

theorem RegistryCall.operation_atomic (p : RegistryPolicy) (now : Instant) (c : RegistryCall)
    (r : Registry) : (c.operation p now).Atomic RegistryReply.failed r := by
  cases c with
  | register x => exact atomicBut_reply (Registry.register_atomic x r)
  | deregister k => exact atomicBut_reply (Registry.onBackend_atomic k _ r)
  | validate k healthy error latency => exact atomicBut_reply (Registry.onBackend_atomic k _ r)
  | setOverride k healthy reason operator => exact atomicBut_reply (Registry.onBackend_atomic k _ r)
  | clearOverride k => exact atomicBut_reply (Registry.onBackend_atomic k _ r)
  | drain agentId signal => exact atomicBut_of_success rfl
  | sweep => exact atomicBut_of_success rfl

namespace Pins

variable {p : AdmissionPolicy} {now : Instant} {ps : Pins}

theorem confirm_atomic (agentId : String) (c : Certificate) (pin : Pin) (ps : Pins) :
    (confirm now agentId c pin).Atomic fails ps := by
  unfold confirm
  split
  · exact atomic_log (atomic_pure _ _)
  · split
    · exact atomic_log (atomic_pure _ _)
    · exact atomicBut_of_success rfl

theorem firstContact_atomic (agentId pem token : String) (c : Certificate) (ps : Pins) :
    (firstContact p now agentId pem token c).Atomic fails ps := by
  unfold firstContact
  split
  · exact atomic_log (atomic_pure _ _)
  · exact atomicBut_of_success rfl

theorem authenticate_atomic (agentId pem token : String) (ps : Pins) :
    (authenticate p now agentId pem token).Atomic fails ps := by
  unfold authenticate
  split
  · exact atomic_pure _ _
  · split
    · exact atomic_pure _ _
    · next c _ =>
      apply atomic_read
      cases ps.get? agentId with
      | some pin => exact confirm_atomic agentId c pin ps
      | none => exact firstContact_atomic agentId pem token c ps

theorem rotate_atomic (agentId pem current : String) (ps : Pins) :
    (rotate p now agentId pem current).Atomic fails ps := by
  unfold rotate
  split
  · exact atomic_pure _ _
  · apply atomic_read
    cases ps.get? agentId with
    | none => exact atomic_pure _ _
    | some pin =>
      dsimp only
      split
      · exact atomic_pure _ _
      · split
        · exact atomic_log (atomic_pure _ _)
        · exact atomicBut_of_success rfl

theorem revoke_atomic (agentId reason : String) (ps : Pins) :
    (revoke now agentId reason).Atomic fails ps := by
  apply atomic_read
  cases ps.get? agentId with
  | none => exact atomic_pure _ _
  | some pin => exact atomicBut_of_success rfl

theorem unpin_atomic (agentId : String) (ps : Pins) : (unpin agentId).Atomic fails ps := by
  apply atomic_read
  cases ps.get? agentId with
  | none => exact atomic_pure _ _
  | some pin => exact atomicBut_of_success rfl

end Pins

theorem PinsCall.operation_atomic (p : AdmissionPolicy) (now : Instant) (c : PinsCall) (ps : Pins) :
    (c.operation p now).Atomic PinsReply.failed ps := by
  cases c with
  | authenticate agentId pem token =>
    exact atomicBut_reply (Pins.authenticate_atomic agentId pem token ps)
  | rotate agentId pem current => exact atomicBut_reply (Pins.rotate_atomic agentId pem current ps)
  | revoke agentId reason => exact atomicBut_reply (Pins.revoke_atomic agentId reason ps)
  | unpin agentId => exact atomicBut_reply (Pins.unpin_atomic agentId ps)
  | verify agentId fingerprint => exact fun _ => ⟨rfl, rfl, rfl⟩
  | isAdmitted agentId => exact fun _ => ⟨rfl, rfl, rfl⟩
  | find agentId => exact fun _ => ⟨rfl, rfl, rfl⟩
  | list => exact fun _ => ⟨rfl, rfl, rfl⟩
  | expiring within => exact fun _ => ⟨rfl, rfl, rfl⟩

namespace Validator

variable {p : RegistryPolicy} {now : Instant}

def missed : Option (Except Error Verdict) → Bool
  | some result => fails result
  | none => true

def meanwhile (script : Script) (s : ValidatorSettings) (k : BackendKey) :
    Operation Registry Unit := do
  match (← state).get? k with
  | none => return ()
  | some b => if (script (b.target s)).removes s.timeout then removeAt (b.target s)

theorem meanwhile_blind (script : Script) (s : ValidatorSettings) (k : BackendKey) :
    (meanwhile script s k).Blind := by
  refine blind_state.bind fun r => ?_
  split
  · exact blind_pure _
  · split
    · exact removeAt_blind _
    · exact blind_pure _

theorem land_atomic (b : Backend) (v : Verdict) (r : Registry) :
    (land p now b v).Atomic fails r := by
  apply atomic_attempt (Registry.onBackend_atomic b.key _ r)
  · exact fun e => atomic_pure _ _
  · exact fun _ _ => rfl

theorem removal_atomic {α : Type} {failed : α → Bool} {next : Unit → Operation Registry α}
    (h : ∀ r, (next ()).Atomic failed r) (removes : Bool) (t : Target) (r : Registry) :
    AtomicBut failed (if removes = true then removeAt t >>= next else next ())
      (if removes = true then removeAt t else pure ()) r := by
  split
  · exact atomicBut_after (h _)
  · exact h r

theorem checkBackend_atomic (script : Script) (s : ValidatorSettings) (k : BackendKey)
    (r : Registry) :
    (checkBackend p now script s k).AtomicBut missed (meanwhile script s k) r := by
  apply atomicBut_read
  cases r.get? k with
  | none => exact atomic_pure _ _
  | some b =>
    refine removal_atomic (fun r => ?_) _ _ r
    split
    · exact atomic_pure _ _
    · next v _ =>
      apply atomic_attempt (land_atomic b v r)
      · exact fun e => atomic_pure _ _
      · exact fun _ _ => rfl

theorem meanwhile_quiet {script : Script} {s : ValidatorSettings}
    (quiet : ∀ t, (script t).removes s.timeout = false) (k : BackendKey) (r : Registry) :
    Alike (meanwhile script s k r) (done () r) := by
  unfold meanwhile
  rw [bind_apply, state_apply]
  cases r.get? k with
  | none => exact ⟨rfl, rfl, rfl⟩
  | some b =>
    simp only [quiet]
    exact ⟨rfl, rfl, rfl⟩

end Validator

namespace Admin

open NodeState

variable {p : NodePolicy} {now : Instant} {ctx : AdminContext} {n : NodeState}

theorem setOverride_found (p : RegistryPolicy) (k : BackendKey) (healthy : Bool)
    (reason operator : String) {r : Registry}
    (h : (Registry.setOverride p now k healthy reason operator r).result = .ok ()) :
    ((Registry.setOverride p now k healthy reason operator r).state.get? k).isSome = true := by
  revert h
  unfold Registry.setOverride Registry.onBackend
  rw [bind_apply, state_apply]
  cases found : r.get? k with
  | none => exact fun h => nomatch h
  | some b =>
    intro _
    simp [Registry.update, Table.get?_set]

theorem clearOverride_found (p : RegistryPolicy) (k : BackendKey) {r : Registry}
    (h : (Registry.clearOverride p now k r).result = .ok ()) :
    ((Registry.clearOverride p now k r).state.get? k).isSome = true := by
  revert h
  unfold Registry.clearOverride Registry.onBackend
  rw [bind_apply, state_apply]
  cases found : r.get? k with
  | none => exact fun h => nomatch h
  | some b =>
    intro _
    cases overruled : b.override.isSome with
    | true => simp [overruled, Registry.update, Table.get?_set]
    | false => simp [overruled, found]

theorem changed_atomic {k : BackendKey} {a : Operation Registry (Except Error Unit)}
    (atomic : a.Atomic fails n.registry)
    (found : (a n.registry).result = .ok () → ((a n.registry).state.get? k).isSome = true) :
    (changed k a).Atomic AdminResponse.failed n := by
  refine atomic_attempt (atomicBut_on atomic) (fun _ => atomic_pure _ _) fun ⟨⟩ ok => ?_
  -- a change that succeeds leaves the backend there, so it is not answered with a 404
  obtain ⟨b, there⟩ := Option.isSome_iff_exists.1 (found ok)
  have there : (onRegistry a n).state.registry.get? k = some b := there
  simp [there, AdminResponse.failed, AdminResponse.ok]

theorem answerPins_atomic {a : Operation Pins (Except Error Unit)}
    (atomic : a.Atomic fails n.pins) : (answerPins a).Atomic AdminResponse.failed n :=
  atomic_attempt (atomicBut_on atomic) (fun _ => atomic_pure _ _) fun _ _ => rfl

theorem setOverride_atomic (s a port : Bytes) (r : AdminRequest) (n : NodeState) :
    (setOverride p now s a port r).Atomic AdminResponse.failed n := by
  unfold setOverride
  split
  · exact atomic_pure _ _
  · split
    · exact atomic_pure _ _
    · split
      · exact atomic_pure _ _
      · exact changed_atomic (Registry.onBackend_atomic _ _ _) (setOverride_found _ _ _ _ _)

theorem clearOverride_atomic (s a port : Bytes) (n : NodeState) :
    (clearOverride p now s a port).Atomic AdminResponse.failed n := by
  unfold clearOverride
  split
  · exact atomic_pure _ _
  · exact changed_atomic (Registry.onBackend_atomic _ _ _) (clearOverride_found _ _)

theorem revoke_atomic (agentId : Bytes) (r : AdminRequest) (n : NodeState) :
    (revoke now agentId r).Atomic AdminResponse.failed n := by
  unfold revoke
  split
  · exact atomic_pure _ _
  · split
    · exact atomic_pure _ _
    · split
      · exact atomic_pure _ _
      · exact answerPins_atomic (Pins.revoke_atomic _ _ _)

theorem unpin_atomic (agentId : Bytes) (n : NodeState) :
    (unpin agentId).Atomic AdminResponse.failed n := by
  unfold unpin
  split
  · exact atomic_pure _ _
  · exact answerPins_atomic (Pins.unpin_atomic _ _)

theorem answer_atomic {route : Route} {r : AdminRequest} {a : Operation NodeState AdminResponse}
    (h : answer? p now ctx route r = some a) (n : NodeState) :
    a.Atomic AdminResponse.failed n := by
  -- only a check of all backends changes anything whatever it answers
  unfold answer? at h
  split at h
  · cases h
    exact atomic_pure _ _
  · cases h
    exact fun _ => ⟨rfl, rfl, rfl⟩
  · cases h
    exact fun _ => ⟨rfl, rfl, rfl⟩
  · cases h
    exact setOverride_atomic _ _ _ _ _
  · cases h
    exact clearOverride_atomic _ _ _ _
  · cases h
    exact atomicBut_of_success rfl
  · cases h
    exact fun _ => ⟨rfl, rfl, rfl⟩
  · cases h
    exact revoke_atomic _ _ _
  · cases h
    exact unpin_atomic _ _
  · cases h
    exact fun _ => ⟨rfl, rfl, rfl⟩
  · cases h

theorem serve_atomic (r : AdminRequest) (n : NodeState) :
    (serve p now ctx r).Atomic AdminResponse.failed n := by
  unfold serve
  split
  · exact atomic_pure _ _
  · dsimp only
    split
    · exact atomic_pure _ _
    · next a h =>
      have atomic : a.Atomic AdminResponse.failed n := answer_atomic h n
      split
      · exact atomicBut_reply atomic
      · exact atomicBut_reply atomic

end Admin

def NodeAnswer.failed : NodeAnswer → Bool
  | registry reply => reply.failed
  | pins reply => reply.failed
  | checked verdict => Validator.missed verdict
  | response r => r.failed
  | loaded count => fails count
  | _ => false

namespace NodeCall

open NodeState

def meanwhile : NodeCall → Operation Registry Unit
  | checkBackend script s k => Validator.meanwhile script s k
  | _ => Operation.done ()

def Undisturbed : NodeCall → Prop
  | checkBackend script s _ => ∀ t, (script t).removes s.timeout = false
  | _ => True

theorem meanwhile_blind (c : NodeCall) : c.meanwhile.Blind := by
  cases c with
  | checkBackend script s k => exact Validator.meanwhile_blind script s k
  | _ => exact blind_pure ()

theorem answered_atomic (p : NodePolicy) (now : Instant) (c : NodeCall) (n : NodeState) :
    (c.answered p now).AtomicBut NodeAnswer.failed (onRegistry c.meanwhile) n := by
  cases c with
  | message m => exact atomicBut_of_success rfl
  | registry c => exact atomicBut_reply (atomicBut_on (c.operation_atomic p.registry now _))
  | pins c => exact atomicBut_reply (atomicBut_on (c.operation_atomic p.admission now _))
  | checkAll script s => exact atomicBut_of_success rfl
  | checkBackend script s k =>
    exact atomicBut_reply (atomicBut_on (Validator.checkBackend_atomic script s k _))
  | request ctx r => exact atomicBut_reply (Admin.serve_atomic r n)

theorem Undisturbed.quiet {c : NodeCall} (h : c.Undisturbed) (r : Registry) :
    Alike (c.meanwhile r) (done () r) := by
  cases c with
  | checkBackend script s k => exact Validator.meanwhile_quiet h k r
  | message m => exact ⟨rfl, rfl, rfl⟩
  | registry c => exact ⟨rfl, rfl, rfl⟩
  | pins c => exact ⟨rfl, rfl, rfl⟩
  | checkAll script s => exact ⟨rfl, rfl, rfl⟩
  | request ctx r => exact ⟨rfl, rfl, rfl⟩

end NodeCall

inductive Demand where
  | call (c : NodeCall)
  | loadBackends
  | loadPins

namespace Demand

open NodeState

def operation (n : Node) (now : Instant) : Demand → Operation NodeState NodeAnswer
  | call c => c.answered n.policy now
  | loadBackends => do return .loaded (← n.loadBackends now)
  | loadPins => do return .loaded (← n.loadPins)

def meanwhile : Demand → Operation Registry Unit
  | call c => c.meanwhile
  | _ => Operation.done ()

def Undisturbed : Demand → Prop
  | call c => c.Undisturbed
  | _ => True

theorem operation_blind (n : Node) (now : Instant) (d : Demand) : (d.operation n now).Blind := by
  cases d with
  | call c => exact c.answered_blind n.policy now
  | loadBackends => exact (n.loadBackends_blind now).reply _
  | loadPins => exact n.loadPins_blind.reply _

theorem meanwhile_blind (d : Demand) : (onRegistry d.meanwhile).Blind := by
  cases d with
  | call c => exact onRegistry_blind c.meanwhile_blind
  | loadBackends => exact onRegistry_blind (blind_pure ())
  | loadPins => exact onRegistry_blind (blind_pure ())

theorem operation_atomic (n : Node) (now : Instant) (d : Demand) :
    (d.operation n now).AtomicBut NodeAnswer.failed (onRegistry d.meanwhile) n.state := by
  cases d with
  | call c => exact c.answered_atomic n.policy now n.state
  | loadBackends =>
    unfold operation Node.loadBackends
    exact atomicBut_reply (atomicBut_on (Loader.load_atomic _ _))
  | loadPins =>
    unfold operation Node.loadPins
    have loading : (onPins (Pins.load (n.storage.list? Pin.storeFolder))).AtomicBut fails
        (onPins (done ())) n.state := atomicBut_on (Loader.load_atomic _ _)
    exact atomicBut_reply fun failure => (loading failure).trans ⟨rfl, rfl, rfl⟩

theorem Undisturbed.quiet {d : Demand} (h : d.Undisturbed) (r : Registry) :
    Alike (d.meanwhile r) (done () r) := by
  cases d with
  | call c => exact NodeCall.Undisturbed.quiet h r
  | loadBackends => exact ⟨rfl, rfl, rfl⟩
  | loadPins => exact ⟨rfl, rfl, rfl⟩

end Demand

namespace Node

open NodeState

variable {n : Node}

theorem perform_alike {α β : Type} {a : Operation NodeState α} {b : Operation NodeState β}
    (ha : a.Blind) (hb : b.Blind) (h : Alike (a n.state) (b n.state)) :
    (n.perform a).2.1 = (n.perform b).2.1 ∧
      (n.perform a).2.2.changes = (n.perform b).2.2.changes := by
  rw [perform_eq ha, perform_eq hb]
  simp [h.state, h.changes, h.writes]

def demand (now : Instant) (d : Demand) (n : Node) : NodeAnswer × Node × Observed :=
  n.perform (d.operation n now)

/-- After a call that failed a node is as if the call had not been made, its queues included. -/
theorem failure_leaves_no_trace (n : Node) (now : Instant) (d : Demand)
    (failed : (n.demand now d).1.failed = true) :
    (n.demand now d).2.1 = (n.perform (onRegistry d.meanwhile)).2.1 ∧
      (n.demand now d).2.2.changes = (n.perform (onRegistry d.meanwhile)).2.2.changes ∧
      (d.Undisturbed → (n.demand now d).2.1 = n ∧ (n.demand now d).2.2.changes = []) := by
  have failing : (d.operation n now n.state).result.failed = true := by
    rw [demand, perform_eq (d.operation_blind n now)] at failed
    exact failed
  obtain ⟨node, changes⟩ := perform_alike (d.operation_blind n now) d.meanwhile_blind
    (d.operation_atomic n now failing)
  refine ⟨node, changes, fun undisturbed => ?_⟩
  have quiet : Alike (onRegistry d.meanwhile n.state)
      ((done () : Operation NodeState Unit) n.state) := (undisturbed.quiet n.state.registry).on
  obtain ⟨same, silent⟩ := perform_alike d.meanwhile_blind (blind_pure ()) quiet
  rw [perform_quiet (blind_pure ()) rfl] at same silent
  exact ⟨node.trans same, changes.trans silent⟩

def lockedOut : Node :=
  (run [.call .epoch (.registry (.register ⟨"a1", "eu", "web", "10.0.0.1", 80, 100, true⟩)),
      .call .epoch (.pins (.authenticate "a1" Pins.firstCertificate "secret")),
      .call .epoch (.pins (.revoke "a1" "lost"))]
    (fresh { auth := { serviceTokens := ["secret"] } } (.memory .empty))).1

def lateRotation : Demand := .call (.pins Pins.rotation.call)

theorem failure_of_late_rotation :
    (lockedOut.demand .epoch lateRotation).1.failed = true ∧
      lockedOut.pinWrites.pending.length = 2 ∧
      (lockedOut.demand .epoch lateRotation).2.1 = lockedOut ∧
      (lockedOut.demand .epoch lateRotation).2.2.changes = [] := by
  have failed : (lockedOut.demand .epoch lateRotation).1.failed = true := by decide +kernel
  obtain ⟨-, -, unchanged⟩ := failure_leaves_no_trace lockedOut .epoch lateRotation failed
  obtain ⟨node, changes⟩ := unchanged trivial
  exact ⟨failed, by decide +kernel, node, changes⟩

end Node

end HealthConsensus
