import HealthConsensus.Proofs.Admission.Secrets
import HealthConsensus.Proofs.Node.Runs
import HealthConsensus.Proofs.Registry.Lines

namespace HealthConsensus

open Operation NodeState Fingerprint Fingerprint.Known

namespace NodeState

variable {α : Type} {κ : Known} {n : NodeState}

theorem onRegistry_plain {a : Operation Registry α} (h : a.Plain n.registry) :
    (onRegistry a).Plain n := Logs.on h

theorem onPins_plain {a : Operation Pins α} (h : a.Plain n.pins) : (onPins a).Plain n := Logs.on h

theorem onPins_explained {a : Operation Pins α} (h : a.Logs κ.Explains n.pins) :
    (onPins a).Logs κ.Explains n := Logs.on h

theorem count_plain (step : Counters → Counters) (n : NodeState) : (count step).Plain n :=
  Logs.nothing rfl

end NodeState

theorem Operation.Plain.explained {σ α : Type} {a : Operation σ α} {s : σ} (h : a.Plain s)
    (κ : Known) : a.Logs κ.Explains s := Logs.mono (fun _ => Known.explains_of_plain) h

namespace Handler

variable {p : NodePolicy} {now : Instant} {κ : Known} {n : NodeState} {agentId region : String}

theorem claim_plain (c : BackendClaim) (n : NodeState) :
    (claim p now agentId region c).Plain n := by
  refine Logs.bind (onRegistry_plain (Registry.register_plain _ _)) ?_
  split
  · exact Logs.pure _ _
  · exact Logs.line (by simp [fieldNames]) _

theorem forecast_plain (f : Option Forecast) (n : NodeState) :
    (forecast p now agentId f).Plain n := by
  cases f with
  | none => exact Logs.pure _ _
  | some f =>
    exact Logs.bind (onRegistry_plain (Registry.drain_plain _ _ _))
      (Logs.line (by simp [fieldNames]) _)

theorem heartbeat_explained {h : Heartbeat} (claims : κ.claimed = some h.fingerprint) :
    (heartbeat p now agentId region h).Logs κ.Explains n := by
  apply Logs.readState
  split
  · refine Logs.bind ((count_plain _ _).explained κ) (Logs.line (explains_line (List.forall_mem_cons.2
      ⟨?_, List.forall_mem_cons.2 ⟨?_, List.forall_mem_singleton.2 ?_⟩⟩)) _)
    · exact shows_other _ (by decide)
    · exact shows_start rfl claims
    · exact shows_other _ (by decide)
  · have body : (forEach h.backends (claim p now agentId region) >>= fun _ => forecast p now agentId
        h.forecast >>= fun _ => count fun c => { c with heartbeats := c.heartbeats + 1 }).Plain n :=
      Logs.bind (Logs.forEach (fun c _ n => claim_plain c n) n)
        (Logs.bind (forecast_plain _ _) (count_plain _ _))
    exact body.explained κ

theorem ifAdmitted_plain {kind : String} {next : Operation NodeState Unit} (h : next.Plain n) :
    (ifAdmitted p agentId kind next).Plain n := by
  apply Logs.readState
  split
  · exact h
  · exact Logs.bind (count_plain _ _) (Logs.line (by simp [fieldNames]) _)

theorem register_plain (r : RegisterRequest) (n : NodeState) :
    (register p now agentId region r).Plain n := by
  apply ifAdmitted_plain
  refine Logs.bind (onRegistry_plain (Registry.register_plain _ _)) ?_
  split
  · exact count_plain _ _
  · exact Logs.line (by simp [fieldNames]) _

theorem deregister_plain (r : DeregisterRequest) (n : NodeState) :
    (deregister p agentId r).Plain n := by
  apply ifAdmitted_plain
  refine Logs.bind (onRegistry_plain (Registry.deregister_plain _ _)) ?_
  split
  · exact count_plain _ _
  · exact Logs.line (by simp [fieldNames]) _

theorem agentAuth_explained {r : AuthRequest} (presents : κ.pem = some r.certificatePem)
    (pins : κ.pins = n.pins) (claims : κ.claimed = some r.fingerprint) :
    (agentAuth p now agentId r).Logs κ.Explains n := by
  refine Logs.bind (onPins_explained (Pins.authenticate_explained presents pins)) ?_
  split
  · next pin result =>
    refine Logs.bind ((count_plain _ _).explained κ)
      (Logs.line (explains_line (List.forall_mem_singleton.2 ?_)) _)
    exact shows_start rfl (Pins.whole?_authenticated presents result)
  · refine Logs.bind ((count_plain _ _).explained κ) (Logs.line (explains_line (List.forall_mem_cons.2
      ⟨?_, List.forall_mem_singleton.2 ?_⟩)) _)
    · exact shows_start rfl claims
    · exact shows_other _ (by decide)

end Handler

namespace Admin

variable {p : NodePolicy} {now : Instant} {ctx : AdminContext} {n : NodeState} {κ : Known}

theorem changed_plain {k : BackendKey} {a : Operation Registry (Except Error Unit)}
    (h : a.Plain n.registry) : (changed k a).Plain n := by
  refine Logs.bind (onRegistry_plain h) ?_
  split
  · exact Logs.pure _ _
  · apply Logs.readState
    split
    · exact Logs.pure _ _
    · exact Logs.pure _ _

theorem setOverride_plain (s a port : Bytes) (r : AdminRequest) (n : NodeState) :
    (setOverride p now s a port r).Plain n := by
  unfold setOverride
  split
  · exact Logs.pure _ _
  · split
    · exact Logs.pure _ _
    · split
      · exact Logs.pure _ _
      · exact changed_plain (Registry.setOverride_plain _ _ _ _ _)

theorem clearOverride_plain (s a port : Bytes) (n : NodeState) :
    (clearOverride p now s a port).Plain n := by
  unfold clearOverride
  split
  · exact Logs.pure _ _
  · exact changed_plain (Registry.clearOverride_plain _ _)

theorem answerPins_explained {a : Operation Pins (Except Error Unit)}
    (h : a.Logs κ.Explains n.pins) : (answerPins a).Logs κ.Explains n := by
  refine Logs.bind (onPins_explained h) ?_
  split
  · exact Logs.pure _ _
  · exact Logs.pure _ _

theorem revoke_explained (pins : κ.pins = n.pins) (agentId : Bytes) (r : AdminRequest) :
    (revoke now agentId r).Logs κ.Explains n := by
  unfold revoke
  split
  · exact Logs.pure _ _
  · split
    · exact Logs.pure _ _
    · split
      · exact Logs.pure _ _
      · exact answerPins_explained (Pins.revoke_explained pins _ _)

theorem unpin_explained (pins : κ.pins = n.pins) (agentId : Bytes) :
    (unpin agentId).Logs κ.Explains n := by
  unfold unpin
  split
  · exact Logs.pure _ _
  · exact answerPins_explained (Pins.unpin_explained pins _)

theorem answer_explained (pins : κ.pins = n.pins) {route : Route} {r : AdminRequest}
    {a : Operation NodeState AdminResponse} (h : answer? p now ctx route r = some a) :
    a.Logs κ.Explains n := by
  unfold answer? at h
  split at h <;> cases h
  · exact Logs.pure _ _
  · exact Logs.pure _ _
  · exact Logs.pure _ _
  · exact (setOverride_plain _ _ _ _ _).explained κ
  · exact (clearOverride_plain _ _ _ _).explained κ
  · exact Operation.Plain.explained
      (Logs.bind (onRegistry_plain (Validator.sweep_plain _ _ _)) (Logs.pure _ _)) κ
  · exact Logs.pure _ _
  · exact revoke_explained pins _ _
  · exact unpin_explained pins _
  · exact Logs.pure _ _

theorem serve_explained (pins : κ.pins = n.pins) (r : AdminRequest) :
    (serve p now ctx r).Logs κ.Explains n := by
  unfold serve
  split
  · exact Logs.pure _ _
  · dsimp only
    split
    · exact Logs.pure _ _
    · next h => exact Logs.bind (answer_explained pins h) (Logs.pure _ _)

end Admin

namespace NodeCall

def pem? : NodeCall → Option String
  | .message ⟨_, _, _, .agentAuth r⟩ => some r.certificatePem
  | .pins (.authenticate _ pem _) => some pem
  | .pins (.rotate _ pem _) => some pem
  | _ => none

def claimed? : NodeCall → Option String
  | .message ⟨_, _, _, .heartbeat h⟩ => some h.fingerprint
  | .message ⟨_, _, _, .agentAuth r⟩ => some r.fingerprint
  | .pins (.rotate _ _ current) => some current
  | _ => none

def known (c : NodeCall) (ps : Pins) : Known := ⟨c.pem?, ps, c.claimed?⟩

variable {p : NodePolicy} {now : Instant} {n : NodeState}

theorem message_explained (m : Message) :
    (Handler.handle p now m).Logs ((message m).known n.pins).Explains n := by
  obtain ⟨agentId, region, t, x⟩ := m
  cases x with
  | heartbeat h => exact Handler.heartbeat_explained rfl
  | register r => exact (Handler.register_plain r n).explained _
  | deregister r => exact (Handler.deregister_plain r n).explained _
  | agentAuth r => exact Handler.agentAuth_explained rfl rfl rfl
  | unknown kind =>
    have line : (Handler.handle p now ⟨agentId, region, t, .unknown kind⟩).Plain n :=
      Logs.bind (count_plain _ _) (Logs.line (by simp [fieldNames]) _)
    exact line.explained _

theorem pins_explained (c : PinsCall) :
    (c.operation p.admission now).Logs ((pins c).known n.pins).Explains n.pins := by
  cases c with
  | authenticate agentId pem token =>
    exact Logs.bind (Pins.authenticate_explained rfl rfl) (Logs.pure _ _)
  | rotate agentId pem current =>
    exact Logs.bind (Pins.rotate_explained rfl rfl rfl) (Logs.pure _ _)
  | revoke agentId reason => exact Logs.bind (Pins.revoke_explained rfl _ _) (Logs.pure _ _)
  | unpin agentId => exact Logs.bind (Pins.unpin_explained rfl _) (Logs.pure _ _)
  | verify agentId fingerprint => exact Logs.nothing rfl
  | isAdmitted agentId => exact Logs.nothing rfl
  | find agentId => exact Logs.nothing rfl
  | list => exact Logs.nothing rfl
  | expiring within => exact Logs.nothing rfl

theorem operation_explained (c : NodeCall) (n : NodeState) :
    (c.operation p now).Logs (c.known n.pins).Explains n := by
  cases c with
  | message m => exact message_explained m
  | registry c =>
    have plain : (onRegistry (c.operation p.registry now)).Plain n :=
      onRegistry_plain (Registry.operation_plain c _)
    exact Logs.bind (plain.explained _) (Logs.pure _ _)
  | pins c => exact Logs.bind (onPins_explained (pins_explained c)) (Logs.pure _ _)
  | checkAll script s =>
    have plain : (onRegistry (Validator.sweep p.registry now script s)).Plain n :=
      onRegistry_plain (Validator.sweep_plain _ _ _)
    exact Logs.bind (plain.explained _) (Logs.pure _ _)
  | checkBackend script s k =>
    have plain : (onRegistry (Validator.checkBackend p.registry now script s k)).Plain n :=
      onRegistry_plain (Validator.checkBackend_plain _ _ _ _)
    exact Logs.bind (plain.explained _) (Logs.pure _ _)
  | request ctx r => exact Logs.bind (Admin.serve_explained rfl r) (Logs.pure _ _)

end NodeCall

namespace WriteQueue

theorem enqueue_plain (w : StoreWrite) (q : WriteQueue) : ∀ l ∈ (q.enqueue w).2, l.Plain := by
  intro l hl
  unfold enqueue at hl
  split at hl
  · cases hl
  · cases List.mem_singleton.1 hl
    simp [dropped, fieldNames]

theorem failed_plain (w : StoreWrite) (e : Error) : (failed w e).Plain := by
  cases w <;> simp [failed, fieldNames]

theorem attempt_plain {limit : Duration} {done : Written} (h : ∀ l ∈ done.log, l.Plain)
    (place : Pending) : ∀ l ∈ (attempt limit done place).log, l.Plain := by
  unfold attempt
  cases place with
  | marker caller => exact h
  | write w =>
    dsimp only
    split
    · exact h
    · exact List.forall_mem_append.2 ⟨h, List.forall_mem_singleton.2 (failed_plain _ _)⟩

theorem drain_plain (limit : Duration) (storage : Storage) (q : WriteQueue) :
    ∀ l ∈ (q.drain limit storage).log, l.Plain := by
  have fold (places : List Pending) (done : Written) (h : ∀ l ∈ done.log, l.Plain) :
      ∀ l ∈ (places.foldl (attempt limit) done).log, l.Plain := by
    induction places generalizing done with
    | nil => exact h
    | cons place places ih => exact ih _ (attempt_plain h place)
  exact fold q.pending _ (List.forall_mem_nil _)

end WriteQueue

namespace Archive

theorem queue_plain (w : RecordWrite) (a : Archive) : ∀ l ∈ (a.queue w).2, l.Plain := by
  unfold queue
  split
  · exact WriteQueue.enqueue_plain _ _
  · exact WriteQueue.enqueue_plain _ _

theorem queueAll_plain (ws : List RecordWrite) (a : Archive) :
    ∀ l ∈ (a.queueAll ws).2, l.Plain := by
  induction ws generalizing a with
  | nil => exact List.forall_mem_nil _
  | cons w ws ih => exact List.forall_mem_append.2 ⟨queue_plain w a, ih _⟩

end Archive

namespace Node

theorem perform_logs {α : Type} {a : Operation NodeState α} {P : LogLine → Prop} {n : Node}
    (blind : a.Blind) (own : a.Logs P n.state) (plain : ∀ l : LogLine, l.Plain → P l) :
    ∀ l ∈ (n.perform a).2.2.log, P l := by
  rw [perform_eq blind]
  refine List.forall_mem_append.2 ⟨own, fun l hl => plain l ?_⟩
  split at hl
  · exact Archive.queueAll_plain _ _ l hl
  · cases hl

theorem call_explained (now : Instant) (c : NodeCall) (n : Node) :
    ∀ l ∈ (n.act (.call now c)).2.log, (c.known n.state.pins).Explains l :=
  perform_logs (c.operation_blind _ _) (c.operation_explained n.state)
    fun _ => Known.explains_of_plain

theorem act_plain {a : NodeAction} (idle : ∀ now c, a ≠ .call now c) (n : Node) :
    ∀ l ∈ (n.act a).2.log, l.Plain := by
  cases a with
  | call now c => exact absurd rfl (idle now c)
  | arrange order => exact List.forall_mem_nil _
  | ask w caller => exact List.forall_mem_nil _
  | write w =>
    change ∀ l ∈ (n.writeNext w).2.log, l.Plain
    unfold writeNext
    split
    · exact List.forall_mem_nil _
    · exact WriteQueue.attempt_plain (List.forall_mem_nil _) _
  | flush =>
    exact List.forall_mem_append.2 ⟨WriteQueue.drain_plain _ _ _, WriteQueue.drain_plain _ _ _⟩

theorem step_of_line {as : List NodeAction} {n : Node} {l : LogLine}
    (h : l ∈ (run as n).2.log) : ∃ before a after, as = before ++ a :: after ∧
      l ∈ ((run before n).1.act a).2.log := by
  induction as generalizing n with
  | nil => cases h
  | cons a as ih =>
    rcases List.mem_append.1 h with first | later
    · exact ⟨[], a, as, rfl, first⟩
    · obtain ⟨before, b, after, rfl, logged⟩ := ih later
      exact ⟨a :: before, b, after, rfl, logged⟩

theorem run_explained {as : List NodeAction} {n : Node} {l : LogLine} (h : l ∈ (run as n).2.log)
    {f : String × String} (field : f ∈ l.fields) (name : f.1 ∈ fieldNames) :
    ∃ before now c after whole, as = before ++ .call now c :: after ∧
      l ∈ ((run before n).1.act (.call now c)).2.log ∧
      (c.known (run before n).1.state.pins).standsFor? l f.1 = some whole ∧ f.2 = logged whole := by
  obtain ⟨before, a, after, rfl, line⟩ := step_of_line h
  by_cases call : ∃ now c, a = .call now c
  · obtain ⟨now, c, rfl⟩ := call
    obtain ⟨whole, stands, shown⟩ := call_explained now c _ l line f field name
    exact ⟨before, now, c, after, whole, rfl, line, stands, shown⟩
  · have idle : ∀ now c, a ≠ .call now c := fun now c same => call ⟨now, c, same⟩
    exact absurd name (act_plain idle _ l line f field)

theorem load_plain {κ ν : Type} [DecidableEq κ] {l : Loader κ ν}
    (listing : Option (Except Error (List (String × Bytes)))) (t : Table κ ν) :
    (l.load listing).Plain t := by
  unfold Loader.load
  split
  · exact Logs.pure _ _
  · exact Logs.pure _ _
  · refine Logs.bind (Logs.forEach (fun record _ t => ?_) t)
      (Logs.bind (Logs.line (by simp [fieldNames]) _) (Logs.pure _ _))
    unfold Loader.take
    split
    · exact Logs.nothing rfl
    · exact Logs.line (by simp [fieldNames]) _

theorem start_plain (settings : Settings) (storage : Storage) (now : Instant) :
    ∀ l ∈ (start settings storage now).2, l.Plain := by
  have startup : ∀ l ∈ startupLog settings, l.Plain := by
    unfold startupLog AdmissionPolicy.startupLog
    split
    · simp
    · exact List.forall_mem_nil _
  let n := fresh settings storage
  have backends : ∀ l ∈ (n.perform (n.loadBackends now)).2.2.log, l.Plain :=
    perform_logs (n.loadBackends_blind now) (onRegistry_plain (load_plain _ _))
      fun _ h => h
  have pins (n : Node) : ∀ l ∈ (n.perform n.loadPins).2.2.log, l.Plain :=
    perform_logs n.loadPins_blind (onPins_plain (load_plain _ _)) fun _ h => h
  unfold start
  dsimp only
  split
  · next loaded =>
    rw [loaded] at backends
    exact List.forall_mem_append.2 ⟨startup, backends⟩
  · next n' _ loaded =>
    rw [loaded] at backends
    have later := pins n'
    have both := List.forall_mem_append.2 ⟨startup, backends⟩
    split
    · next pinned =>
      rw [pinned] at later
      exact List.forall_mem_append.2 ⟨both, later⟩
    · next pinned =>
      rw [pinned] at later
      exact List.forall_mem_append.2 ⟨both, later⟩

end Node

end HealthConsensus
