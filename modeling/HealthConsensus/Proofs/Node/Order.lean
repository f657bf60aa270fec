import HealthConsensus.Proofs.Admission.Order
import HealthConsensus.Proofs.Node.Runs
import HealthConsensus.Proofs.Registry.News

namespace HealthConsensus

open Operation

namespace Validator

open Registry

variable {p : RegistryPolicy} {now : Instant} {r r' : Registry}

def drop (k : BackendKey) : Operation Registry Unit := do
  let _ ← Registry.deregister k

theorem drop_get? (k' k : BackendKey) (r : Registry) :
    (drop k' r).state.get? k = if k' = k then none else r.get? k := deregister_at k' k r

theorem dropAll_get? (ks : List BackendKey) (r : Registry) (k : BackendKey) :
    (forEach ks drop r).state.get? k = if k ∈ ks then none else r.get? k := by
  induction ks generalizing r with
  | nil => simp
  | cons k' ks ih =>
    rw [forEach_cons]
    dsimp only
    rw [ih, drop_get?]
    by_cases own : k' = k
    · simp [own]
    · simp [own, Ne.symm own]

theorem dropAll_reports (ks : List BackendKey) {r : Registry} (keyed : r.Keyed) :
    Reports (forEach ks drop) r := by
  induction ks generalizing r with
  | nil =>
    intro k
    simp
  | cons k' ks ih =>
    intro k
    have first : (drop k' r).effects.about k = news (r.get? k) ((drop k' r).state.get? k) := by
      simpa [drop] using deregister_reports keyed k' k
    have after : Keyed (drop k' r).state :=
      (deregister_traced defaultPolicy .epoch k' r).keyed keyed
    rw [forEach_cons]
    dsimp only
    rw [Effects.about_append, first, ih after k, dropAll_get?, drop_get?]
    by_cases own : k' = k
    · simp [own]
    · simp [own]

def isAt (t : Target) (b : Backend) : Bool := b.address == t.address && b.port == t.port

def keysAt (t : Target) (r : Registry) : List BackendKey :=
  (r.entries.filter fun e => isAt t e.2).map Prod.fst

theorem removeAt_apply (t : Target) (r : Registry) :
    removeAt t r = forEach (keysAt t r) drop r := rfl

theorem mem_keysAt {t : Target} {k : BackendKey} :
    k ∈ keysAt t r ↔ ∃ b, r.get? k = some b ∧ isAt t b = true := by
  simp [keysAt, Table.get?_eq_some_iff]

theorem removeAt_respects (t : Target) : Respects Similar (removeAt t) := by
  apply respects_of_reports (@removeAt_checks defaultPolicy .epoch t)
    fun r keyed => dropAll_reports (keysAt t r) keyed
  · exact fun _ _ _ => rfl
  · intro r r' h k
    rw [removeAt_apply, removeAt_apply, dropAll_get?, dropAll_get?, h.get? k]
    congr 1
    rw [mem_keysAt, mem_keysAt, h.get? k]

theorem land_respects (b : Backend) (v : Verdict) : Respects Similar (land p now b v) := by
  refine (validate_respects _ _ _ _).bind fun result => ?_
  split
  · exact respects_pure _
  · exact (respects_effect _).bind fun _ => respects_pure _

theorem removal_respects {α : Type} {next : Unit → Operation Registry α}
    (h : Respects Similar (next ())) (removes : Bool) (t : Target) :
    Respects Similar (if removes = true then removeAt t >>= next else next ()) := by
  split
  · exact (removeAt_respects t).bind fun _ => h
  · exact h

theorem checkOne_respects (script : Script) (s : ValidatorSettings) (b : Backend)
    (sum : ValidationSummary) : Respects Similar (checkOne p now script s b sum) := by
  unfold checkOne
  refine removal_respects ?_ _ _
  split
  · exact (respects_log _).bind fun _ => respects_pure _
  · refine (land_respects _ _).bind fun result => ?_
    split
    · exact respects_pure _
    · exact respects_pure _

theorem checkAll_respects (script : Script) (s : ValidatorSettings) (bs : List Backend)
    (sum : ValidationSummary) : Respects Similar (checkAll p now script s bs sum) := by
  induction bs generalizing sum with
  | nil => exact respects_pure _
  | cons b bs ih => exact (checkOne_respects script s b sum).bind fun sum => ih sum

theorem sweep_respects (script : Script) (s : ValidatorSettings) :
    Respects Similar (sweep p now script s) := by
  intro r r' h
  apply agree_read
  rw [h.all]
  exact checkAll_respects script s r'.all {} r r' h

theorem checkBackend_respects (script : Script) (s : ValidatorSettings) (k : BackendKey) :
    Respects Similar (checkBackend p now script s k) := by
  intro r r' h
  apply agree_read
  rw [h.get? k]
  refine (?_ : Respects Similar _) r r' h
  split
  · exact respects_pure _
  · refine removal_respects ?_ _ _
    split
    · exact respects_pure _
    · refine (land_respects _ _).bind fun result => ?_
      split
      · exact respects_pure _
      · exact respects_pure _

end Validator

namespace NodeState

structure Similar (n n' : NodeState) : Prop where
  registry : Registry.Similar n.registry n'.registry
  pins : Pins.Similar n.pins n'.pins
  counters : n.counters = n'.counters

variable {α : Type}

theorem onRegistry_respects {a : Operation Registry α} (h : Respects Registry.Similar a) :
    Respects Similar (onRegistry a) := by
  intro n n' similar
  obtain ⟨result, state, news⟩ := h n.registry n'.registry similar.registry
  exact ⟨result, ⟨state, similar.pins, similar.counters⟩, news⟩

theorem onPins_respects {a : Operation Pins α} (h : Respects Pins.Similar a) :
    Respects Similar (onPins a) := by
  intro n n' similar
  obtain ⟨result, state, news⟩ := h n.pins n'.pins similar.pins
  exact ⟨result, ⟨similar.registry, state, similar.counters⟩, news⟩

theorem count_respects (f : Counters → Counters) : Respects Similar (count f) := fun _ _ similar =>
  ⟨rfl, ⟨similar.registry, similar.pins, congrArg f similar.counters⟩, fun _ => rfl⟩

end NodeState

open NodeState

namespace Handler

variable {p : NodePolicy} {now : Instant}

theorem reject_respects (agentId kind fingerprint : String) (e : Error) :
    Respects Similar (reject agentId kind fingerprint e) :=
  (count_respects _).bind fun _ => respects_log _

theorem claim_respects (agentId region : String) (c : BackendClaim) :
    Respects Similar (claim p now agentId region c) := by
  refine (onRegistry_respects (Registry.register_respects _)).bind fun result => ?_
  split
  · exact respects_pure _
  · exact respects_log _

theorem forecast_respects (agentId : String) (f : Option Forecast) :
    Respects Similar (forecast p now agentId f) := by
  unfold forecast
  split
  · exact respects_pure _
  · exact (onRegistry_respects (Registry.drain_respects _ _)).bind fun _ => respects_log _

theorem refusal?_eq {n n' : NodeState} (h : Similar n n') (agentId fingerprint : String) :
    refusal? p agentId fingerprint n = refusal? p agentId fingerprint n' := by
  rw [refusal?, refusal?, Pins.verify, Pins.verify, h.pins.get?]

theorem heartbeat_respects (agentId region : String) (m : Heartbeat) :
    Respects Similar (heartbeat p now agentId region m) := by
  intro n n' h
  apply agree_read
  rw [refusal?_eq h]
  refine (?_ : Respects Similar _) n n' h
  split
  · exact reject_respects _ _ _ _
  · refine (respects_forEach fun c _ => claim_respects agentId region c).bind fun _ => ?_
    exact (forecast_respects agentId m.forecast).bind fun _ => count_respects _

theorem ifAdmitted_respects {next : Operation NodeState Unit} (hn : Respects Similar next)
    (agentId kind : String) : Respects Similar (ifAdmitted p agentId kind next) := by
  intro n n' h
  apply agree_read
  rw [Pins.isAdmitted, Pins.isAdmitted, h.pins.get?]
  refine (?_ : Respects Similar _) n n' h
  split
  · exact hn
  · exact (count_respects _).bind fun _ => respects_log _

theorem register_respects (agentId region : String) (r : RegisterRequest) :
    Respects Similar (register p now agentId region r) := by
  apply ifAdmitted_respects
  refine (onRegistry_respects (Registry.register_respects _)).bind fun result => ?_
  split
  · exact count_respects _
  · exact respects_log _

theorem deregister_respects (agentId : String) (r : DeregisterRequest) :
    Respects Similar (deregister p agentId r) := by
  apply ifAdmitted_respects
  refine (onRegistry_respects (Registry.deregister_respects _)).bind fun result => ?_
  split
  · exact count_respects _
  · exact respects_log _

theorem agentAuth_respects (agentId : String) (r : AuthRequest) :
    Respects Similar (agentAuth p now agentId r) := by
  refine (onPins_respects (Pins.authenticate_respects _ _ _)).bind fun result => ?_
  split
  · exact (count_respects _).bind fun _ => respects_log _
  · exact (count_respects _).bind fun _ => respects_log _

theorem handle_respects (m : Message) : Respects Similar (handle p now m) := by
  unfold handle
  split
  · exact heartbeat_respects _ _ _
  · exact register_respects _ _ _
  · exact deregister_respects _ _
  · exact agentAuth_respects _ _
  · exact (count_respects _).bind fun _ => respects_log _

end Handler

namespace Admin

variable {p : NodePolicy} {now : Instant} {ctx : AdminContext}

theorem changed_respects {a : Operation Registry (Except Error Unit)}
    (h : Respects Registry.Similar a) (k : BackendKey) : Respects Similar (changed k a) := by
  refine (onRegistry_respects h).bind fun result => ?_
  split
  · exact respects_pure _
  · intro n n' h
    apply agree_read
    rw [h.registry.get?]
    refine (?_ : Respects Similar _) n n' h
    split
    · exact respects_pure _
    · exact respects_pure _

theorem setOverride_respects (s a port : Bytes) (r : AdminRequest) :
    Respects Similar (setOverride p now s a port r) := by
  unfold setOverride
  split
  · exact respects_pure _
  · split
    · exact respects_pure _
    · split
      · exact respects_pure _
      · exact changed_respects (Registry.setOverride_respects _ _ _ _) _

theorem clearOverride_respects (s a port : Bytes) :
    Respects Similar (clearOverride p now s a port) := by
  unfold clearOverride
  split
  · exact respects_pure _
  · exact changed_respects (Registry.clearOverride_respects _) _

theorem answerPins_respects {a : Operation Pins (Except Error Unit)}
    (h : Respects Pins.Similar a) : Respects Similar (answerPins a) := by
  refine (onPins_respects h).bind fun result => ?_
  split
  · exact respects_pure _
  · exact respects_pure _

theorem revoke_respects (agentId : Bytes) (r : AdminRequest) :
    Respects Similar (revoke now agentId r) := by
  unfold revoke
  split
  · exact respects_pure _
  · split
    · exact respects_pure _
    · split
      · exact respects_pure _
      · exact answerPins_respects (Pins.revoke_respects _ _)

theorem unpin_respects (agentId : Bytes) : Respects Similar (unpin agentId) := by
  unfold unpin
  split
  · exact respects_pure _
  · exact answerPins_respects (Pins.unpin_respects _)

theorem read_respects {answer : NodeState → AdminResponse}
    (same : ∀ n n', Similar n n' → answer n = answer n') :
    Respects Similar (do return answer (← Operation.state) : Operation NodeState AdminResponse) :=
  fun n n' h => ⟨same n n' h, h, fun _ => rfl⟩

theorem listBackends_eq (r : AdminRequest) (n n' : NodeState) (h : Similar n n') :
    listBackends r n = listBackends r n' := by
  simp only [listBackends, h.registry.all, h.registry.ofService]

theorem stats_eq (n n' : NodeState) (h : Similar n n') : stats ctx n = stats ctx n' := by
  simp only [stats, ValidationStats.ofRegistry, h.registry.all, h.counters,
    Table.size_eq h.pins.view]

theorem ready_eq (n n' : NodeState) (h : Similar n n') : ready ctx n = ready ctx n' := by
  simp only [ready, Table.size_eq h.registry.view]

theorem answer_respects {route : Route} {r : AdminRequest} {a : Operation NodeState AdminResponse}
    (h : answer? p now ctx route r = some a) : Respects Similar a := by
  unfold answer? at h
  split at h
  · cases h
    exact respects_pure _
  · cases h
    exact read_respects ready_eq
  · cases h
    exact read_respects (listBackends_eq r)
  · cases h
    exact setOverride_respects _ _ _ _
  · cases h
    exact clearOverride_respects _ _ _
  · cases h
    exact (onRegistry_respects (Validator.sweep_respects _ _)).reply _
  · cases h
    apply read_respects
    intro n n' h
    rw [h.pins.all]
  · cases h
    exact revoke_respects _ _
  · cases h
    exact unpin_respects _
  · cases h
    exact read_respects stats_eq
  · cases h

theorem serve_respects (r : AdminRequest) : Respects Similar (serve p now ctx r) := by
  unfold serve
  split
  · exact respects_pure _
  · dsimp only
    split
    · exact respects_pure _
    · next h => exact (answer_respects h).reply _

end Admin

theorem NodeCall.answered_respects (p : NodePolicy) (now : Instant) (c : NodeCall) :
    Respects Similar (c.answered p now) := by
  cases c with
  | message m => exact (Handler.handle_respects m).reply _
  | registry c => exact (onRegistry_respects (c.operation_respects p.registry now)).reply _
  | pins c => exact (onPins_respects (Pins.operation_respects c)).reply _
  | checkAll script s => exact (onRegistry_respects (Validator.sweep_respects script s)).reply _
  | checkBackend script s k =>
    exact (onRegistry_respects (Validator.checkBackend_respects script s k)).reply _
  | request ctx r => exact (Admin.serve_respects r).reply _

end HealthConsensus
