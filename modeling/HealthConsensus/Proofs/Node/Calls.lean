import HealthConsensus.Proofs.Admission.Trust
import HealthConsensus.Proofs.Node.Traces
import Mathlib.Tactic.ByContra

namespace HealthConsensus

open Operation NodeState

namespace Admin

variable {p : NodePolicy} {now : Instant} {ctx : AdminContext} {n : NodeState} {α : Type}

abbrev Operates (p : NodePolicy) (now : Instant) : NodeState → Effects → NodeState → Prop :=
  Traced (Registry.MadeBy p.registry now RegistryCall.IsOperator)
    (Pins.MadeBy p.admission now PinsCall.IsOperator)

theorem operates_law : Operation.Law (Operates p now) := traced_law _ _

theorem changed_operates {k : BackendKey} {a : Operation Registry (Except Error Unit)}
    {c : RegistryCall} (operator : c.IsOperator)
    (h : a.Obeys (Registry.Traced (c.Makes p.registry now)) n.registry) :
    (changed k a).Obeys (Operates p now) n := by
  apply operates_law.bind
  · exact onRegistry_traced (h.mono fun _ _ _ h => h.mono fun _ hm => ⟨c, operator, hm⟩)
  · split
    · exact operates_law.pure _ _
    · apply Obeys.readState
      split
      · exact operates_law.pure _ _
      · exact operates_law.pure _ _

theorem answerPins_operates {a : Operation Pins (Except Error Unit)} {c : PinsCall}
    (operator : c.IsOperator) (h : a.Obeys (Pins.Traced (c.Makes p.admission now)) n.pins) :
    (answerPins a).Obeys (Operates p now) n := by
  apply operates_law.bind
  · exact onPins_traced (h.mono fun _ _ _ h => h.mono fun _ hm => ⟨c, operator, hm⟩)
  · split
    · exact operates_law.pure _ _
    · exact operates_law.pure _ _

theorem setOverride_operates (s a port : Bytes) (r : AdminRequest) (n : NodeState) :
    (setOverride p now s a port r).Obeys (Operates p now) n := by
  unfold setOverride
  split
  · exact operates_law.pure _ _
  · split
    · exact operates_law.pure _ _
    · split
      · exact operates_law.pure _ _
      · exact changed_operates (.setOverride _ _ _ _) (Registry.setOverride_traced _ _ _ _ _)

theorem clearOverride_operates (s a port : Bytes) (n : NodeState) :
    (clearOverride p now s a port).Obeys (Operates p now) n := by
  unfold clearOverride
  split
  · exact operates_law.pure _ _
  · exact changed_operates (.clearOverride _) (Registry.clearOverride_traced _ _)

theorem validate_operates (n : NodeState) :
    (validate p now ctx).Obeys (Operates p now) n := by
  refine operates_law.bind (onRegistry_traced ?_) (operates_law.pure _ _)
  exact (Validator.sweep_checks ctx.script ctx.validator n.registry).mono fun _ _ _ h =>
    h.mono fun _ ⟨c, check, hm⟩ => ⟨c, .check c check, hm⟩

theorem revoke_operates (agentId : Bytes) (r : AdminRequest) (n : NodeState) :
    (revoke now agentId r).Obeys (Operates p now) n := by
  unfold revoke
  split
  · exact operates_law.pure _ _
  · split
    · exact operates_law.pure _ _
    · split
      · exact operates_law.pure _ _
      · exact answerPins_operates (.revoke _ _)
          (Pins.traced_of_settles fun keyed => Pins.revoke_settles keyed _ _)

theorem unpin_operates (agentId : Bytes) (n : NodeState) :
    (unpin agentId).Obeys (Operates p now) n := by
  unfold unpin
  split
  · exact operates_law.pure _ _
  · exact answerPins_operates (.unpin _)
      (Pins.traced_of_settles fun keyed => Pins.unpin_settles keyed _)

theorem answer_operates {route : Route} {r : AdminRequest} {a : Operation NodeState AdminResponse}
    (h : answer? p now ctx route r = some a) (n : NodeState) : a.Obeys (Operates p now) n := by
  unfold answer? at h
  split at h
  · cases h
    exact operates_law.pure _ _
  · cases h
    exact operates_law.pure _ _
  · cases h
    exact operates_law.pure _ _
  · cases h
    exact setOverride_operates _ _ _ _ _
  · cases h
    exact clearOverride_operates _ _ _ _
  · cases h
    exact validate_operates _
  · cases h
    exact operates_law.pure _ _
  · cases h
    exact revoke_operates _ _ _
  · cases h
    exact unpin_operates _ _
  · cases h
    exact operates_law.pure _ _
  · cases h

theorem serve_operates (r : AdminRequest) (n : NodeState) :
    (serve p now ctx r).Obeys (Operates p now) n := by
  unfold serve
  split
  · exact operates_law.pure _ _
  · dsimp only
    split
    · exact operates_law.pure _ _
    · next h => exact operates_law.bind (answer_operates h n) (operates_law.pure _ _)

end Admin

namespace Message

inductive Asks (m : Message) : RegistryCall → Prop
  | claim (h : Heartbeat) (c : BackendClaim) : m.payload = .heartbeat h → c ∈ h.backends →
      Asks m (.register (c.registration m.agentId m.region))
  | forecast (h : Heartbeat) (f : Forecast) : m.payload = .heartbeat h → h.forecast = some f →
      Asks m (.drain m.agentId f.drain)
  | register (r : RegisterRequest) : m.payload = .register r →
      Asks m (.register (r.registration m.agentId m.region))
  | deregister (r : DeregisterRequest) : m.payload = .deregister r → Asks m (.deregister r.key)

inductive Presents (m : Message) : PinsCall → Prop
  | certificate (r : AuthRequest) : m.payload = .agentAuth r →
      Presents m (.authenticate m.agentId r.certificatePem r.serviceToken)

def Admitted (m : Message) (pins : Pins) : Prop :=
  ∃ pin, pins.get? m.agentId = some pin ∧ pin.revoked = false ∧
    ∀ h, m.payload = .heartbeat h → Ascii.lower pin.fingerprint = Ascii.lower h.fingerprint

end Message

namespace Handler

variable {p : NodePolicy} {now : Instant} {n : NodeState} {kinds : Move Backend → Prop}
  {pinKinds : Move Pin → Prop}

theorem refusal_eq_none {agentId fingerprint : String} (required : p.requireAuth = true)
    (h : refusal? p agentId fingerprint n = none) :
    ∃ pin, n.pins.get? agentId = some pin ∧ pin.revoked = false ∧
      pin.fingerprint = Ascii.lower fingerprint := by
  simp only [refusal?, required, if_true, Pins.verify] at h
  cases found : n.pins.get? agentId with
  | none => simp [found] at h
  | some pin =>
    refine ⟨pin, rfl, ?_⟩
    cases revoked : pin.revoked with
    | true => simp [found, revoked] at h
    | false =>
      refine ⟨rfl, ?_⟩
      by_contra different
      simp [found, revoked, different] at h

theorem ifAdmitted_admitted {agentId : String} (required : p.requireAuth = true)
    (h : (!p.requireAuth || n.pins.isAdmitted agentId) = true) :
    ∃ pin, n.pins.get? agentId = some pin ∧ pin.revoked = false := by
  simpa [required, Pins.isAdmitted, Option.any_eq_true] using h

theorem registerCall_traced {α : Type} {x : Registration}
    {f : Except Error Unit → Operation NodeState α}
    (hx : ∀ m, RegistryCall.Makes p.registry now (.register x) m → kinds m)
    (hf : ∀ result n, (f result).Obeys (Traced kinds pinKinds) n) (n : NodeState) :
    (onRegistry (Registry.register p.registry now x) >>= f).Obeys (Traced kinds pinKinds) n :=
  (traced_law _ _).bind
    (onRegistry_traced ((Registry.register_traced x n.registry).mono fun _ _ _ h => h.mono hx))
    (hf _ _)

theorem claim_traced {agentId region : String} {c : BackendClaim}
    (hc : ∀ m, RegistryCall.Makes p.registry now (.register (c.registration agentId region)) m →
      kinds m) (n : NodeState) :
    (claim p now agentId region c).Obeys (Traced kinds pinKinds) n := by
  refine registerCall_traced hc (fun result n => ?_) n
  cases result with
  | ok _ => exact (traced_law _ _).pure _ _
  | error e => exact (traced_law _ _).log _ _

theorem forecast_traced {agentId : String} {f : Option Forecast}
    (hf : ∀ f', f = some f' →
      ∀ m, RegistryCall.Makes p.registry now (.drain agentId f'.drain) m → kinds m)
    (n : NodeState) : (forecast p now agentId f).Obeys (Traced kinds pinKinds) n := by
  cases f with
  | none => exact (traced_law _ _).pure _ _
  | some f =>
    refine (traced_law _ _).bind (onRegistry_traced ?_) ((traced_law _ _).log _ _)
    exact (Registry.drain_traced agentId f.drain n.registry).mono fun _ _ _ h => h.mono (hf f rfl)

def Grants (p : NodePolicy) (now : Instant) (m : Message) (pins : Pins) :
    NodeState → Effects → NodeState → Prop :=
  Traced
    (Registry.MadeBy p.registry now fun c => (p.requireAuth = true → m.Admitted pins) ∧ m.Asks c)
    (Pins.MadeBy p.admission now m.Presents)

theorem grants_law (m : Message) (pins : Pins) : Operation.Law (Grants p now m pins) :=
  traced_law _ _

theorem heartbeat_grants {m : Message} {h : Heartbeat} (payload : m.payload = .heartbeat h)
    (n : NodeState) :
    (heartbeat p now m.agentId m.region h).Obeys (Grants p now m n.pins) n := by
  apply Obeys.readState
  cases refused : refusal? p m.agentId h.fingerprint n with
  | some e => exact (grants_law _ _).bind (count_traced _ _) ((grants_law _ _).log _ _)
  | none =>
    have admitted (required : p.requireAuth = true) : m.Admitted n.pins := by
      obtain ⟨pin, found, active, same⟩ := refusal_eq_none required refused
      refine ⟨pin, found, active, fun h' payload' => ?_⟩
      cases payload.symm.trans payload'
      rw [same, Ascii.lower_lower]
    refine (grants_law _ _).bind ((grants_law _ _).forEach (fun c hc n => ?_) n)
      ((grants_law _ _).bind (forecast_traced ?_ _) (count_traced _ _))
    · exact claim_traced (fun _ hm => ⟨_, ⟨admitted, .claim h c payload hc⟩, hm⟩) n
    · exact fun f hf _ hm => ⟨_, ⟨admitted, .forecast h f payload hf⟩, hm⟩

theorem ifAdmitted_grants {m : Message} (other : ∀ h, m.payload ≠ .heartbeat h) {kind : String}
    {next : Operation NodeState Unit}
    (hn : (p.requireAuth = true → m.Admitted n.pins) → next.Obeys (Grants p now m n.pins) n) :
    (ifAdmitted p m.agentId kind next).Obeys (Grants p now m n.pins) n := by
  apply Obeys.readState
  split
  · next admitted =>
    refine hn fun required => ?_
    obtain ⟨pin, found, active⟩ := ifAdmitted_admitted required admitted
    exact ⟨pin, found, active, fun h payload => absurd payload (other h)⟩
  · exact (grants_law _ _).bind (count_traced _ _) ((grants_law _ _).log _ _)

theorem register_grants {m : Message} {r : RegisterRequest} (payload : m.payload = .register r)
    (n : NodeState) :
    (register p now m.agentId m.region r).Obeys (Grants p now m n.pins) n := by
  refine ifAdmitted_grants (fun h h' => by cases payload.symm.trans h') fun admitted => ?_
  refine registerCall_traced (fun _ hm => ⟨_, ⟨admitted, .register r payload⟩, hm⟩)
    (fun result n => ?_) n
  cases result with
  | ok _ => exact count_traced _ _
  | error e => exact (grants_law _ _).log _ _

theorem deregister_grants {m : Message} {r : DeregisterRequest}
    (payload : m.payload = .deregister r) (n : NodeState) :
    (deregister p m.agentId r).Obeys (Grants p now m n.pins) n := by
  refine ifAdmitted_grants (fun h h' => by cases payload.symm.trans h') fun admitted => ?_
  refine (grants_law _ _).bind (onRegistry_traced ?_) ?_
  · exact (Registry.deregister_traced p.registry now r.key n.registry).mono
      fun _ _ _ h => h.mono fun _ hm => ⟨_, ⟨admitted, .deregister r payload⟩, hm⟩
  · split
    · exact count_traced _ _
    · exact (grants_law _ _).log _ _

theorem agentAuth_grants {m : Message} {r : AuthRequest} (payload : m.payload = .agentAuth r)
    (n : NodeState) : (agentAuth p now m.agentId r).Obeys (Grants p now m n.pins) n := by
  refine (grants_law _ _).bind (onPins_traced ?_) ?_
  · exact Obeys.mono (fun _ _ _ h => h.mono fun _ hm => ⟨_, .certificate r payload, hm⟩)
      (Pins.traced_of_settles fun keyed => Pins.authenticate_settles keyed _ _ _)
  · split
    · exact (grants_law _ _).bind (count_traced _ _) ((grants_law _ _).log _ _)
    · exact (grants_law _ _).bind (count_traced _ _) ((grants_law _ _).log _ _)

theorem handle_grants (m : Message) (n : NodeState) :
    (handle p now m).Obeys (Grants p now m n.pins) n := by
  unfold handle
  split
  · next payload => exact heartbeat_grants payload n
  · next payload => exact register_grants payload n
  · next payload => exact deregister_grants payload n
  · next payload => exact agentAuth_grants payload n
  · exact (grants_law _ _).bind (count_traced _ _) ((grants_law _ _).log _ _)

end Handler

end HealthConsensus
