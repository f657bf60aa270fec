import HealthConsensus.Proofs.Node.Runs
import HealthConsensus.Proofs.Node.Starting

namespace HealthConsensus

open NodeState

def NodeAction.Vouches (s : AuthSettings) (agentId : String) (a : NodeAction) : Prop :=
  ∃ now m r c, a = .call now (.message m) ∧ m.agentId = agentId ∧ m.payload = .agentAuth r ∧
    Certificate.ofPem r.certificatePem = .ok c ∧ c.isValidAt now = true ∧
    ∃ token ∈ s.serviceTokens, token ≠ "" ∧
      Sha256.digest (Bytes.ofString r.serviceToken) = Sha256.digest (Bytes.ofString token)

/-- The calls that take agents at their word; apart from them agents only send messages. -/
inductive NodeCall.Trusting : NodeCall → Prop
  | register (r : Registration) : Trusting (.registry (.register r))
  | authenticate (agentId pem token : String) : Trusting (.pins (.authenticate agentId pem token))

def NodeAction.IsGuarded : NodeAction → Prop
  | .call _ c => ¬c.Trusting
  | _ => True

inductive Message.IsAboutBackends (m : Message) : Prop
  | heartbeat (h : Heartbeat) : m.payload = .heartbeat h → IsAboutBackends m
  | register (r : RegisterRequest) : m.payload = .register r → IsAboutBackends m
  | deregister (r : DeregisterRequest) : m.payload = .deregister r → IsAboutBackends m

theorem AuthSettings.accepts_iff (s : AuthSettings) (token : String) :
    s.policy.accepts token = true ↔
      token ≠ "" ∧ ∃ known ∈ s.serviceTokens, known ≠ "" ∧
        Sha256.digest (Bytes.ofString token) = Sha256.digest (Bytes.ofString known) := by
  rw [AdmissionPolicy.accepts, AuthSettings.policy, Bool.and_eq_true, Bool.not_eq_true',
    List.contains_iff_mem, List.mem_map]
  refine and_congr (by simp) ⟨?_, ?_⟩
  · rintro ⟨known, h, same⟩
    obtain ⟨h, named⟩ := List.mem_filter.1 h
    exact ⟨known, h, by simpa using named, same.symm⟩
  · rintro ⟨known, h, named, same⟩
    exact ⟨known, List.mem_filter.2 ⟨h, by simpa using named⟩, same.symm⟩

namespace RegistryCall

variable {p : RegistryPolicy} {now : Instant} {c : RegistryCall} {m : Move Backend} {next : Backend}

theorem Makes.owner (h : c.Makes p now m) (after : m.after = some next) :
    (∃ r, c = .register r ∧ next.agentId = r.agentId) ∨
      ∃ b, m.before = some b ∧ next.agentId = b.agentId := by
  cases h with
  | appear r =>
    cases after
    exact .inl ⟨r, rfl, rfl⟩
  | reappear r b key =>
    cases after
    exact .inl ⟨r, rfl, rfl⟩
  | leave b => cases after
  | check b healthy error latency =>
    cases after
    exact .inr ⟨b, rfl, rfl⟩
  | overrule b healthy reason operator =>
    cases after
    exact .inr ⟨b, rfl, rfl⟩
  | yield b overridden =>
    cases after
    exact .inr ⟨b, rfl, rfl⟩
  | shed b signal =>
    cases after
    exact .inr ⟨b, rfl, rfl⟩
  | expire b expired => cases after
  | age b kept aged =>
    cases after
    exact .inr ⟨b, rfl, rfl⟩

end RegistryCall

theorem PinsCall.Makes.agent {p : AdmissionPolicy} {now : Instant} {c : PinsCall} {m : Move Pin}
    {next : Pin} (h : c.Makes p now m) (after : m.after = some next) :
    (∃ pem token cert, c = .authenticate next.agentId pem token ∧ next.agentId ≠ "" ∧
        Certificate.accept pem now = .ok cert ∧ p.accepts token = true) ∨
      ∃ pin, m.before = some pin ∧ next.agentId = pin.agentId := by
  cases h with
  | meet agentId pem token cert named accepted known =>
    cases after
    exact .inl ⟨pem, token, cert, rfl, named, accepted, known⟩
  | confirm pin pem token cert accepted active same =>
    cases after
    exact .inr ⟨pin, rfl, rfl⟩
  | rotate pin pem current cert accepted active same =>
    cases after
    exact .inr ⟨pin, rfl, rfl⟩
  | revoke pin reason =>
    cases after
    exact .inr ⟨pin, rfl, rfl⟩
  | unpin pin => cases after

theorem Message.Asks.owner {m : Message} {r : Registration} (h : m.Asks (.register r)) :
    r.agentId = m.agentId := by
  cases h <;> rfl

theorem NodeCall.OnRegistry.register {p : NodePolicy} {ps : Pins} {c : NodeCall} {r : Registration}
    (h : c.OnRegistry p ps (.register r)) (guarded : ¬c.Trusting) :
    ∃ m : Message, (p.requireAuth = true → m.Admitted ps) ∧ r.agentId = m.agentId := by
  cases h with
  | message m c admitted asks => exact ⟨m, admitted, asks.owner⟩
  | registry c => exact absurd (.register r) guarded
  | checkAll script s c check => cases check
  | checkBackend script s k c check => cases check
  | request ctx r c operator => exact absurd rfl (operator.not_register _)

theorem NodeCall.OnPins.authenticate {c : NodeCall} {agentId pem token : String}
    (h : c.OnPins (.authenticate agentId pem token)) (guarded : ¬c.Trusting) :
    ∃ m r, c = .message m ∧ m.agentId = agentId ∧ m.payload = .agentAuth r ∧
      r.certificatePem = pem ∧ r.serviceToken = token := by
  cases h with
  | message m c presents =>
    cases presents with
    | certificate r payload => exact ⟨m, r, rfl, rfl, payload, rfl, rfl⟩
  | pins c => exact absurd (.authenticate agentId pem token) guarded
  | request ctx r c operator => cases operator

namespace Node

variable {n : Node} {settings : Settings}

structure Attested (settings : Settings) (agents : String → Prop) (n : Node) : Prop where
  settings : n.settings = settings
  keyed : n.state.Keyed
  pins : ∀ agentId pin, n.state.pins.view agentId = some pin → agents pin.agentId
  owners : ∀ k b, n.state.registry.view k = some b → agents b.agentId

variable {agents : String → Prop}

theorem Attested.admitted (h : Attested settings agents n) {m : Message}
    (admitted : m.Admitted n.state.pins) : agents m.agentId := by
  obtain ⟨pin, found, -⟩ := admitted
  have key : pin.agentId = m.agentId := Pins.keyed_of_get? h.keyed.pins found
  exact key ▸ h.pins _ pin found

theorem attested_call (required : settings.gossip.requireAuth = true) {now : Instant} {c : NodeCall}
    (guarded : ¬c.Trusting)
    (vouched : ∀ agentId, agentId ≠ "" → NodeAction.Vouches settings.auth agentId (.call now c) →
      agents agentId)
    (h : Attested settings agents n) : Attested settings agents (n.act (.call now c)).1 := by
  have traced := c.operation_traced n.policy now n.state
  have policy : n.policy = settings.policy := congrArg Settings.policy h.settings
  obtain ⟨⟨ms, made, path, -⟩, ⟨ps, presented, pinPath, -⟩⟩ :=
    And.intro ((traced h.keyed).1 h.keyed.registry) ((traced h.keyed).2 h.keyed.pins)
  refine ⟨(act_settings _ _).trans h.settings, ?_, ?_, ?_⟩
  · rw [act, perform_state (c.operation_blind _ _)]
    exact traced.keyed h.keyed
  · rw [act, perform_state (c.operation_blind _ _)]
    refine pinPath.forall (fun pin => agents pin.agentId) h.pins fun m hm before next after => ?_
    obtain ⟨call, on, makes⟩ := presented m hm
    rcases makes.agent after with ⟨pem, token, cert, rfl, named, accepted, known⟩ | ⟨pin, found, same⟩
    · obtain ⟨m, r, rfl, own, payload, rfl, rfl⟩ := on.authenticate guarded
      obtain ⟨read, valid⟩ := Pins.accept_eq_ok accepted
      rw [policy] at known
      have member := ((AuthSettings.accepts_iff _ _).1 known).2
      exact vouched _ named ⟨now, m, r, cert, rfl, own, payload, read, valid, member⟩
    · exact same ▸ before pin found
  · rw [act, perform_state (c.operation_blind _ _)]
    refine path.forall (fun b => agents b.agentId) h.owners fun m hm before next after => ?_
    obtain ⟨call, on, makes⟩ := made m hm
    rcases makes.owner after with ⟨r, rfl, own⟩ | ⟨b, found, same⟩
    · obtain ⟨m, admitted, sender⟩ := on.register guarded
      rw [own, sender]
      exact h.admitted (admitted (policy ▸ required))
    · exact same ▸ before b found

theorem Attested.of_state {n' : Node} (h : Attested settings agents n)
    (same : n'.settings = n.settings) (state : n'.state = n.state) : Attested settings agents n' where
  settings := same.trans h.settings
  keyed := state ▸ h.keyed
  pins := state ▸ h.pins
  owners := state ▸ h.owners

theorem attested_act (required : settings.gossip.requireAuth = true) {a : NodeAction}
    (guarded : a.IsGuarded)
    (vouched : ∀ agentId, agentId ≠ "" → a.Vouches settings.auth agentId → agents agentId)
    (h : Attested settings agents n) : Attested settings agents (n.act a).1 := by
  cases a with
  | call now c => exact attested_call required guarded vouched h
  | arrange order =>
    refine ⟨h.settings, ⟨?_, h.keyed.pins⟩, h.pins, ?_⟩
    · rw [act, Registry.Keyed, order.view_arrange]
      exact h.keyed.registry
    · rw [act, order.view_arrange]
      exact h.owners
  | ask w caller => exact h.of_state (withQueue_settings _ _ _) (withQueue_state _ _ _)
  | write w => exact h.of_state (writeNext_settings w n) (writeNext_state w n)
  | flush => exact h.of_state rfl rfl

def Disturbs (n : Node) (a : NodeAction) : Prop :=
  (n.act a).1.state.registry.view ≠ n.state.registry.view ∨ (n.act a).2.changes ≠ [] ∨
    (n.act a).1.backendWrites ≠ n.backendWrites ∨ (n.act a).1.pinWrites ≠ n.pinWrites

theorem filter_or_not {α : Type} {xs : List α} {test : α → Bool} (h : xs.filter test = [])
    (h' : (xs.filter fun x => !test x) = []) : xs = [] := by
  refine List.eq_nil_iff_forall_not_mem.2 fun x hx => ?_
  have fails := List.filter_eq_nil_iff.1 h x hx
  have passes := List.filter_eq_nil_iff.1 h' x hx
  simp [fails] at passes

theorem admitted_of_disturbs (required : n.settings.gossip.requireAuth = true)
    (keyed : n.state.Keyed) {now : Instant} {m : Message} (about : m.IsAboutBackends)
    (h : n.Disturbs (.call now (.message m))) : m.Admitted n.state.pins := by
  by_contra refused
  have traced := NodeCall.operation_traced n.policy now (.message m) n.state
  obtain ⟨ms, made, path, changes, writes⟩ := (traced keyed).1 keyed.registry
  obtain ⟨ps, presented, -, -, pinWrites⟩ := (traced keyed).2 keyed.pins
  have none : ms = [] := by
    refine List.eq_nil_iff_forall_not_mem.2 fun x hx => ?_
    obtain ⟨c, on, -⟩ := made x hx
    cases on with
    | message _ _ admitted _ => exact refused (admitted required)
  have noPins : ps = [] := by
    refine List.eq_nil_iff_forall_not_mem.2 fun x hx => ?_
    obtain ⟨c, on, -⟩ := presented x hx
    cases on with
    | message _ _ presents =>
      cases presents with
      | certificate r payload =>
        rcases about with ⟨_, other⟩ | ⟨_, other⟩ | ⟨_, other⟩ <;> cases payload.symm.trans other
  subst none noPins
  have quiet : (NodeCall.operation n.policy now (.message m) n.state).effects.writes = [] :=
    filter_or_not pinWrites writes
  have same : n.state.registry.view =
      (NodeCall.operation n.policy now (.message m) n.state).state.registry.view := path.eq_of_nil
  rcases h with registry | announced | queued | queued
  · rw [act, perform_quiet (NodeCall.operation_blind _ _ _) quiet] at registry
    exact registry same.symm
  · rw [act, perform_quiet (NodeCall.operation_blind _ _ _) quiet] at announced
    exact announced changes
  · rw [act, perform_quiet (NodeCall.operation_blind _ _ _) quiet] at queued
    exact queued rfl
  · rw [act, perform_quiet (NodeCall.operation_blind _ _ _) quiet] at queued
    exact queued rfl

def VouchedIn (settings : Settings) (actions : List NodeAction) (agentId : String) : Prop :=
  agentId ≠ "" ∧ ∃ a ∈ actions, a.Vouches settings.auth agentId

theorem run_attested {storage : Storage} {now : Instant}
    (required : settings.gossip.requireAuth = true) (nothing : storage.HoldsNothing)
    (h : (start settings storage now).1 = .ok n) {actions : List NodeAction}
    (guarded : ∀ a ∈ actions, a.IsGuarded) :
    Attested settings (VouchedIn settings actions) (run actions n).1 := by
  refine run_induction (Attested settings (VouchedIn settings actions))
    (fun a ha n hn => ?_) ?_
  · exact attested_act required (guarded a ha) (fun _ named vouches => ⟨named, a, ha, vouches⟩) hn
  · rw [start_ok h, loaded_nothing nothing]
    exact ⟨rfl, ⟨Table.keyed_empty, Table.keyed_empty⟩, fun _ _ h => (nomatch h),
      fun _ _ h => (nomatch h)⟩

theorem admission_end_to_end {storage : Storage} {now : Instant}
    (required : settings.gossip.requireAuth = true) (nothing : storage.HoldsNothing)
    (started : (start settings storage now).1 = .ok n) (actions : List NodeAction)
    (guarded : ∀ a ∈ actions, a.IsGuarded) :
    (∀ now m, m.IsAboutBackends → (run actions n).1.Disturbs (.call now (.message m)) →
        m.Admitted (run actions n).1.state.pins) ∧
      (∀ agentId pin, (run actions n).1.state.pins.get? agentId = some pin →
        VouchedIn settings actions agentId) ∧
      ∀ k b, (run actions n).1.state.registry.get? k = some b →
        VouchedIn settings actions b.agentId := by
  have attested := run_attested required nothing started guarded
  refine ⟨fun now m about h => ?_, fun agentId pin found => ?_, attested.owners⟩
  · exact admitted_of_disturbs (attested.settings ▸ required) attested.keyed about h
  · have key : pin.agentId = agentId := Pins.keyed_of_get? attested.keyed.pins found
    exact key ▸ attested.pins agentId pin found

def guardedSettings : Settings :=
  { gossip := { requireAuth := true }, auth := { serviceTokens := ["secret"] } }

def newNode : Node := fresh guardedSettings (.memory .empty)

def claimMessage : Message :=
  ⟨"a1", "eu", none, .heartbeat ⟨[⟨"web", "10.0.0.1", 80, 100, true⟩],
    "D76C624F1C576D809B21C3B76821D6AEE300F5851BA024E677A39E82068E8050", none⟩⟩

def newcomer : List NodeAction :=
  [.call .epoch (.message ⟨"a1", "eu", none, .agentAuth ⟨Pins.firstCertificate, "secret", ""⟩⟩),
    .call .epoch (.message claimMessage), .call .epoch (.pins (.revoke "a1" "lost"))]

theorem newcomer_guarded : ∀ a ∈ newcomer, a.IsGuarded := by
  intro a ha
  simp only [newcomer, List.mem_cons, List.not_mem_nil, or_false] at ha
  rcases ha with rfl | rfl | rfl <;> exact fun h => nomatch h

theorem memory_empty_holdsNothing : Storage.HoldsNothing (.memory .empty) := by
  intro folder records h
  cases h
  rfl

theorem admission_of_newcomer :
    (run (newcomer.take 1) newNode).1.Disturbs (.call .epoch (.message claimMessage)) ∧
      claimMessage.Admitted (run (newcomer.take 1) newNode).1.state.pins ∧
      VouchedIn guardedSettings newcomer "a1" ∧
      ¬(run newcomer newNode).1.Disturbs (.call .epoch (.message claimMessage)) := by
  have started : (start guardedSettings (.memory .empty) .epoch).1 = .ok newNode := by
    rw [start_eq, loaded_nothing memory_empty_holdsNothing]
    rfl
  have early : ∀ a ∈ newcomer.take 1, a.IsGuarded := fun a ha =>
    newcomer_guarded a (List.mem_of_mem_take ha)
  have disturbs : (run (newcomer.take 1) newNode).1.Disturbs (.call .epoch (.message claimMessage)) :=
    .inr (.inl (by decide +kernel))
  have heard := (admission_end_to_end rfl memory_empty_holdsNothing started _ early).1 .epoch
    claimMessage (.heartbeat _ rfl) disturbs
  obtain ⟨admitted, -, owners⟩ :=
    admission_end_to_end rfl memory_empty_holdsNothing started newcomer newcomer_guarded
  obtain ⟨b, found, owner⟩ := Option.map_eq_some_iff.1 (show
    ((run newcomer newNode).1.state.registry.get? ⟨"web", "10.0.0.1", 80⟩).map Backend.agentId =
      some "a1" by decide +kernel)
  refine ⟨disturbs, heard, owner ▸ owners _ b found, fun h => ?_⟩
  obtain ⟨pin, pinned, active, -⟩ := admitted .epoch claimMessage (.heartbeat _ rfl) h
  have locked : ((run newcomer newNode).1.state.pins.get? "a1").map Pin.revoked = some true := by
    decide +kernel
  rw [show (run newcomer newNode).1.state.pins.get? "a1" = some pin from pinned] at locked
  cases active.symm.trans (Option.some.inj locked)

end Node

end HealthConsensus
