import HealthConsensus.Proofs.Admission.Gates

namespace HealthConsensus

theorem Certificate.accept_toOption (pem : String) (now : Instant) :
    (accept pem now).toOption = (ofPem pem).toOption.filter fun c => c.isValidAt now := by
  cases read : ofPem pem with
  | error e => simp [accept, read, bind, Except.bind, Except.toOption]
  | ok c =>
    cases valid : c.isValidAt now <;>
      simp [accept, read, valid, bind, Except.bind, pure, Except.pure, throw, throwThe,
        MonadExceptOf.throw, Except.toOption, Option.filter]

def PinsStep.winning? (p : AdmissionPolicy) (agentId : String) (s : PinsStep) :
    Option Certificate :=
  match s.call with
  | .authenticate agentId' pem token =>
    if agentId' = agentId ∧ p.accepts token then
      (Certificate.ofPem pem).toOption.filter fun c => c.isValidAt s.now
    else none
  | _ => none

def PinsCall.Spares (agentId : String) : PinsCall → Prop
  | rotate agentId' _ _ => agentId' ≠ agentId
  | revoke agentId' _ => agentId' ≠ agentId
  | unpin agentId' => agentId' ≠ agentId
  | _ => True

namespace Pins

open Operation PinsCall

def winner? (p : AdmissionPolicy) (agentId : String) (steps : List PinsStep) : Option Certificate :=
  steps.findSome? fun s => s.winning? p agentId

structure Undecided (p : AdmissionPolicy) (now : Instant) (agentId pem token : String) (ps : Pins)
    (o : Outcome Pins (Except Error Pin)) : Prop where
  unpinned : ps.get? agentId = none
  wins : ∀ c, Certificate.ofPem pem = .ok c → c.isValidAt now = true → p.accepts token = true →
    (∃ pin, o.result = .ok pin) ∧ (o.state.get? agentId).map Pin.fingerprint = some c.fingerprint
  fails : (∀ c, Certificate.ofPem pem = .ok c → c.isValidAt now = true → p.accepts token = false) →
    (∃ e, o.result = .error e) ∧ o.state.get? agentId = none

structure Decided (now : Instant) (agentId pem : String) (w : Certificate) (ps : Pins)
    (o : Outcome Pins (Except Error Pin)) : Prop where
  pinned : (ps.get? agentId).map Pin.fingerprint = some w.fingerprint
  succeeds : (∃ pin, o.result = .ok pin) ↔ ∃ c, Certificate.ofPem pem = .ok c ∧
    c.isValidAt now = true ∧ c.fingerprint = w.fingerprint
  mismatch : ∀ c, Certificate.ofPem pem = .ok c → c.isValidAt now = true →
    c.fingerprint ≠ w.fingerprint → o.result = .error .fingerprintMismatch
  kept : (o.state.get? agentId).map Pin.fingerprint = some w.fingerprint

def hold (pin : Pin) : String × Bool := (pin.fingerprint, pin.revoked)

def holdWith (pin : Option Pin) (c : Option Certificate) : Option (String × Bool) :=
  (pin.map hold).or (c.map fun c => (c.fingerprint, false))

variable {p : AdmissionPolicy} {now : Instant} {ps : Pins} {steps : List PinsStep} {s : PinsStep}
  {agentId pem token : String} {pin : Pin} {c w : Certificate}

theorem authenticate_unaccepted {e : Error} (named : agentId ≠ "")
    (refused : Certificate.accept pem now = .error e) :
    authenticate p now agentId pem token ps = ⟨.error e, ps, .none⟩ := by
  simp [authenticate, named, refused]

theorem authenticate_unpinned (named : agentId ≠ "") (accepted : Certificate.accept pem now = .ok c)
    (unpinned : ps.get? agentId = none) :
    authenticate p now agentId pem token ps = firstContact p now agentId pem token c ps := by
  simp [authenticate, named, accepted, unpinned]

theorem firstContact_eq : verdict (firstContact p now agentId pem token c ps).result =
      (if p.accepts token then .ok () else .error .invalidToken) ∧
    (firstContact p now agentId pem token c ps).state = if p.accepts token then
      ps.set agentId (.ofCertificate agentId pem (p.regionOf c) c now) else ps := by
  cases known : p.accepts token <;> simp [firstContact, put, known, verdict, Except.map]

theorem confirm_hold (found : ps.get? agentId = some pin) :
    ((confirm now agentId c pin ps).state.get? agentId).map hold = some (hold pin) := by
  by_cases revoked : pin.revoked
  · simp [confirm, revoked, found]
  · by_cases same : pin.fingerprint = c.fingerprint <;>
      simp [confirm, put, revoked, same, found, Table.get?_set, hold]

theorem authenticate_hold (named : agentId ≠ "") :
    ((authenticate p now agentId pem token ps).state.get? agentId).map hold =
      holdWith (ps.get? agentId)
        (PinsStep.winning? p agentId ⟨now, .authenticate agentId pem token⟩) := by
  have certificate := Certificate.accept_toOption pem now
  cases accepted : Certificate.accept pem now with
  | error e =>
    rw [accepted, Except.toOption] at certificate
    rw [authenticate_unaccepted named accepted]
    simp [PinsStep.winning?, holdWith, ← certificate]
  | ok c =>
    rw [accepted, Except.toOption] at certificate
    cases found : ps.get? agentId with
    | some pin => simpa [authenticate, holdWith, named, accepted, found] using confirm_hold found
    | none =>
      rw [authenticate_unpinned named accepted found, firstContact_eq.2]
      cases known : p.accepts token <;>
        simp [PinsStep.winning?, known, found, ← certificate, Table.get?_set, hold, holdWith,
          Pin.ofCertificate]

theorem step_elsewhere (keyed : ps.Keyed)
    (away : ∀ m, s.call.Makes p s.now m → m.key pinKind ≠ agentId) :
    (s.call.operation p s.now ps).state.get? agentId = ps.get? agentId := by
  rcases operation_at keyed s agentId with same | ⟨m, makes, -, key, -, -⟩
  · exact same
  · exact absurd key (away m makes)

theorem step_hold (keyed : ps.Keyed) (named : agentId ≠ "") (spared : s.call.Spares agentId) :
    ((s.call.operation p s.now ps).state.get? agentId).map hold =
      holdWith (ps.get? agentId) (s.winning? p agentId) := by
  obtain ⟨now, call⟩ := s
  cases call with
  | authenticate agentId' pem token =>
    by_cases own : agentId' = agentId
    · subst own
      exact authenticate_hold named
    · rw [step_elsewhere keyed]
      · simp [PinsStep.winning?, holdWith, own]
      · intro m makes
        cases makes <;> exact own
  | _ =>
    -- reads make no move at all, and the other calls are for other agents
    rw [step_elsewhere keyed]
    · exact Option.or_none.symm
    · intro m makes
      cases makes <;> exact spared

theorem winner?_concat : winner? p agentId (steps ++ [s]) =
    (winner? p agentId steps).or (s.winning? p agentId) := by
  simp [winner?, List.findSome?_append]

theorem history_hold (keyed : ps.Keyed) (named : agentId ≠ "") (unpinned : ps.get? agentId = none)
    (spared : ∀ s ∈ steps, s.call.Spares agentId) :
    ((history p steps ps).state.get? agentId).map hold =
      (winner? p agentId steps).map fun c => (c.fingerprint, false) := by
  induction steps using List.reverseRecOn with
  | nil =>
    rw [show (history p [] ps).state = ps from rfl, unpinned]
    rfl
  | append_singleton steps s ih =>
    have before := ih fun s hs => spared s (List.mem_append_left _ hs)
    rw [history_concat, step_hold (history_keyed keyed steps) named (spared s (by simp)), holdWith,
      before, winner?_concat, Option.map_or]

theorem verdict_eq_ok_iff {r : Except Error Pin} : verdict r = .ok () ↔ ∃ pin, r = .ok pin := by
  cases r <;> simp [verdict, Except.map]

theorem verdict_eq_error_iff {r : Except Error Pin} {e : Error} :
    verdict r = .error e ↔ r = .error e := by
  cases r <;> simp [verdict, Except.map]

theorem undecided_of_unpinned (named : agentId ≠ "") (unpinned : ps.get? agentId = none) :
    Undecided p now agentId pem token ps (authenticate p now agentId pem token ps) where
  unpinned := unpinned
  wins c read valid known := by
    rw [authenticate_unpinned named (Certificate.accept_of_valid read valid) unpinned]
    obtain ⟨result, state⟩ := firstContact_eq (p := p)
    rw [known, if_pos rfl] at result state
    refine ⟨verdict_eq_ok_iff.1 result, ?_⟩
    rw [state, Table.get?_set, if_pos rfl]
    rfl
  fails unfit := by
    cases accepted : Certificate.accept pem now with
    | error e =>
      rw [authenticate_unaccepted named accepted]
      exact ⟨⟨e, rfl⟩, unpinned⟩
    | ok c =>
      obtain ⟨read, valid⟩ := accept_eq_ok accepted
      rw [authenticate_unpinned named accepted unpinned]
      obtain ⟨result, state⟩ := firstContact_eq (p := p)
      rw [unfit c read valid, if_neg Bool.false_ne_true] at result state
      exact ⟨⟨_, verdict_eq_error_iff.1 result⟩, by rw [state, unpinned]⟩

theorem decided_of_pinned (named : agentId ≠ "") (found : ps.get? agentId = some pin)
    (active : pin.revoked = false) (own : pin.fingerprint = w.fingerprint) :
    Decided now agentId pem w ps (authenticate p now agentId pem token ps) where
  pinned := by rw [found, Option.map_some, own]
  succeeds := by
    constructor
    · rintro ⟨pin', ok⟩
      cases accepted : Certificate.accept pem now with
      | error e =>
        rw [authenticate_unaccepted named accepted] at ok
        cases ok
      | ok c =>
        obtain ⟨read, valid⟩ := accept_eq_ok accepted
        have right : verdict (authenticate p now agentId pem token ps).result =
            pin.judge c.fingerprint := authenticate_pinned named accepted found
        rw [verdict_eq_ok_iff.2 ⟨pin', ok⟩] at right
        exact ⟨c, read, valid, (Pin.judge_eq_ok_iff.1 right.symm).2.symm.trans own⟩
    · rintro ⟨c, read, valid, same⟩
      have accepted := Certificate.accept_of_valid read valid
      rw [← verdict_eq_ok_iff, authenticate_pinned named accepted found]
      exact Pin.judge_eq_ok_iff.2 ⟨active, own.trans same.symm⟩
  mismatch c read valid differs := by
    have accepted := Certificate.accept_of_valid read valid
    rw [← verdict_eq_error_iff, authenticate_pinned named accepted found]
    simp [Pin.judge, active, own, differs.symm]
  kept := by
    have held : ((authenticate p now agentId pem token ps).state.get? agentId).map hold = _ :=
      authenticate_hold named
    rw [holdWith, found, Option.map_some, Option.some_or, Option.map_eq_some_iff] at held
    obtain ⟨pin', there, same⟩ := held
    rw [there, Option.map_some, (Prod.mk.inj same).1, own]

/-- Until an attempt wins the agent is not pinned; then it stays pinned with that certificate. -/
theorem first_contact_has_one_winner (p : AdmissionPolicy) (ps : Pins) (initial : Initial ps)
    (earlier : List PinsStep) (agentId : String) (named : agentId ≠ "")
    (unpinned : (history p earlier ps).state.get? agentId = none) (steps : List PinsStep)
    (spared : ∀ s ∈ steps, s.call.Spares agentId) (now : Instant) (pem token : String) :
    let here := (history p steps (history p earlier ps).state).state
    let o := authenticate p now agentId pem token here
    (winner? p agentId steps = none → Undecided p now agentId pem token here o) ∧
      ∀ w, winner? p agentId steps = some w → Decided now agentId pem w here o := by
  intro here o
  have keyed : Keyed (history p earlier ps).state := history_keyed initial.keyed earlier
  have held : (here.get? agentId).map hold = _ := history_hold keyed named unpinned spared
  constructor
  · intro none
    rw [none, Option.map_none, Option.map_eq_none_iff] at held
    exact undecided_of_unpinned named held
  · intro w won
    rw [won, Option.map_some, Option.map_eq_some_iff] at held
    obtain ⟨pin, found, seen⟩ := held
    obtain ⟨own, active⟩ := Prod.mk.inj seen
    exact decided_of_pinned named found active own

def race : List PinsStep :=
  [⟨.epoch, .authenticate "a1" firstCertificate "guess"⟩,
    ⟨.epoch, .authenticate "a1" "no certificate" "secret"⟩,
    ⟨.latest, .authenticate "a1" firstCertificate "secret"⟩,
    ⟨.epoch, .authenticate "a1" firstCertificate "secret"⟩]

theorem race_spared : ∀ s ∈ race, s.call.Spares "a1" := by
  simp [race, PinsCall.Spares]

theorem late_certificate_refused :
    Initial .empty ∧ ((history cluster [] .empty).state.get? "a1") = none ∧
      (∀ s ∈ race, s.call.Spares "a1") ∧
      ∃ w, winner? cluster "a1" race = some w ∧
        w.fingerprint = "d76c624f1c576d809b21c3b76821d6aee300f5851ba024e677a39e82068e8050" ∧
        Decided .epoch "a1" nextCertificate w
          (history cluster race (history cluster [] .empty).state).state
          (authenticate cluster .epoch "a1" nextCertificate "secret"
            (history cluster race (history cluster [] .empty).state).state) := by
  have won : (winner? cluster "a1" race).map Certificate.fingerprint =
      some "d76c624f1c576d809b21c3b76821d6aee300f5851ba024e677a39e82068e8050" := by decide +kernel
  obtain ⟨w, winner, own⟩ := Option.map_eq_some_iff.1 won
  have law := first_contact_has_one_winner cluster .empty .empty [] "a1" (by decide) rfl race
    race_spared .epoch nextCertificate "secret"
  exact ⟨.empty, rfl, race_spared, w, winner, own, law.2 w winner⟩

end Pins

end HealthConsensus
