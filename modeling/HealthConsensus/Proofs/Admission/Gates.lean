import HealthConsensus.Proofs.Admission.Description

namespace HealthConsensus

theorem hexDigit_toLower : ∀ c ∈ "0123456789abcdef".toList, c.toLower = c := by
  have all : "0123456789abcdef".toList.all (fun c => c.toLower == c) = true := by decide
  exact fun c hc => eq_of_beq (List.all_eq_true.1 all c hc)

theorem IsFingerprint.lower_eq {s : String} (h : IsFingerprint s) : Ascii.lower s = s := by
  apply String.toList_inj.1
  rw [Ascii.lower, String.toList_map]
  calc s.toList.map Char.toLower = s.toList.map id :=
        List.map_congr_left fun c hc => hexDigit_toLower c (h.2 c hc)
    _ = s.toList := List.map_id _

theorem Certificate.accept_of_valid {pem : String} {now : Instant} {c : Certificate}
    (read : ofPem pem = .ok c) (valid : c.isValidAt now = true) : accept pem now = .ok c := by
  simp [accept, read, valid, bind, Except.bind, pure, Except.pure]

def Pin.judge (pin : Pin) (fingerprint : String) : Except Error Unit :=
  if pin.revoked then .error .certificateRevoked
  else if pin.fingerprint = fingerprint then .ok ()
  else .error .fingerprintMismatch

theorem Pin.judge_eq_ok_iff {pin : Pin} {fingerprint : String} :
    pin.judge fingerprint = .ok () ↔ pin.revoked = false ∧ pin.fingerprint = fingerprint := by
  unfold judge
  by_cases revoked : pin.revoked
  · simp [revoked]
  · by_cases same : pin.fingerprint = fingerprint <;> simp [revoked, same]

structure Credentials (now : Instant) where
  pem : String
  certificate : Certificate
  read : Certificate.ofPem pem = .ok certificate
  valid : certificate.isValidAt now = true
  shown : String
  spelling : Ascii.lower shown = Ascii.lower certificate.fingerprint
  token : String
  newPem : String
  next : Certificate
  readNext : Certificate.ofPem newPem = .ok next
  validNext : next.isValidAt now = true

theorem Credentials.lower_shown {now : Instant} (x : Credentials now) :
    Ascii.lower x.shown = x.certificate.fingerprint :=
  x.spelling.trans (Certificate.isFingerprint_of_ofPem x.read).lower_eq

namespace Pins

open Operation PinsCall

def verdict (answer : Except Error Pin) : Except Error Unit := answer.map fun _ => ()

structure Answer (p : AdmissionPolicy) (agentId : String) {now : Instant} (x : Credentials now)
    (ps : Pins) (v : Except Error Unit) : Prop where
  authenticate : verdict (authenticate p now agentId x.pem x.token ps).result = v
  verify : ps.verify agentId x.shown = v
  rotate : verdict (rotate p now agentId x.newPem x.shown ps).result = v

variable {p : AdmissionPolicy} {now : Instant} {ps : Pins} {steps : List PinsStep}
  {agentId pem token shown : String} {pin : Pin} {c : Certificate}

theorem verify_pinned (found : ps.get? agentId = some pin) :
    ps.verify agentId shown = pin.judge (Ascii.lower shown) := by
  simp only [verify, found, Pin.judge]

theorem confirm_verdict : verdict (confirm now agentId c pin ps).result =
    pin.judge c.fingerprint := by
  unfold confirm Pin.judge
  by_cases revoked : pin.revoked
  · simp [revoked, verdict, Except.map]
  · by_cases same : pin.fingerprint = c.fingerprint <;> simp [revoked, same, verdict, Except.map]

theorem authenticate_pinned (named : agentId ≠ "") (accepted : Certificate.accept pem now = .ok c)
    (found : ps.get? agentId = some pin) :
    verdict (authenticate p now agentId pem token ps).result = pin.judge c.fingerprint := by
  have judged : verdict (confirm now agentId c pin ps).result = _ := confirm_verdict
  rw [← judged]
  simp [authenticate, named, accepted, found]

theorem rotate_pinned (accepted : Certificate.accept pem now = .ok c)
    (found : ps.get? agentId = some pin) :
    verdict (rotate p now agentId pem shown ps).result = pin.judge (Ascii.lower shown) := by
  unfold rotate Pin.judge
  by_cases revoked : pin.revoked
  · simp [accepted, found, revoked, verdict, Except.map]
  · by_cases same : pin.fingerprint = Ascii.lower shown <;>
      simp [accepted, found, revoked, same, verdict, Except.map]

theorem rotate_get? (accepted : Certificate.accept pem now = .ok c)
    (found : ps.get? agentId = some pin) (right : pin.judge (Ascii.lower shown) = .ok ()) :
    (rotate p now agentId pem shown ps).state.get? agentId =
      some (pin.rotate pem (p.regionOf c) c now) := by
  obtain ⟨active, same⟩ := Pin.judge_eq_ok_iff.1 right
  simp [rotate, put, accepted, found, active, same, Table.get?_set]

theorem answer_of_pinned (named : agentId ≠ "") (found : ps.get? agentId = some pin)
    (x : Credentials now) : Answer p agentId x ps (pin.judge x.certificate.fingerprint) where
  authenticate := authenticate_pinned named (Certificate.accept_of_valid x.read x.valid) found
  verify := by rw [verify_pinned found, x.lower_shown]
  rotate := by
    rw [rotate_pinned (Certificate.accept_of_valid x.readNext x.validNext) found, x.lower_shown]

theorem named_of_pinned (found : (after p steps).get? agentId = some pin) : agentId ≠ "" := by
  induction steps using List.reverseRecOn generalizing pin with
  | nil => cases found
  | append_singleton steps s ih =>
    rw [after, history_concat] at found
    have keyed : (after p steps).Keyed := history_keyed Table.keyed_empty steps
    rcases operation_at (p := p) keyed s agentId with same | ⟨m, makes, -, key, before, there⟩
    · exact ih (same.symm.trans found)
    · obtain ⟨now, call⟩ := s
      cases makes with
      | meet agentId' pem token c named => exact key ▸ named
      | unpin pin => cases there.symm.trans found
      | _ => exact ih before

/-- The gates agree on every certificate, and after a rotation they know the new one only. -/
theorem gates_agree (p : AdmissionPolicy) (steps : List PinsStep) (agentId : String) (pin : Pin)
    (found : (after p steps).get? agentId = some pin) (now : Instant) (x : Credentials now) :
    Answer p agentId x (after p steps)
        (if pin.revoked then .error .certificateRevoked
          else if pin.fingerprint = x.certificate.fingerprint then .ok ()
          else .error .fingerprintMismatch) ∧
      ∀ pin', (rotate p now agentId x.newPem x.shown (after p steps)).result = .ok pin' →
        let rotated := (rotate p now agentId x.newPem x.shown (after p steps)).state
        (∀ shown, Ascii.lower shown = Ascii.lower x.next.fingerprint →
            rotated.verify agentId shown = .ok ()) ∧
          (x.next.fingerprint ≠ x.certificate.fingerprint → ∀ later (y : Credentials later),
            y.certificate.fingerprint = x.certificate.fingerprint →
            Answer p agentId y rotated (.error .fingerprintMismatch)) := by
  have named := named_of_pinned found
  have accepted := Certificate.accept_of_valid x.readNext x.validNext
  refine ⟨answer_of_pinned named found x, fun pin' ok => ?_⟩
  have right : pin.judge (Ascii.lower x.shown) = .ok () := by
    rw [← rotate_pinned (p := p) accepted found, ok]
    rfl
  have known := rotate_get? (p := p) accepted found right
  have active := (Pin.judge_eq_ok_iff.1 right).1
  constructor
  · intro shown spelling
    -- only the text that is shown is folded, which is enough as fingerprints are lowercase
    have lower : Ascii.lower shown = x.next.fingerprint :=
      spelling.trans (Certificate.isFingerprint_of_ofPem x.readNext).lower_eq
    rw [verify_pinned known, lower]
    exact Pin.judge_eq_ok_iff.2 ⟨active, rfl⟩
  · intro differs later y old
    have mismatch : (pin.rotate x.newPem (p.regionOf x.next) x.next now).judge
        y.certificate.fingerprint = .error .fingerprintMismatch := by
      simp [Pin.judge, Pin.rotate, active, old, differs]
    exact mismatch ▸ answer_of_pinned named known y

def lastSecondOf2049 : Instant := Instant.epoch.advance (.ofSeconds 2524607999)

def firstCredentials : Credentials .epoch where
  pem := firstCertificate
  certificate := ⟨"d76c624f1c576d809b21c3b76821d6aee300f5851ba024e677a39e82068e8050",
    some "gslb-agent-eu", .epoch, lastSecondOf2049⟩
  read := by decide +kernel
  valid := by decide +kernel
  shown := "D76C624F1C576D809B21C3B76821D6AEE300F5851BA024E677A39E82068E8050"
  spelling := (Ascii.lower_lower _).symm.trans (congrArg Ascii.lower (by decide +kernel))
  token := ""
  newPem := nextCertificate
  next := ⟨"0fddcdb1dad3b7a350465d315771ab6da1dea71926564b3808b06b11c89c7941",
    some "gslb-agent-eu", .epoch, lastSecondOf2049⟩
  readNext := by decide +kernel
  validNext := by decide +kernel

def metOnce : List PinsStep := [⟨.epoch, .authenticate "a1" firstCertificate "secret"⟩]

theorem gates_agree_at_rotation :
    ∃ pin pin', (after cluster metOnce).get? "a1" = some pin ∧
      Answer cluster "a1" firstCredentials (after cluster metOnce) (.ok ()) ∧
      (rotate cluster .epoch "a1" firstCredentials.newPem firstCredentials.shown
        (after cluster metOnce)).result = .ok pin' ∧
      Answer cluster "a1" firstCredentials
        (rotate cluster .epoch "a1" firstCredentials.newPem firstCredentials.shown
          (after cluster metOnce)).state (.error .fingerprintMismatch) := by
  have known : ((after cluster metOnce).get? "a1").map (fun pin => (pin.revoked, pin.fingerprint)) =
      some (false, firstCredentials.certificate.fingerprint) := by decide +kernel
  obtain ⟨pin, found, seen⟩ := Option.map_eq_some_iff.1 known
  obtain ⟨active, same⟩ := Prod.mk.inj seen
  have agree := gates_agree cluster metOnce "a1" pin found .epoch firstCredentials
  rw [active, same, if_neg Bool.false_ne_true, if_pos rfl] at agree
  have changed := agree.1.rotate
  cases answer : (rotate cluster .epoch "a1" firstCredentials.newPem firstCredentials.shown
      (after cluster metOnce)).result with
  | error e => simp [answer, verdict, Except.map] at changed
  | ok pin' =>
    exact ⟨pin, pin', found, agree.1, rfl, (agree.2 pin' answer).2 (by decide) .epoch _ rfl⟩

end Pins

end HealthConsensus
