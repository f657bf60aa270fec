import HealthConsensus.Proofs.Admission.Calls
import HealthConsensus.Proofs.Loading

namespace HealthConsensus

theorem Ascii.toLower_toLower (c : Char) : c.toLower.toLower = c.toLower := by
  by_cases h : c.val ≥ 'A'.val ∧ c.val ≤ 'Z'.val
  · have val : c.toLower.val = c.val + ('a'.val - 'A'.val) := congrArg Char.val (dif_pos h)
    have lower : ¬(c.toLower.val ≥ 'A'.val ∧ c.toLower.val ≤ 'Z'.val) := by
      rw [val]
      simp only [ge_iff_le, UInt32.le_iff_toNat_le, UInt32.toNat_add] at h ⊢
      simp at h ⊢
      omega
    exact dif_neg lower
  · exact congrArg Char.toLower (dif_neg h)

theorem Ascii.lower_lower (s : String) : Ascii.lower (Ascii.lower s) = Ascii.lower s := by
  have idem : Char.toLower ∘ Char.toLower = Char.toLower := funext Ascii.toLower_toLower
  rw [Ascii.lower, Ascii.lower, String.map_map, idem]

structure PinsStep where
  now : Instant
  call : PinsCall

namespace Pins

open Operation

def step (p : AdmissionPolicy) (s : PinsStep) : Operation Pins Unit := do
  let _ ← s.call.operation p s.now

def history (p : AdmissionPolicy) (steps : List PinsStep) : Operation Pins Unit :=
  forEach steps (step p)

inductive Initial : Pins → Prop
  | empty : Initial .empty
  | loaded (listing : Option (Except Error (List (String × Bytes)))) :
      Initial (load listing .empty).state

structure TrustLaw (s : PinsStep) (agentId : String) (before : Pins)
    (o : Outcome Pins PinsReply) : Prop where
  identity : ∀ pin pin', before.get? agentId = some pin → o.state.get? agentId = some pin' →
    pin'.agentId = pin.agentId ∧ pin'.firstSeen = pin.firstSeen
  certificate : ∀ pin pin', before.get? agentId = some pin → o.state.get? agentId = some pin' →
    pin'.fingerprint ≠ pin.fingerprint ∨ pin'.certificatePem ≠ pin.certificatePem ∨
      pin'.notAfter ≠ pin.notAfter →
    ∃ pem current c, s.call = .rotate agentId pem current ∧ o.result.IsOk ∧
      Ascii.lower current = Ascii.lower pin.fingerprint ∧ Certificate.ofPem pem = .ok c ∧
      c.isValidAt s.now = true
  revoked : ∀ pin pin', before.get? agentId = some pin → o.state.get? agentId = some pin' →
    pin.revoked = true →
    pin'.revoked = true ∧ (pin' ≠ pin → ∃ reason, s.call = .revoke agentId reason)
  appears : ∀ pin', before.get? agentId = none → o.state.get? agentId = some pin' →
    ∃ pem token, s.call = .authenticate agentId pem token
  disappears : ∀ pin, before.get? agentId = some pin → o.state.get? agentId = none →
    s.call = .unpin agentId

variable {p : AdmissionPolicy} {ps : Pins}

theorem history_keyed (keyed : ps.Keyed) (steps : List PinsStep) :
    Keyed (history p steps ps).state := by
  have traced : (history p steps).Obeys (Traced fun _ => True) ps := by
    apply (traced_law _).forEach
    intro s _ ps
    exact (traced_law _).bind
      ((operation_traced s.call ps).mono fun _ _ _ h => h.mono fun _ _ => trivial)
      ((traced_law _).pure _ _)
  exact traced.keyed keyed

theorem Initial.keyed (h : Initial ps) : ps.Keyed := by
  cases h with
  | empty => exact Table.keyed_empty
  | loaded listing => exact Loader.load_keyed rfl listing Table.keyed_empty

theorem accept_eq_ok {pem : String} {now : Instant} {c : Certificate}
    (h : Certificate.accept pem now = .ok c) :
    Certificate.ofPem pem = .ok c ∧ c.isValidAt now = true := by
  unfold Certificate.accept at h
  cases read : Certificate.ofPem pem with
  | error e => simp [read, bind, Except.bind] at h
  | ok d =>
    cases valid : d.isValidAt now with
    | false => simp [read, valid, bind, Except.bind, throw, throwThe, MonadExceptOf.throw] at h
    | true =>
      simp only [read, valid, bind, Except.bind, if_true, pure, Except.pure, Except.ok.injEq] at h
      exact ⟨congrArg Except.ok h, h ▸ valid⟩

theorem operation_at (keyed : ps.Keyed) (s : PinsStep) (agentId : String) :
    (s.call.operation p s.now ps).state.get? agentId = ps.get? agentId ∨
      ∃ m, s.call.Makes p s.now m ∧ (s.call.operation p s.now ps).result.IsOk ∧
        m.key pinKind = agentId ∧ ps.get? agentId = m.before ∧
        (s.call.operation p s.now ps).state.get? agentId = m.after := by
  rcases operation_cases p s.now keyed s.call with idle | ⟨m, makes, ok, moves⟩
  · exact .inl (by rw [idle.state])
  · have after : (s.call.operation p s.now ps).state.get? agentId =
        m.apply pinKind ps.view agentId := congrFun moves.state agentId
    by_cases h : agentId = m.key pinKind
    · subst h
      rw [Move.apply, Function.update_self] at after
      exact .inr ⟨m, makes, ok, rfl, moves.fits.found, after⟩
    · rw [Move.apply, Function.update_of_ne h] at after
      exact .inl after

theorem trustLaw_of_same {s : PinsStep} {agentId : String} {o : Outcome Pins PinsReply}
    (same : o.state.get? agentId = ps.get? agentId) : TrustLaw s agentId ps o where
  identity pin pin' h h' := by
    rw [same, h] at h'
    cases h'
    exact ⟨rfl, rfl⟩
  certificate pin pin' h h' changed := by
    rw [same, h] at h'
    cases h'
    simp at changed
  revoked pin pin' h h' locked := by
    rw [same, h] at h'
    cases h'
    exact ⟨locked, fun changed => absurd rfl changed⟩
  appears pin' h h' := by
    rw [same, h] at h'
    cases h'
  disappears pin h h' := by
    rw [same, h] at h'
    cases h'

theorem trustLaw_of_renew {s : PinsStep} {agentId : String} {o : Outcome Pins PinsReply}
    {pin next : Pin} (before : ps.get? agentId = some pin) (after : o.state.get? agentId = some next)
    (identity : next.agentId = pin.agentId ∧ next.firstSeen = pin.firstSeen)
    (certificate : next.fingerprint ≠ pin.fingerprint ∨ next.certificatePem ≠ pin.certificatePem ∨
        next.notAfter ≠ pin.notAfter →
      ∃ pem current c, s.call = .rotate agentId pem current ∧ o.result.IsOk ∧
        Ascii.lower current = Ascii.lower pin.fingerprint ∧ Certificate.ofPem pem = .ok c ∧
        c.isValidAt s.now = true)
    (revoked : pin.revoked = true →
      next.revoked = true ∧ ∃ reason, s.call = .revoke agentId reason) :
    TrustLaw s agentId ps o where
  identity x x' h h' := by
    cases before.symm.trans h
    cases after.symm.trans h'
    exact identity
  certificate x x' h h' changed := by
    cases before.symm.trans h
    cases after.symm.trans h'
    exact certificate changed
  revoked x x' h h' locked := by
    cases before.symm.trans h
    cases after.symm.trans h'
    exact ⟨(revoked locked).1, fun _ => (revoked locked).2⟩
  appears x' h := by cases before.symm.trans h
  disappears x h h' := by cases after.symm.trans h'

theorem trustLaw_of_move {s : PinsStep} {agentId : String} {o : Outcome Pins PinsReply}
    {m : Move Pin} (makes : s.call.Makes p s.now m) (ok : o.result.IsOk)
    (key : m.key pinKind = agentId) (before : ps.get? agentId = m.before)
    (after : o.state.get? agentId = m.after) : TrustLaw s agentId ps o := by
  obtain ⟨now, call⟩ := s
  subst key
  cases makes with
  | meet agentId pem token c =>
    refine ⟨?_, ?_, ?_, ?_, ?_⟩
    · intro x _ h
      cases before.symm.trans h
    · intro x _ h
      cases before.symm.trans h
    · intro x _ h
      cases before.symm.trans h
    · intro _ _ _
      exact ⟨pem, token, rfl⟩
    · intro x h
      cases before.symm.trans h
  | confirm pin pem token c accepted active same =>
    refine trustLaw_of_renew before after ⟨rfl, rfl⟩ (fun changed => ?_) fun locked => ?_
    · simp at changed
    · rw [active] at locked
      cases locked
  | rotate pin pem current c accepted active same =>
    refine trustLaw_of_renew before after ⟨rfl, rfl⟩ (fun _ => ?_) fun locked => ?_
    · obtain ⟨read, valid⟩ := accept_eq_ok accepted
      refine ⟨pem, current, c, rfl, ok, ?_, read, valid⟩
      rw [same, Ascii.lower_lower]
    · rw [active] at locked
      cases locked
  | revoke pin reason =>
    refine trustLaw_of_renew before after ⟨rfl, rfl⟩ (fun changed => ?_) fun _ => ⟨rfl, reason, rfl⟩
    simp [Pin.revoke] at changed
  | unpin pin =>
    refine ⟨?_, ?_, ?_, ?_, ?_⟩
    · intro _ _ _ h
      cases after.symm.trans h
    · intro _ _ _ h
      cases after.symm.trans h
    · intro _ _ _ h
      cases after.symm.trans h
    · intro _ h
      cases before.symm.trans h
    · intro _ _ _
      rfl

theorem trust_on_first_use (h : Initial ps) (earlier : List PinsStep) (s : PinsStep)
    (agentId : String) :
    TrustLaw s agentId (history p earlier ps).state
      (s.call.operation p s.now (history p earlier ps).state) := by
  have keyed := history_keyed (p := p) h.keyed earlier
  rcases operation_at keyed s agentId with same | ⟨m, makes, ok, key, before, after⟩
  · exact trustLaw_of_same same
  · exact trustLaw_of_move makes ok key before after

def cluster : AdmissionPolicy := AuthSettings.policy { serviceTokens := ["secret"] }

def certificateText (base64 : String) : String :=
  "-----BEGIN CERTIFICATE-----\n" ++ base64 ++ "\n-----END CERTIFICATE-----"

def firstCertificate : String :=
  certificateText ("MFgwTgIBATADBgEqMAAwHhcNNzAwMTAxMDAwMDAwWhcNNDkxMjMxMjM1OTU5WjAYMRYwFAYDVQQD"
    ++ "DA1nc2xiLWFnZW50LWV1MAgwAwYBKgMBADADBgEqAwEA")

def nextCertificate : String :=
  certificateText ("MFgwTgIBAjADBgEqMAAwHhcNNzAwMTAxMDAwMDAwWhcNNDkxMjMxMjM1OTU5WjAYMRYwFAYDVQQD"
    ++ "DA1nc2xiLWFnZW50LWV1MAgwAwYBKgMBADADBgEqAwEA")

def rotation : PinsStep :=
  ⟨.epoch, .rotate "a1" nextCertificate
    "D76C624F1C576D809B21C3B76821D6AEE300F5851BA024E677A39E82068E8050"⟩

theorem trust_on_first_use_rotation :
    Initial .empty ∧
      TrustLaw rotation "a1"
        (history cluster [⟨.epoch, .authenticate "a1" firstCertificate "secret"⟩] .empty).state
        (rotation.call.operation cluster rotation.now
          (history cluster [⟨.epoch, .authenticate "a1" firstCertificate "secret"⟩] .empty).state) ∧
      ((rotation.call.operation cluster rotation.now
          (history cluster [⟨.epoch, .authenticate "a1" firstCertificate "secret"⟩]
            .empty).state).state.get? "a1").map Pin.fingerprint =
        some "0fddcdb1dad3b7a350465d315771ab6da1dea71926564b3808b06b11c89c7941" :=
  ⟨.empty, trust_on_first_use .empty _ rotation "a1", by decide +kernel⟩

end Pins

end HealthConsensus
