import HealthConsensus.Proofs.Admission.Trust
import HealthConsensus.Proofs.Text.Bytes
import Mathlib.Data.List.Induction

namespace HealthConsensus

def IsFingerprint (s : String) : Prop :=
  s.length = 64 ∧ ∀ c ∈ s.toList, c ∈ "0123456789abcdef".toList

theorem hexDigit_char : ∀ n < 16,
    Char.ofNat (Ascii.hexDigit n).toNat ∈ "0123456789abcdef".toList := by decide

theorem Hex.encode_chars (bs : Bytes) :
    ∀ b ∈ Hex.encode bs, Char.ofNat b.toNat ∈ "0123456789abcdef".toList := by
  induction bs with
  | nil => simp [Hex.encode]
  | cons b bs ih =>
    have small : b.toNat < 256 := b.toNat_lt
    intro d hd
    simp only [Hex.encode, List.mem_cons] at hd
    rcases hd with rfl | rfl | hd
    · exact hexDigit_char _ (by omega)
    · exact hexDigit_char _ (by omega)
    · exact ih d hd

namespace Certificate

theorem isFingerprint_fingerprintOf (der : Bytes) : IsFingerprint (fingerprintOf der) := by
  constructor
  · simp [fingerprintOf, Hex.text, Hex.encode_length, Sha256.digest_length]
  · intro c hc
    rw [fingerprintOf, Hex.text, String.toList_ofList] at hc
    obtain ⟨b, hb, rfl⟩ := List.mem_map.1 hc
    exact Hex.encode_chars _ b hb

theorem fingerprint_of_ofDer? {der : Bytes} {c : Certificate} (h : ofDer? der = some c) :
    c.fingerprint = fingerprintOf der := by
  simp only [ofDer?, Option.bind_eq_bind, Option.bind_eq_some_iff, Option.pure_def,
    Option.some.injEq] at h
  obtain ⟨_, -, _, -, _, -, _, -, _, -, same⟩ := h
  rw [← same]

theorem isFingerprint_of_ofPem {pem : String} {c : Certificate} (h : ofPem pem = .ok c) :
    IsFingerprint c.fingerprint := by
  unfold ofPem at h
  split at h
  · cases h
  · next der _ =>
    split at h
    · cases h
    · next read =>
      rw [← Except.ok.inj h, fingerprint_of_ofDer? read]
      exact isFingerprint_fingerprintOf der

theorem regionOf_append (start region : String) :
    regionOf (start ++ "-" ++ region) start = region := by
  unfold regionOf
  rw [Bytes.ofString_append (start ++ "-") region, Bytes.after?_eq_some_iff.2 rfl]
  simp

theorem eq_append_of_regionOf {name start : String} (named : regionOf name start ≠ "") :
    name = start ++ "-" ++ regionOf name start := by
  unfold regionOf at named ⊢
  split at named
  · next rest starts =>
    cases read : Bytes.toString? rest with
    | none => simp [read] at named
    | some region =>
      rw [Option.getD_some]
      apply Bytes.ofString_inj.1
      rw [Bytes.after?_eq_some_iff.1 starts, Bytes.toString?_eq_some_iff.1 read]
      exact (Bytes.ofString_append _ _).symm
  · exact absurd rfl named

end Certificate

namespace AdmissionPolicy

variable {p : AdmissionPolicy} {c : Certificate}

theorem regionOf_named {region : String}
    (name : c.commonName = some (p.regionStart ++ "-" ++ region)) : p.regionOf c = region := by
  simp only [regionOf, name]
  exact Certificate.regionOf_append p.regionStart region

theorem commonName_of_region (named : p.regionOf c ≠ "") :
    c.commonName = some (p.regionStart ++ "-" ++ p.regionOf c) := by
  unfold regionOf at named ⊢
  cases name : c.commonName with
  | none => simp [name] at named
  | some name =>
    simp only [name] at named ⊢
    exact congrArg some (Certificate.eq_append_of_regionOf named)

end AdmissionPolicy

inductive PinsCall.Presents : PinsCall → String → Certificate → Prop
  | authenticate (agentId pem token : String) (c : Certificate) : Certificate.ofPem pem = .ok c →
      Presents (authenticate agentId pem token) agentId c
  | rotate (agentId pem current : String) (c : Certificate) : Certificate.ofPem pem = .ok c →
      Presents (rotate agentId pem current) agentId c

namespace Pins

open Operation PinsCall

variable {p : AdmissionPolicy} {steps earlier since : List PinsStep} {s : PinsStep}
  {agentId : String} {pin next : Pin} {c : Certificate}

def after (p : AdmissionPolicy) (steps : List PinsStep) : Pins := (history p steps .empty).state

structure Accepted (p : AdmissionPolicy) (earlier : List PinsStep) (s : PinsStep)
    (since : List PinsStep) (agentId : String) (c : Certificate) : Prop where
  presents : s.call.Presents agentId c
  ok : (s.call.operation p s.now (after p earlier)).result.IsOk
  pinned : ∀ t ∈ since, t.call ≠ .unpin agentId

structure Describes (p : AdmissionPolicy) (steps : List PinsStep) (agentId : String) (pin : Pin) :
    Prop where
  agent : pin.agentId = agentId
  named : agentId ≠ ""
  certificate : ∃ c, Certificate.ofPem pin.certificatePem = .ok c ∧
    c.fingerprint = pin.fingerprint ∧ c.notAfter = pin.notAfter ∧
    ∀ region, c.commonName = some (p.regionStart ++ "-" ++ region) →
      pin.region = region ∨ region = ""
  fingerprint : IsFingerprint pin.fingerprint
  firstSeen : ∃ earlier pem token since c,
    steps = earlier ++ ⟨pin.firstSeen, .authenticate agentId pem token⟩ :: since ∧
    (after p earlier).get? agentId = none ∧
    Accepted p earlier ⟨pin.firstSeen, .authenticate agentId pem token⟩ since agentId c
  revokedAt : pin.revokedAt.isSome = pin.revoked
  revokedReason : pin.revokedReason.isSome = pin.revoked
  region : pin.region = "" ∨ ∃ earlier s since c, steps = earlier ++ s :: since ∧
    Accepted p earlier s since agentId c ∧
    c.commonName = some (p.regionStart ++ "-" ++ pin.region)

theorem history_concat (ps : Pins) : (history p (steps ++ [s]) ps).state =
    (s.call.operation p s.now (history p steps ps).state).state := by
  induction steps generalizing ps with
  | nil => rfl
  | cons first steps ih => exact ih _

theorem Accepted.later (h : Accepted p earlier s since agentId c) {t : PinsStep}
    (kept : t.call ≠ .unpin agentId) : Accepted p earlier s (since ++ [t]) agentId c where
  presents := h.presents
  ok := h.ok
  pinned := by
    intro u hu
    rcases List.mem_append.1 hu with hu | hu
    · exact h.pinned u hu
    · rw [List.mem_singleton.1 hu]
      exact kept

theorem Describes.later (h : Describes p steps agentId pin) (kept : s.call ≠ .unpin agentId) :
    Describes p (steps ++ [s]) agentId pin := by
  refine ⟨h.agent, h.named, h.certificate, h.fingerprint, ?_, h.revokedAt, h.revokedReason, ?_⟩
  · obtain ⟨earlier, pem, token, since, c, split, absent, accepted⟩ := h.firstSeen
    refine ⟨earlier, pem, token, since ++ [s], c, ?_, absent, accepted.later kept⟩
    rw [split, List.append_assoc, List.cons_append]
  · rcases h.region with empty | ⟨earlier, t, since, c, split, accepted, name⟩
    · exact .inl empty
    · refine .inr ⟨earlier, t, since ++ [s], c, ?_, accepted.later kept, name⟩
      rw [split, List.append_assoc, List.cons_append]

theorem unpin_absent (agentId : String) (ps : Pins) :
    (unpin agentId ps).state.get? agentId = none := by
  cases found : ps.get? agentId with
  | none => simp [unpin, found]
  | some pin => simp [unpin, found, Table.get?_erase]

theorem describes_meet {pem token : String} (absent : (after p steps).get? agentId = none)
    (named : agentId ≠ "") (accepted : Certificate.accept pem s.now = .ok c)
    (call : s.call = .authenticate agentId pem token)
    (ok : (s.call.operation p s.now (after p steps)).result.IsOk) :
    Describes p (steps ++ [s]) agentId (.ofCertificate agentId pem (p.regionOf c) c s.now) := by
  obtain ⟨now, call⟩ := s
  subst call
  obtain ⟨read, -⟩ := accept_eq_ok accepted
  have here : Accepted p steps ⟨now, .authenticate agentId pem token⟩ [] agentId c :=
    ⟨.authenticate agentId pem token c read, ok, by simp⟩
  refine ⟨rfl, named, ⟨c, read, rfl, rfl, ?_⟩, Certificate.isFingerprint_of_ofPem read,
    ⟨steps, pem, token, [], c, rfl, absent, here⟩, rfl, rfl, ?_⟩
  · intro region name
    exact .inl (AdmissionPolicy.regionOf_named name)
  · by_cases empty : p.regionOf c = ""
    · exact .inl empty
    · exact .inr ⟨steps, _, [], c, rfl, here, AdmissionPolicy.commonName_of_region empty⟩

theorem Describes.rotate {pem current : String} (h : Describes p steps agentId pin)
    (accepted : Certificate.accept pem s.now = .ok c)
    (call : s.call = .rotate agentId pem current)
    (ok : (s.call.operation p s.now (after p steps)).result.IsOk) :
    Describes p (steps ++ [s]) agentId (pin.rotate pem (p.regionOf c) c s.now) := by
  have before : Describes p (steps ++ [s]) agentId pin := h.later (by rw [call]; nofun)
  obtain ⟨read, -⟩ := accept_eq_ok accepted
  have here : Accepted p steps s [] agentId c :=
    ⟨by rw [call]; exact .rotate agentId pem current c read, ok, by simp⟩
  refine ⟨before.agent, before.named, ⟨c, read, rfl, rfl, ?_⟩,
    Certificate.isFingerprint_of_ofPem read, before.firstSeen, before.revokedAt,
    before.revokedReason, ?_⟩
  · intro region name
    by_cases empty : region = ""
    · exact .inr empty
    · left
      simp [Pin.rotate, AdmissionPolicy.regionOf_named name, empty]
  · by_cases empty : p.regionOf c = ""
    · have same : (pin.rotate pem (p.regionOf c) c s.now).region = pin.region := by
        simp [Pin.rotate, empty]
      rw [same]
      exact before.region
    · have new : (pin.rotate pem (p.regionOf c) c s.now).region = p.regionOf c := by
        simp [Pin.rotate, empty]
      rw [new]
      exact .inr ⟨steps, s, [], c, rfl, here, AdmissionPolicy.commonName_of_region empty⟩

theorem describes_of_move {m : Move Pin}
    (before : ∀ pin, (after p steps).get? agentId = some pin → Describes p steps agentId pin)
    (makes : s.call.Makes p s.now m)
    (ok : (s.call.operation p s.now (after p steps)).result.IsOk) (key : m.key pinKind = agentId)
    (found : (after p steps).get? agentId = m.before) (there : m.after = some next) :
    Describes p (steps ++ [s]) agentId next := by
  obtain ⟨now, call⟩ := s
  subst key
  cases makes with
  | meet agentId pem token c named accepted known =>
    cases there
    exact describes_meet found named accepted rfl ok
  | confirm pin pem token c accepted active same =>
    cases there
    have h := (before pin found).later (s := ⟨now, .authenticate pin.agentId pem token⟩) nofun
    exact ⟨h.agent, h.named, h.certificate, h.fingerprint, h.firstSeen, h.revokedAt,
      h.revokedReason, h.region⟩
  | rotate pin pem current c accepted active same =>
    cases there
    exact (before pin found).rotate accepted rfl ok
  | revoke pin reason =>
    cases there
    have h := (before pin found).later (s := ⟨now, .revoke pin.agentId reason⟩) nofun
    exact ⟨h.agent, h.named, h.certificate, h.fingerprint, h.firstSeen, rfl, rfl, h.region⟩
  | unpin pin => cases there

theorem pin_describes_its_certificate (p : AdmissionPolicy) (steps : List PinsStep)
    (agentId : String) (pin : Pin) (found : (after p steps).get? agentId = some pin) :
    Describes p steps agentId pin := by
  induction steps using List.reverseRecOn generalizing pin with
  | nil => cases found
  | append_singleton steps s ih =>
    rw [after, history_concat] at found
    have keyed : (after p steps).Keyed := history_keyed Table.keyed_empty steps
    rcases operation_at (p := p) keyed s agentId with same | ⟨m, makes, ok, key, before, there⟩
    · refine (ih pin (same.symm.trans found)).later fun unpinned => ?_
      rw [unpinned] at found
      exact absurd (found.symm.trans (unpin_absent agentId _)) nofun
    · exact describes_of_move ih makes ok key before (there.symm.trans found)

def regionlessCertificate : String :=
  certificateText ("MFYwTAIBATADBgEqMAAwHhcNNzAwMTAxMDAwMDAwWhcNNDkxMjMxMjM1OTU5WjAWMRQwEgYDVQQD"
    ++ "DAtnc2xiLWFnZW50LTAIMAMGASoDAQAwAwYBKgMBAA==")

def regionlessRotation : List PinsStep :=
  [⟨.epoch, .authenticate "a1" firstCertificate "secret"⟩,
    ⟨.epoch, .rotate "a1" regionlessCertificate
      "d76c624f1c576d809b21c3b76821d6aee300f5851ba024e677a39e82068e8050"⟩]

theorem region_kept_by_regionless_rotation :
    ∃ pin c, (after cluster regionlessRotation).get? "a1" = some pin ∧
      Certificate.ofPem pin.certificatePem = .ok c ∧
      c.commonName = some (cluster.regionStart ++ "-" ++ "") ∧ pin.region = "eu" := by
  have known : ((after cluster regionlessRotation).get? "a1").map
      (fun pin => (pin.certificatePem, pin.region)) = some (regionlessCertificate, "eu") := by
    decide +kernel
  have named : (Certificate.ofPem regionlessCertificate).map Certificate.commonName =
      .ok (some (cluster.regionStart ++ "-" ++ "")) := by decide +kernel
  obtain ⟨pin, found, seen⟩ := Option.map_eq_some_iff.1 known
  obtain ⟨text, region⟩ := Prod.mk.inj seen
  cases read : Certificate.ofPem regionlessCertificate with
  | error e =>
    rw [read] at named
    cases named
  | ok c =>
    rw [read] at named
    exact ⟨pin, c, found, text ▸ read, Except.ok.inj named, region⟩

def lostAgent : List PinsStep :=
  [⟨.epoch, .authenticate "a1" nextCertificate "secret"⟩, ⟨.epoch, .unpin "a1"⟩,
    ⟨.epoch, .authenticate "a1" firstCertificate "secret"⟩, rotation,
    ⟨.latest, .revoke "a1" "lost"⟩]

theorem lost_agent_described :
    ∃ pin, (after cluster lostAgent).get? "a1" = some pin ∧
      Describes cluster lostAgent "a1" pin ∧ pin.region = "eu" ∧ pin.revokedAt = some .latest := by
  have known : ((after cluster lostAgent).get? "a1").map (fun pin => (pin.region, pin.revokedAt)) =
      some ("eu", some .latest) := by decide +kernel
  obtain ⟨pin, found, seen⟩ := Option.map_eq_some_iff.1 known
  obtain ⟨region, revokedAt⟩ := Prod.mk.inj seen
  exact ⟨pin, found, pin_describes_its_certificate cluster lostAgent "a1" pin found, region,
    revokedAt⟩

end Pins

end HealthConsensus
