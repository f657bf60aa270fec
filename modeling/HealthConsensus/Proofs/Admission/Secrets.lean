import HealthConsensus.Proofs.Admission.Trust
import HealthConsensus.Proofs.Logs

namespace HealthConsensus

namespace Fingerprint

theorem toList_logged (f : String) : (logged f).toList = f.toList.take loggedLength := by
  rw [logged, String.toList_ofList]

theorem length_logged (f : String) : (logged f).length = min loggedLength f.length := by
  rw [← String.length_toList, toList_logged, List.length_take, String.length_toList]

def SameStart (f g : String) : Prop := f.toList.take loggedLength = g.toList.take loggedLength

theorem logged_eq_iff {f g : String} : logged f = logged g ↔ SameStart f g :=
  ⟨fun same => by rw [SameStart, ← toList_logged, same, toList_logged], congrArg String.ofList⟩

/-- What a field can show the start of: the fingerprint of the certificate that a call presents, that
of the pin of the agent that the line names, or one that a call claims. -/
inductive Source where
  | presented
  | pinned
  | claimed

def sources : List (String × List (String × Source)) :=
  [("Rejected revoked agent", [("fingerprint", .presented)]),
    ("Certificate fingerprint mismatch", [("pinned", .pinned), ("presented", .presented)]),
    ("Invalid service token on first contact", [("fingerprint", .presented)]),
    ("Pinned new agent certificate", [("fingerprint", .presented)]),
    ("Agent certificate revoked", [("fingerprint", .pinned)]),
    ("Rotation rejected: current fingerprint mismatch", [("presented", .claimed)]),
    ("Agent certificate rotated", [("old", .pinned), ("new", .presented)]),
    ("Agent certificate unpinned", [("fingerprint", .pinned)]),
    ("Dropping message from unauthenticated agent", [("fingerprint", .claimed)]),
    ("Agent authenticated", [("fingerprint", .presented)]),
    ("Agent authentication failed", [("fingerprint", .claimed)])]

structure Known where
  pem : Option String
  pins : Pins
  claimed : Option String

namespace Known

variable {κ : Known}

def whole? (κ : Known) (agentId : String) : Source → Option String
  | .presented => do return (← (Certificate.ofPem (← κ.pem)).toOption).fingerprint
  | .pinned => (κ.pins.get? agentId).map Pin.fingerprint
  | .claimed => κ.claimed

def standsFor? (κ : Known) (l : LogLine) (name : String) : Option String := do
  κ.whole? (← l.fields.lookup "agent_id") (← (← sources.lookup l.message).lookup name)

def Explains (κ : Known) (l : LogLine) : Prop :=
  ∀ f ∈ l.fields, f.1 ∈ fieldNames → ∃ whole, κ.standsFor? l f.1 = some whole ∧ f.2 = logged whole

def Shows (κ : Known) (message agentId : String) (f : String × String) : Prop :=
  f.1 ∈ fieldNames → ∃ source whole, (sources.lookup message).bind (List.lookup f.1) = some source ∧
    κ.whole? agentId source = some whole ∧ f.2 = logged whole

theorem shows_other {message agentId name : String} (value : String) (h : name ∉ fieldNames) :
    κ.Shows message agentId (name, value) := fun shown => absurd shown h

theorem shows_start {message agentId name whole : String} {source : Source}
    (h : (sources.lookup message).bind (List.lookup name) = some source)
    (known : κ.whole? agentId source = some whole) :
    κ.Shows message agentId (name, logged whole) := fun _ => ⟨source, whole, h, known, rfl⟩

theorem explains_line {level : LogLevel} {message agentId : String}
    {fields : List (String × String)} (h : ∀ f ∈ fields, κ.Shows message agentId f) :
    κ.Explains ⟨level, message, ("agent_id", agentId) :: fields⟩ := by
  intro f hf name
  rcases List.mem_cons.1 hf with rfl | hf
  · exact absurd name (show "agent_id" ∉ fieldNames by decide)
  · obtain ⟨source, whole, found, known, shown⟩ := h f hf name
    refine ⟨whole, ?_, shown⟩
    obtain ⟨shownBy, table, entry⟩ := Option.bind_eq_some_iff.1 found
    simp [standsFor?, table, entry, known]

theorem explains_of_plain {l : LogLine} (h : l.Plain) : κ.Explains l := fun f hf name =>
  absurd name (h f hf)

end Known

end Fingerprint

namespace Pins

open Operation Fingerprint Fingerprint.Known

variable {p : AdmissionPolicy} {now : Instant} {ps : Pins} {agentId pem token token' : String}

theorem firstContact_congr {c : Certificate} (same : p.accepts token = p.accepts token') :
    firstContact p now agentId pem token c = firstContact p now agentId pem token' c := by
  unfold firstContact
  rw [same]

theorem firstContact_isOk (c : Certificate) :
    (firstContact p now agentId pem token c ps).result.isOk = p.accepts token := by
  unfold firstContact
  cases p.accepts token <;> rfl

theorem authenticate_congr
    (same : (authenticate p now agentId pem token ps).result.isOk =
      (authenticate p now agentId pem token' ps).result.isOk) :
    authenticate p now agentId pem token ps = authenticate p now agentId pem token' ps := by
  unfold authenticate at same ⊢
  by_cases unnamed : agentId.isEmpty = true
  · rw [if_pos unnamed, if_pos unnamed]
  · rw [if_neg unnamed, if_neg unnamed] at same ⊢
    cases accepted : Certificate.accept pem now with
    | error e => rfl
    | ok c =>
      simp only [accepted, bind_apply, state_apply] at same ⊢
      cases found : ps.get? agentId with
      | some pin => rfl
      | none =>
        simp only [found, firstContact_isOk] at same ⊢
        rw [firstContact_congr same]

theorem verify_error_unique {f g : String} {e e' : Error} (h : ps.verify agentId f = .error e)
    (h' : ps.verify agentId g = .error e') : e = e' := by
  unfold verify at h h'
  cases found : ps.get? agentId with
  | none =>
    simp only [found, Except.error.injEq] at h h'
    exact h.symm.trans h'
  | some pin =>
    simp only [found] at h h'
    by_cases revoked : pin.revoked = true
    · simp only [revoked, if_true, Except.error.injEq] at h h'
      exact h.symm.trans h'
    · rw [if_neg revoked] at h h'
      split at h
      · cases h
      · split at h'
        · cases h'
        · cases h
          cases h'
          rfl

theorem rotate_congr {current current' : String} (start : SameStart current current')
    (same : (rotate p now agentId pem current ps).result.isOk =
      (rotate p now agentId pem current' ps).result.isOk) :
    rotate p now agentId pem current ps = rotate p now agentId pem current' ps := by
  unfold rotate at same ⊢
  cases accepted : Certificate.accept pem now with
  | error e => rfl
  | ok c =>
    simp only [accepted, bind_apply, state_apply] at same ⊢
    cases found : ps.get? agentId with
    | none => rfl
    | some pin =>
      simp only [found] at same ⊢
      by_cases revoked : pin.revoked = true
      · rw [if_pos revoked, if_pos revoked]
      · rw [if_neg revoked, if_neg revoked] at same ⊢
        rw [logged_eq_iff.2 start] at same ⊢
        cases own : pin.fingerprint != Ascii.lower current <;>
          cases own' : pin.fingerprint != Ascii.lower current' <;>
          simp only [own, own'] at same ⊢
        · cases same
        · cases same

section Lines

variable {κ : Known} {c : Certificate} {pin : Pin}

theorem whole?_presented (agentId : String) (presents : κ.pem = some pem)
    (accepted : Certificate.accept pem now = .ok c) :
    κ.whole? agentId .presented = some c.fingerprint := by
  simp [Known.whole?, presents, (accept_eq_ok accepted).1, Except.toOption]

theorem whole?_pinned (pins : κ.pins = ps) (found : ps.get? agentId = some pin) :
    κ.whole? agentId .pinned = some pin.fingerprint := by
  simp [Known.whole?, pins, found]

theorem confirm_fingerprint {pin' : Pin} (h : (confirm now agentId c pin ps).result = .ok pin') :
    pin'.fingerprint = c.fingerprint := by
  unfold confirm at h
  split at h
  · cases h
  · split at h
    · cases h
    · next same =>
      cases h
      simpa using same

theorem firstContact_fingerprint (h : (firstContact p now agentId pem token c ps).result = .ok pin) :
    pin.fingerprint = c.fingerprint := by
  unfold firstContact at h
  split at h
  · cases h
  · cases h
    rfl

theorem whole?_authenticated (presents : κ.pem = some pem)
    (h : (authenticate p now agentId pem token ps).result = .ok pin) :
    κ.whole? agentId .presented = some pin.fingerprint := by
  unfold authenticate at h
  split at h
  · cases h
  · split at h
    · cases h
    · next c accepted =>
      have presented := whole?_presented agentId presents accepted
      rw [bind_apply, state_apply] at h
      cases found : ps.get? agentId with
      | some known =>
        simp only [found] at h
        exact confirm_fingerprint h ▸ presented
      | none =>
        simp only [found] at h
        exact firstContact_fingerprint h ▸ presented

theorem confirm_explained (presented : κ.whole? agentId .presented = some c.fingerprint)
    (pinned : κ.whole? agentId .pinned = some pin.fingerprint) :
    (confirm now agentId c pin).Logs κ.Explains ps := by
  unfold confirm
  split
  · refine Logs.bind (Logs.line (explains_line (List.forall_mem_singleton.2 ?_)) _) (Logs.pure _ _)
    exact shows_start rfl presented
  · split
    · refine Logs.bind (Logs.line (explains_line (List.forall_mem_cons.2
        ⟨?_, List.forall_mem_singleton.2 ?_⟩)) _) (Logs.pure _ _)
      · exact shows_start rfl pinned
      · exact shows_start rfl presented
    · exact Logs.nothing rfl

theorem firstContact_explained (presented : κ.whole? agentId .presented = some c.fingerprint) :
    (firstContact p now agentId pem token c).Logs κ.Explains ps := by
  unfold firstContact
  split
  · refine Logs.bind (Logs.line (explains_line (List.forall_mem_singleton.2 ?_)) _) (Logs.pure _ _)
    exact shows_start rfl presented
  · refine Logs.bind (Logs.line (explains_line (List.forall_mem_cons.2
      ⟨?_, List.forall_mem_singleton.2 ?_⟩)) _) (Logs.nothing rfl)
    · exact shows_other _ (by decide)
    · exact shows_start rfl presented

theorem authenticate_explained (presents : κ.pem = some pem) (pins : κ.pins = ps) :
    (authenticate p now agentId pem token).Logs κ.Explains ps := by
  unfold authenticate
  split
  · exact Logs.pure _ _
  · split
    · exact Logs.pure _ _
    · next c accepted =>
      have presented := whole?_presented agentId presents accepted
      apply Logs.readState
      cases found : ps.get? agentId with
      | some pin => exact confirm_explained presented (whole?_pinned pins found)
      | none => exact firstContact_explained presented

theorem revoke_explained (pins : κ.pins = ps) (agentId reason : String) :
    (revoke now agentId reason).Logs κ.Explains ps := by
  apply Logs.readState
  cases found : ps.get? agentId with
  | none => exact Logs.pure _ _
  | some pin =>
    have pinned : κ.whole? agentId .pinned = some pin.fingerprint := whole?_pinned pins found
    refine Logs.bind (Logs.line (explains_line (List.forall_mem_cons.2
      ⟨?_, List.forall_mem_singleton.2 ?_⟩)) _) (Logs.nothing rfl)
    · exact shows_other _ (by decide)
    · exact shows_start rfl pinned

theorem rotate_explained {current : String} (presents : κ.pem = some pem) (pins : κ.pins = ps)
    (claims : κ.claimed = some current) :
    (rotate p now agentId pem current).Logs κ.Explains ps := by
  unfold rotate
  split
  · exact Logs.pure _ _
  · next c accepted =>
    apply Logs.readState
    cases found : ps.get? agentId with
    | none => exact Logs.pure _ _
    | some pin =>
      dsimp only
      split
      · exact Logs.pure _ _
      · split
        · refine Logs.bind (Logs.line (explains_line (List.forall_mem_singleton.2 ?_)) _)
            (Logs.pure _ _)
          exact shows_start rfl claims
        · refine Logs.bind (Logs.line (explains_line (List.forall_mem_cons.2
            ⟨?_, List.forall_mem_singleton.2 ?_⟩)) _) (Logs.nothing rfl)
          · exact shows_start rfl (whole?_pinned pins found)
          · exact shows_start rfl (whole?_presented agentId presents accepted)

theorem unpin_explained (pins : κ.pins = ps) (agentId : String) :
    (unpin agentId).Logs κ.Explains ps := by
  apply Logs.readState
  cases found : ps.get? agentId with
  | none => exact Logs.pure _ _
  | some pin =>
    refine Logs.bind (Logs.nothing rfl) (Logs.bind (Logs.nothing rfl)
      (Logs.bind (Logs.line (explains_line (List.forall_mem_singleton.2 ?_)) _) (Logs.pure _ _)))
    exact shows_start rfl (whole?_pinned pins found)

end Lines

end Pins

end HealthConsensus
