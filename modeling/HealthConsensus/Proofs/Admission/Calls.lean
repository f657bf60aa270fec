import HealthConsensus.Admission.Basic
import HealthConsensus.Admission.Update
import HealthConsensus.Proofs.Moves

namespace HealthConsensus

inductive PinsCall where
  | authenticate (agentId pem token : String)
  | rotate (agentId pem current : String)
  | revoke (agentId reason : String)
  | unpin (agentId : String)
  | verify (agentId fingerprint : String)
  | isAdmitted (agentId : String)
  | find (agentId : String)
  | list
  | expiring (within : Duration)

inductive PinsReply where
  | pin (result : Except Error Pin)
  | done (result : Except Error Unit)
  | admitted (answer : Bool)
  | found (pin : Option Pin)
  | pins (all : List Pin)

inductive PinsReply.IsOk : PinsReply → Prop
  | pin (x : Pin) : IsOk (.pin (.ok x))
  | done : IsOk (.done (.ok ()))

def pinKind : RecordKind String Pin where
  key := Pin.agentId
  put := .putPin
  drop := .dropPin
  changes _ := []

@[simp] theorem pinKind_key (pin : Pin) : pinKind.key pin = pin.agentId := rfl

namespace PinsCall

variable (p : AdmissionPolicy) (now : Instant)

def operation : PinsCall → Operation Pins PinsReply
  | authenticate agentId pem token => do
    return .pin (← Pins.authenticate p now agentId pem token)
  | rotate agentId pem current => do return .pin (← Pins.rotate p now agentId pem current)
  | revoke agentId reason => do return .done (← Pins.revoke now agentId reason)
  | unpin agentId => do return .done (← Pins.unpin agentId)
  | verify agentId fingerprint => do
    return .done ((← Operation.state).verify agentId fingerprint)
  | isAdmitted agentId => do return .admitted ((← Operation.state).isAdmitted agentId)
  | find agentId => do return .found ((← Operation.state).get? agentId)
  | list => do return .pins (← Operation.state).all
  | expiring within => do return .pins ((← Operation.state).expiring now within)

inductive Makes : PinsCall → Move Pin → Prop
  | meet (agentId pem token : String) (c : Certificate) :
      agentId ≠ "" → Certificate.accept pem now = .ok c → p.accepts token = true →
      Makes (authenticate agentId pem token)
        (.create (.ofCertificate agentId pem (p.regionOf c) c now))
  | confirm (pin : Pin) (pem token : String) (c : Certificate) :
      Certificate.accept pem now = .ok c → pin.revoked = false → pin.fingerprint = c.fingerprint →
      Makes (authenticate pin.agentId pem token) (.renew pin { pin with lastSeen := now })
  | rotate (pin : Pin) (pem current : String) (c : Certificate) :
      Certificate.accept pem now = .ok c → pin.revoked = false →
      pin.fingerprint = Ascii.lower current →
      Makes (rotate pin.agentId pem current) (.renew pin (pin.rotate pem (p.regionOf c) c now))
  | revoke (pin : Pin) (reason : String) :
      Makes (revoke pin.agentId reason) (.renew pin (pin.revoke reason now))
  | unpin (pin : Pin) : Makes (unpin pin.agentId) (.remove pin)

end PinsCall

namespace Pins

open Operation PinsCall

abbrev Keyed (ps : Pins) : Prop := pinKind.Keyed ps.view

abbrev Traced (kinds : Move Pin → Prop) : Pins → Effects → Pins → Prop :=
  Table.Traced pinKind kinds

theorem traced_law (kinds : Move Pin → Prop) : Operation.Law (Traced kinds) :=
  Table.traced_law pinKind kinds

variable {p : AdmissionPolicy} {now : Instant} {ps : Pins} {α : Type}

structure Idle (ps : Pins) (o : Outcome Pins α) : Prop where
  state : o.state = ps
  changes : o.effects.changes = []
  writes : o.effects.writes = []

structure Moves (ps : Pins) (o : Outcome Pins α) (m : Move Pin) : Prop where
  fits : m.Fits pinKind ps.view
  state : o.state.view = m.apply pinKind ps.view
  changes : o.effects.changes = []
  writes : o.effects.writes = m.writes pinKind

theorem keyed_of_get? (keyed : ps.Keyed) {agentId : String} {pin : Pin}
    (h : ps.get? agentId = some pin) : pin.agentId = agentId := keyed agentId pin h

/-- An operation either refuses and leaves everything as it was, or succeeds and makes one of the
moves of a call. -/
def Settles (p : AdmissionPolicy) (now : Instant) (call : PinsCall)
    (a : Operation Pins (Except Error α)) (ps : Pins) : Prop :=
  ((∃ e, (a ps).result = .error e) ∧ Idle ps (a ps)) ∨
    ∃ x m, (a ps).result = .ok x ∧ Makes p now call m ∧ Moves ps (a ps) m

theorem Moves.intro {agentId : String} {o : Outcome Pins α} {m : Move Pin}
    (key : m.key pinKind = agentId) (found : ps.get? agentId = m.before)
    (keeps : ∀ b, m.after = some b → b.agentId = m.key pinKind)
    (state : o.state.view = Function.update ps.view agentId m.after)
    (changes : o.effects.changes = []) (writes : o.effects.writes = m.writes pinKind) :
    Moves ps o m := by
  subst key
  exact ⟨⟨found, keeps⟩, state, changes, writes⟩

section Settling

variable {call : PinsCall} {a : Operation Pins (Except Error α)}

theorem settles_error (e : Error) :
    Settles p now call (pure (.error e) : Operation Pins (Except Error α)) ps :=
  .inl ⟨⟨e, rfl⟩, rfl, rfl, rfl⟩

theorem settles_log {l : LogLine} (h : Settles p now call a ps) :
    Settles p now call (log l >>= fun _ => a) ps := by
  rcases h with ⟨error, idle⟩ | ⟨x, m, ok, makes, moves⟩
  · exact .inl ⟨error, idle.state, idle.changes, idle.writes⟩
  · exact .inr ⟨x, m, ok, makes, moves.fits, moves.state, moves.changes, moves.writes⟩

theorem settles_put {agentId : String} {pin : Pin} {m : Move Pin} (makes : Makes p now call m)
    (key : m.key pinKind = agentId) (found : ps.get? agentId = m.before)
    (after : m.after = some pin) (own : pin.agentId = agentId) (x : α) :
    Settles p now call (put agentId pin >>= fun _ => pure (.ok x)) ps := by
  refine .inr ⟨x, m, rfl, makes, .intro key found ?_ ?_ rfl ?_⟩
  · intro b hb
    rw [after] at hb
    cases hb
    exact own.trans key.symm
  · rw [after]
    exact Table.view_set ps agentId pin
  · cases m <;> cases after <;> rfl

theorem settles_read {f : Pins → Operation Pins (Except Error α)}
    (h : Settles p now call (f ps) ps) :
    Settles p now call (state >>= f) ps := h

end Settling

theorem confirm_settles (keyed : ps.Keyed) {agentId pem token : String} {c : Certificate}
    {pin : Pin} (accepted : Certificate.accept pem now = .ok c)
    (found : ps.get? agentId = some pin) :
    Settles p now (.authenticate agentId pem token) (confirm now agentId c pin) ps := by
  have key := keyed_of_get? keyed found
  subst key
  unfold confirm
  split
  · exact settles_log (settles_error _)
  · next active =>
    split
    · exact settles_log (settles_error _)
    · next same =>
      have makes := Makes.confirm (p := p) pin pem token c accepted (by simpa using active)
        (by simpa using same)
      exact settles_put makes rfl found rfl rfl _

theorem firstContact_settles {agentId pem token : String} {c : Certificate}
    (named : agentId ≠ "") (accepted : Certificate.accept pem now = .ok c)
    (unknown : ps.get? agentId = none) :
    Settles p now (.authenticate agentId pem token) (firstContact p now agentId pem token c) ps := by
  unfold firstContact
  split
  · exact settles_log (settles_error _)
  · next known =>
    have makes := Makes.meet agentId pem token c named accepted (by simpa using known)
    exact settles_log (settles_put makes rfl unknown rfl rfl _)

theorem authenticate_settles (keyed : ps.Keyed) (agentId pem token : String) :
    Settles p now (.authenticate agentId pem token) (authenticate p now agentId pem token) ps := by
  unfold authenticate
  split
  · exact settles_error _
  · next named =>
    split
    · exact settles_error _
    · next c accepted =>
      apply settles_read
      cases found : ps.get? agentId with
      | some pin => exact confirm_settles keyed accepted found
      | none => exact firstContact_settles (by simpa using named) accepted found

theorem revoke_settles (keyed : ps.Keyed) (agentId reason : String) :
    Settles p now (.revoke agentId reason) (revoke now agentId reason) ps := by
  apply settles_read
  cases found : ps.get? agentId with
  | none => exact settles_error _
  | some pin =>
    have key := keyed_of_get? keyed found
    subst key
    exact settles_log (settles_put (.revoke pin reason) rfl found rfl rfl _)

theorem rotate_settles (keyed : ps.Keyed) (agentId pem current : String) :
    Settles p now (.rotate agentId pem current) (rotate p now agentId pem current) ps := by
  unfold rotate
  split
  · exact settles_error _
  · next c accepted =>
    apply settles_read
    cases found : ps.get? agentId with
    | none => exact settles_error _
    | some pin =>
      have key := keyed_of_get? keyed found
      subst key
      dsimp only
      split
      · exact settles_error _
      · next active =>
        split
        · exact settles_log (settles_error _)
        · next same =>
          have makes := Makes.rotate (p := p) pin pem current c accepted (by simpa using active)
            (by simpa using same)
          exact settles_log (settles_put makes rfl found rfl rfl _)

theorem unpin_settles (keyed : ps.Keyed) (agentId : String) :
    Settles p now (.unpin agentId) (unpin agentId) ps := by
  apply settles_read
  cases found : ps.get? agentId with
  | none => exact settles_error _
  | some pin =>
    have key := keyed_of_get? keyed found
    subst key
    refine .inr ⟨(), .remove pin, rfl, .unpin pin, .intro rfl found ?_ ?_ rfl rfl⟩
    · intro b hb
      cases hb
    · exact Table.view_erase ps pin.agentId

theorem settles_reply {call : PinsCall} {a : Operation Pins (Except Error α)}
    (h : Settles p now call a ps) {reply : Except Error α → PinsReply}
    (ok : ∀ x, (reply (.ok x)).IsOk) :
    Idle ps ((do return reply (← a) : Operation Pins PinsReply) ps) ∨
      ∃ m, Makes p now call m ∧ ((do return reply (← a) : Operation Pins PinsReply) ps).result.IsOk ∧
        Moves ps ((do return reply (← a) : Operation Pins PinsReply) ps) m := by
  rcases h with ⟨-, idle⟩ | ⟨x, m, done, makes, moves⟩
  · refine .inl ⟨idle.state, ?_, ?_⟩
    · simpa using idle.changes
    · simpa using idle.writes
  · refine .inr ⟨m, makes, ?_, moves.fits, moves.state, ?_, ?_⟩
    · simpa [done] using ok x
    · simpa using moves.changes
    · simpa using moves.writes

theorem operation_cases (p : AdmissionPolicy) (now : Instant) (keyed : ps.Keyed) (call : PinsCall) :
    Idle ps (call.operation p now ps) ∨
      ∃ m, Makes p now call m ∧ (call.operation p now ps).result.IsOk ∧
        Moves ps (call.operation p now ps) m := by
  cases call with
  | authenticate agentId pem token =>
    exact settles_reply (authenticate_settles keyed agentId pem token) .pin
  | rotate agentId pem current =>
    exact settles_reply (rotate_settles keyed agentId pem current) .pin
  | revoke agentId reason =>
    exact settles_reply (revoke_settles keyed agentId reason) fun _ => .done
  | unpin agentId => exact settles_reply (unpin_settles keyed agentId) fun _ => .done
  | verify agentId fingerprint => exact .inl ⟨rfl, rfl, rfl⟩
  | isAdmitted agentId => exact .inl ⟨rfl, rfl, rfl⟩
  | find agentId => exact .inl ⟨rfl, rfl, rfl⟩
  | list => exact .inl ⟨rfl, rfl, rfl⟩
  | expiring within => exact .inl ⟨rfl, rfl, rfl⟩

theorem traced_of_cases {call : PinsCall} {o : Outcome Pins α}
    (h : ps.Keyed → Idle ps o ∨ ∃ m, Makes p now call m ∧ Moves ps o m) :
    Traced (Makes p now call) ps o.effects o.state := fun keyed => by
  rcases h keyed with idle | ⟨m, makes, moves⟩
  · refine ⟨[], by simp, ?_, idle.changes, idle.writes⟩
    rw [idle.state]
    exact .nil _
  · refine ⟨[m], by simpa using makes, ?_, moves.changes, by simpa using moves.writes⟩
    rw [moves.state]
    exact .single moves.fits

theorem operation_traced (call : PinsCall) (ps : Pins) :
    (call.operation p now).Obeys (Traced (Makes p now call)) ps :=
  traced_of_cases fun keyed =>
    (operation_cases p now keyed call).imp id fun ⟨m, makes, _, moves⟩ => ⟨m, makes, moves⟩

theorem traced_of_settles {call : PinsCall} {a : Operation Pins (Except Error α)}
    (h : ps.Keyed → Settles p now call a ps) : a.Obeys (Traced (Makes p now call)) ps :=
  traced_of_cases fun keyed =>
    (h keyed).imp And.right fun ⟨_, m, _, makes, moves⟩ => ⟨m, makes, moves⟩

end Pins

end HealthConsensus
