import HealthConsensus.Proofs.Gossip.Tallies
import HealthConsensus.Proofs.Node.Admission
import HealthConsensus.Proofs.Node.Lines
import Mathlib.Data.List.Forall2

namespace HealthConsensus

open Operation NodeState Fingerprint

inductive Payload.Resembles : Payload → Payload → Prop
  | refl (x : Payload) : Resembles x x
  | heartbeat (h : Heartbeat) {f : String} : SameStart h.fingerprint f →
      Resembles (.heartbeat h) (.heartbeat { h with fingerprint := f })
  | agentAuth (r : AuthRequest) {f : String} (token : String) : SameStart r.fingerprint f →
      Resembles (.agentAuth r) (.agentAuth { r with serviceToken := token, fingerprint := f })

inductive NodeCall.Resembles : NodeCall → NodeCall → Prop
  | refl (c : NodeCall) : Resembles c c
  | message (m : Message) {x : Payload} : m.payload.Resembles x →
      Resembles (.message m) (.message { m with payload := x })
  | authenticate (agentId pem token token' : String) :
      Resembles (.pins (.authenticate agentId pem token)) (.pins (.authenticate agentId pem token'))
  | rotate (agentId pem : String) {f g : String} : SameStart f g →
      Resembles (.pins (.rotate agentId pem f)) (.pins (.rotate agentId pem g))

inductive NodeAction.Resembles : NodeAction → NodeAction → Prop
  | refl (a : NodeAction) : Resembles a a
  | call (now : Instant) {c c' : NodeCall} : c.Resembles c' →
      Resembles (.call now c) (.call now c')

def NodeAnswer.isRefusal : NodeAnswer → Bool
  | .pins (.pin result) => !result.isOk
  | .pins (.done result) => !result.isOk
  | _ => false

def NodeCall.outcome (p : NodePolicy) (now : Instant) (c : NodeCall) (n : NodeState) :
    Bool × Counters :=
  let o := c.answered p now n
  (o.result.isRefusal, o.state.counters)

namespace Handler

variable {p : NodePolicy} {now : Instant} {n : NodeState} {agentId region : String}
  {t : Option Instant}

theorem iff_of_ite_eq {α : Type} {P Q : Prop} [Decidable P] [Decidable Q] {x y : α} (apart : x ≠ y)
    (same : (if P then x else y) = if Q then x else y) : P ↔ Q := by
  by_cases first : P
  · by_cases second : Q
    · exact iff_of_true first second
    · rw [if_pos first, if_neg second] at same
      exact absurd same apart
  · by_cases second : Q
    · rw [if_neg first, if_pos second] at same
      exact absurd same.symm apart
    · exact iff_of_false first second

theorem refusal?_unique {f g : String} {e e' : Error} (h : refusal? p agentId f n = some e)
    (h' : refusal? p agentId g n = some e') : e = e' := by
  unfold refusal? at h h'
  cases required : p.requireAuth with
  | false =>
    rw [required] at h
    cases h
  | true =>
    simp only [required, if_true] at h h'
    cases first : n.pins.verify agentId f with
    | ok _ =>
      rw [first] at h
      cases h
    | error d =>
      cases second : n.pins.verify agentId g with
      | ok _ =>
        rw [second] at h'
        cases h'
      | error d' =>
        rw [first] at h
        rw [second] at h'
        cases h
        cases h'
        exact Pins.verify_error_unique first second

theorem heartbeat_congr {h : Heartbeat} {f : String} (start : SameStart h.fingerprint f)
    (same : refusal? p agentId h.fingerprint n = none ↔ refusal? p agentId f n = none) :
    heartbeat p now agentId region h n =
      heartbeat p now agentId region { h with fingerprint := f } n := by
  unfold heartbeat
  rw [bind_apply, bind_apply, state_apply]
  dsimp only
  cases first : refusal? p agentId h.fingerprint n with
  | none => rw [same.1 first]
  | some e =>
    cases second : refusal? p agentId f n with
    | none =>
      rw [same.2 second] at first
      cases first
    | some e' =>
      cases refusal?_unique first second
      simp only [reject, logged_eq_iff.2 start]

theorem heartbeat_counters (h : Heartbeat) :
    (handle p now ⟨agentId, region, t, .heartbeat h⟩ n).state.counters =
      n.counters.tally
        (if refusal? p agentId h.fingerprint n = none then some .heartbeats else some .rejected) := by
  have passes := refusal?_eq_none_iff (p := p) (n := n) (m := ⟨agentId, region, t, .heartbeat h⟩) rfl
  split
  · next heard => exact handle_counters (.heartbeat h rfl (passes.1 heard))
  · next refused => exact handle_counters (.rejected (not_not.1 fun not => refused (passes.2 not)))

theorem agentAuth_counters (r : AuthRequest) :
    (handle p now ⟨agentId, region, t, .agentAuth r⟩ n).state.counters =
      n.counters.tally
        (if (Pins.authenticate p.admission now agentId r.certificatePem r.serviceToken
          n.pins).result.isOk then some .agentAuths else some .authFailures) := by
  cases result : (Pins.authenticate p.admission now agentId r.certificatePem r.serviceToken
    n.pins).result with
  | ok pin => exact handle_counters (.authenticated r pin rfl result)
  | error e => exact handle_counters (.unauthenticated r e rfl result)

theorem agentAuth_congr {r : AuthRequest} {f token : String} (start : SameStart r.fingerprint f)
    (same : Pins.authenticate p.admission now agentId r.certificatePem r.serviceToken n.pins =
      Pins.authenticate p.admission now agentId r.certificatePem token n.pins) :
    agentAuth p now agentId r n =
      agentAuth p now agentId { r with serviceToken := token, fingerprint := f } n := by
  unfold agentAuth onPins
  simp only [bind_apply, on_apply, same, logged_eq_iff.2 start]

theorem handle_congr {m : Message} {x : Payload} (h : m.payload.Resembles x)
    (same : (handle p now m n).state.counters =
      (handle p now { m with payload := x } n).state.counters) :
    handle p now m n = handle p now { m with payload := x } n := by
  obtain ⟨agentId, region, t, y⟩ := m
  dsimp only at h same ⊢
  cases h with
  | refl => rfl
  | heartbeat h start =>
    rw [heartbeat_counters, heartbeat_counters] at same
    exact heartbeat_congr start (iff_of_ite_eq (by decide) (Counters.tally_injective same))
  | agentAuth r token start =>
    rw [agentAuth_counters, agentAuth_counters] at same
    have alike := iff_of_ite_eq (by decide) (Counters.tally_injective same)
    exact agentAuth_congr start (Pins.authenticate_congr (Bool.eq_iff_iff.2 alike))

end Handler

namespace NodeCall

variable {p : NodePolicy} {now : Instant} {n : NodeState}

theorem pins_congr {c c' : PinsCall} (same : c.operation p.admission now n.pins =
    c'.operation p.admission now n.pins) :
    (pins c).operation p now n = (pins c').operation p now n := by
  simp only [operation, onPins, bind_apply, on_apply, same]

theorem operation_congr {c c' : NodeCall} (h : c.Resembles c')
    (same : c.outcome p now n = c'.outcome p now n) :
    c.operation p now n = c'.operation p now n := by
  cases h with
  | refl => rfl
  | message m alike => exact Handler.handle_congr alike (congrArg Prod.snd same)
  | authenticate agentId pem token token' =>
    have isOk := Pins.authenticate_congr (Bool.not_inj (congrArg Prod.fst same))
    apply pins_congr
    simp only [PinsCall.operation, bind_apply, isOk]
  | rotate agentId pem start =>
    have isOk := Pins.rotate_congr start (Bool.not_inj (congrArg Prod.fst same))
    apply pins_congr
    simp only [PinsCall.operation, bind_apply, isOk]

end NodeCall

namespace Node

def outcomes : List NodeAction → Node → List (Bool × Counters)
  | [], _ => []
  | .call now c :: as, n =>
    c.outcome n.policy now n.state :: outcomes as (n.act (.call now c)).1
  | a :: as, n => outcomes as (n.act a).1

theorem act_congr {a b : NodeAction} (h : a.Resembles b) {n : Node} {as bs : List NodeAction}
    (same : outcomes (a :: as) n = outcomes (b :: bs) n) :
    n.act a = n.act b ∧ outcomes as (n.act a).1 = outcomes bs (n.act a).1 := by
  cases h with
  | refl =>
    refine ⟨rfl, ?_⟩
    cases a with
    | call now c => exact (List.cons.inj same).2
    | _ => exact same
  | @call now c c' alike =>
    obtain ⟨first, later⟩ := List.cons.inj same
    have step : n.act (.call now c) = n.act (.call now c') := by
      simp only [act, perform_eq (NodeCall.operation_blind _ _ _),
        NodeCall.operation_congr alike first]
    exact ⟨step, step ▸ later⟩

theorem run_congr {as bs : List NodeAction} (h : List.Forall₂ NodeAction.Resembles as bs) {n : Node}
    (same : outcomes as n = outcomes bs n) : run as n = run bs n := by
  induction h generalizing n with
  | nil => rfl
  | cons first _ ih =>
    obtain ⟨step, later⟩ := act_congr first same
    simp only [run, ← step, ih later]

/-- Two runs whose steps differ in secrets only, and come to the same, are the same with all that can
be seen of them. Whatever shows a fingerprint shows its first characters and no others, sixteen of
them if there are so many; and starting shows none. -/
theorem logs_show_only_starts (n : Node) :
    (∀ as bs, List.Forall₂ NodeAction.Resembles as bs → outcomes as n = outcomes bs n →
      run as n = run bs n) ∧
    (∀ as, ∀ l ∈ (run as n).2.log, ∀ f ∈ l.fields, f.1 ∈ fieldNames →
      ∃ before now c after whole, as = before ++ .call now c :: after ∧
        l ∈ ((run before n).1.act (.call now c)).2.log ∧
        (c.known (run before n).1.state.pins).standsFor? l f.1 = some whole ∧
        f.2.toList = whole.toList.take 16 ∧ f.2.length = min 16 whole.length) ∧
    ∀ settings storage now, ∀ l ∈ (start settings storage now).2, l.Plain := by
  refine ⟨fun as bs alike same => run_congr alike same, fun as l line f field name => ?_,
    start_plain⟩
  obtain ⟨before, now, c, after, whole, split, logged, stands, shown⟩ :=
    run_explained line field name
  refine ⟨before, now, c, after, whole, split, logged, stands, ?_, ?_⟩
  · rw [shown, toList_logged]
    rfl
  · rw [shown, length_logged]
    rfl

def accents : String := "éééééééééééééééé"

def intrusion (token rest : String) : NodeAction :=
  .call .epoch (.message
    ⟨"a1", "eu", none, .agentAuth ⟨Pins.firstCertificate, token, accents ++ rest⟩⟩)

def refusalLine : LogLine :=
  .warn "Agent authentication failed"
    [("agent_id", "a1"), ("fingerprint", accents), ("error", "invalid service token")]

def admissionLine : LogLine :=
  .debug "Agent authenticated" [("agent_id", "a1"), ("fingerprint", "d76c624f1c576d80")]

theorem logs_show_only_starts_of_intruder :
    outcomes [intrusion "guess" "é1"] newNode = outcomes [intrusion "other" ""] newNode ∧
    run [intrusion "guess" "é1"] newNode = run [intrusion "other" ""] newNode ∧
    refusalLine ∈ (run [intrusion "guess" "é1"] newNode).2.log ∧
    (∃ whole : String, accents.toList = whole.toList.take 16 ∧
      accents.length = min 16 whole.length) ∧
    admissionLine ∈ (run newcomer newNode).2.log ∧
    ∃ whole : String, "d76c624f1c576d80".toList = whole.toList.take 16 := by
  obtain ⟨alike, starts, -⟩ := logs_show_only_starts newNode
  have same : outcomes [intrusion "guess" "é1"] newNode = outcomes [intrusion "other" ""] newNode := by
    decide +kernel
  have refused : refusalLine ∈ (run [intrusion "guess" "é1"] newNode).2.log := by decide +kernel
  have admitted : admissionLine ∈ (run newcomer newNode).2.log := by decide +kernel
  have start : SameStart (accents ++ "é1") (accents ++ "") := by
    unfold SameStart
    decide +kernel
  have resembles : NodeAction.Resembles (intrusion "guess" "é1") (intrusion "other" "") :=
    .call .epoch (.message _ (.agentAuth _ "other" start))
  obtain ⟨-, -, -, -, whole, -, -, -, shown⟩ :=
    starts _ refusalLine refused ("fingerprint", accents) (by decide) (by decide)
  obtain ⟨-, -, -, -, pinned, -, -, -, shown', -⟩ :=
    starts _ admissionLine admitted ("fingerprint", "d76c624f1c576d80") (by decide) (by decide)
  exact ⟨same, alike _ _ (.cons resembles .nil) same, refused, ⟨whole, shown⟩, admitted, pinned,
    shown'⟩

end Node

end HealthConsensus
