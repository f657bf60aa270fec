import HealthConsensus.Proofs.Gossip.Heartbeats

namespace HealthConsensus

open Operation NodeState

inductive Tally where
  | heartbeats
  | registers
  | deregisters
  | agentAuths
  | unknown
  | rejected
  | authFailures
deriving DecidableEq

namespace Counters

def get : Tally → Counters → UInt64
  | .heartbeats, c => c.heartbeats
  | .registers, c => c.registers
  | .deregisters, c => c.deregisters
  | .agentAuths, c => c.agentAuths
  | .unknown, c => c.unknown
  | .rejected, c => c.rejected
  | .authFailures, c => c.authFailures

def tally : Option Tally → Counters → Counters
  | none, c => c
  | some .heartbeats, c => { c with heartbeats := c.heartbeats + 1 }
  | some .registers, c => { c with registers := c.registers + 1 }
  | some .deregisters, c => { c with deregisters := c.deregisters + 1 }
  | some .agentAuths, c => { c with agentAuths := c.agentAuths + 1 }
  | some .unknown, c => { c with unknown := c.unknown + 1 }
  | some .rejected, c => { c with rejected := c.rejected + 1 }
  | some .authFailures, c => { c with authFailures := c.authFailures + 1 }

def handled (c : Counters) : UInt64 :=
  c.heartbeats + c.registers + c.deregisters + c.agentAuths + c.unknown + c.rejected +
    c.authFailures

variable {c : Counters} {t : Tally} {o o' : Option Tally}

theorem get_tally (c : Counters) (o : Option Tally) (t : Tally) :
    (c.tally o).get t = c.get t + if o = some t then 1 else 0 := by
  cases o with
  | none => simp [tally]
  | some t' => cases t' <;> cases t <;> simp [tally, get]

theorem get_tally_ne_iff : (c.tally o).get t ≠ c.get t ↔ o = some t := by
  rw [get_tally]
  split <;> simp [*]

theorem tally_injective (h : c.tally o = c.tally o') : o = o' := by
  apply Option.ext
  intro t
  rw [← get_tally_ne_iff (c := c), h, get_tally_ne_iff]

theorem handled_tally (c : Counters) (o : Option Tally) :
    (c.tally o).handled = c.handled + if o = none then 0 else 1 := by
  cases o with
  | none => simp [tally]
  | some t => cases t <;> simp only [tally, handled, reduceCtorEq, if_false] <;> ac_rfl

end Counters

namespace Message

/-- Only admitted agents may speak for backends, and the agent of the message is not let through: a
heartbeat must show the fingerprint of its pin, the others need a pin. -/
def Barred (p : NodePolicy) (pins : Pins) (m : Message) : Prop :=
  p.requireAuth = true ∧
    match m.payload with
    | .heartbeat h => pins.verify m.agentId h.fingerprint ≠ .ok ()
    | .register _ => pins.isAdmitted m.agentId = false
    | .deregister _ => pins.isAdmitted m.agentId = false
    | _ => False

inductive ComesTo (p : NodePolicy) (now : Instant) (n : NodeState) (m : Message) :
    Option Tally → Operation NodeState Unit → Prop
  | rejected : m.Barred p n.pins → ComesTo p now n m (some .rejected) (done ())
  | heartbeat (h : Heartbeat) : m.payload = .heartbeat h → ¬m.Barred p n.pins →
      ComesTo p now n m (some .heartbeats)
        (onRegistry (Registry.applyHeartbeat p.registry now m.agentId m.region h))
  | register (r : RegisterRequest) : m.payload = .register r → ¬m.Barred p n.pins →
      (Registry.register p.registry now (r.registration m.agentId m.region) n.registry).result =
        .ok () →
      ComesTo p now n m (some .registers) do
        let _ ← onRegistry (Registry.register p.registry now (r.registration m.agentId m.region))
  | invalid (r : RegisterRequest) (detail : String) : m.payload = .register r →
      ¬m.Barred p n.pins →
      (Registry.register p.registry now (r.registration m.agentId m.region) n.registry).result =
        .error (.invalidInput detail) →
      ComesTo p now n m none (done ())
  | deregister (r : DeregisterRequest) : m.payload = .deregister r → ¬m.Barred p n.pins →
      (Registry.deregister r.key n.registry).result = .ok () →
      ComesTo p now n m (some .deregisters) do let _ ← onRegistry (Registry.deregister r.key)
  | missing (r : DeregisterRequest) : m.payload = .deregister r → ¬m.Barred p n.pins →
      n.registry.get? r.key = none → ComesTo p now n m none (done ())
  | authenticated (r : AuthRequest) (pin : Pin) : m.payload = .agentAuth r →
      (Pins.authenticate p.admission now m.agentId r.certificatePem r.serviceToken n.pins).result =
        .ok pin →
      ComesTo p now n m (some .agentAuths) do
        let _ ← onPins (Pins.authenticate p.admission now m.agentId r.certificatePem r.serviceToken)
  | unauthenticated (r : AuthRequest) (e : Error) : m.payload = .agentAuth r →
      (Pins.authenticate p.admission now m.agentId r.certificatePem r.serviceToken n.pins).result =
        .error e →
      ComesTo p now n m (some .authFailures) do
        let _ ← onPins (Pins.authenticate p.admission now m.agentId r.certificatePem r.serviceToken)
  | unknown (kind : String) : m.payload = .unknown kind →
      ComesTo p now n m (some .unknown) (done ())

end Message

namespace Registry

variable {p : RegistryPolicy} {now : Instant} {r : Registry}

theorem register_ok_or_invalid (p : RegistryPolicy) (now : Instant) (x : Registration)
    (r : Registry) : (register p now x r).result = .ok () ∨
      ∃ detail, register p now x r = ⟨.error (.invalidInput detail), r, .none⟩ := by
  unfold register
  split
  · exact .inr ⟨_, rfl⟩
  · split
    · exact .inr ⟨_, rfl⟩
    · left
      rw [bind_apply, state_apply]
      cases r.get? x.key <;> rfl

theorem register_idle {x : Registration} {e : Error}
    (refused : (register p now x r).result = .error e) :
    register p now x r = ⟨.error e, r, .none⟩ := by
  rcases register_ok_or_invalid p now x r with accepted | ⟨detail, invalid⟩
  · cases accepted.symm.trans refused
  · rw [invalid] at refused ⊢
    cases refused
    rfl

theorem deregister_idle {k : BackendKey} (missing : r.get? k = none) :
    deregister k r = ⟨.error (.notFound k.text), r, .none⟩ := by
  unfold deregister onBackend
  rw [bind_apply, state_apply]
  simp [missing]

end Registry

namespace Handler

open Message

variable {p : NodePolicy} {now : Instant} {n : NodeState} {m : Message} {t : Option Tally}
  {a : Operation NodeState Unit}

theorem refusal?_eq_none_iff {h : Heartbeat} (payload : m.payload = .heartbeat h) :
    refusal? p m.agentId h.fingerprint n = none ↔ ¬m.Barred p n.pins := by
  simp only [refusal?, Barred, payload]
  cases p.requireAuth with
  | false => simp
  | true => cases n.pins.verify m.agentId h.fingerprint <;> simp

theorem barred_iff (other : (∃ r, m.payload = .register r) ∨ ∃ r, m.payload = .deregister r) :
    m.Barred p n.pins ↔ (!p.requireAuth || n.pins.isAdmitted m.agentId) = false := by
  rcases other with ⟨r, payload⟩ | ⟨r, payload⟩ <;> simp [Barred, payload]

section Gate

variable {kind : String} {next : Operation NodeState Unit}
  (other : (∃ r, m.payload = .register r) ∨ ∃ r, m.payload = .deregister r)
include other

theorem ifAdmitted_passed (passes : ¬m.Barred p n.pins) :
    ifAdmitted p m.agentId kind next n = next n := by
  rw [barred_iff other, Bool.not_eq_false] at passes
  unfold ifAdmitted
  rw [bind_apply, state_apply]
  simp [passes]

theorem ifAdmitted_barred (barred : m.Barred p n.pins) :
    Alike (ifAdmitted p m.agentId kind next n) (count (Counters.tally (some .rejected)) n) := by
  rw [barred_iff other] at barred
  unfold ifAdmitted
  rw [bind_apply, state_apply]
  simp only [barred]
  exact ⟨rfl, rfl, rfl⟩

end Gate

def tallied (t : Option Tally) (a : Operation NodeState Unit) : Operation NodeState Unit := do
  a
  count (Counters.tally t)

theorem handle_barred (barred : m.Barred p n.pins) :
    Alike (handle p now m n) (tallied (some .rejected) (done ()) n) := by
  cases payload : m.payload with
  | heartbeat h =>
    simp only [handle, payload]
    cases refused : refusal? p m.agentId h.fingerprint n with
    | none => exact absurd barred ((refusal?_eq_none_iff payload).1 refused)
    | some e =>
      unfold heartbeat
      rw [bind_apply, state_apply]
      simp only [refused]
      exact ⟨rfl, rfl, rfl⟩
  | register r =>
    simp only [handle, payload]
    exact (ifAdmitted_barred (.inl ⟨r, payload⟩) barred).trans ⟨rfl, rfl, rfl⟩
  | deregister r =>
    simp only [handle, payload]
    exact (ifAdmitted_barred (.inr ⟨r, payload⟩) barred).trans ⟨rfl, rfl, rfl⟩
  | agentAuth r => simp [Barred, payload] at barred
  | unknown kind => simp [Barred, payload] at barred

theorem alike_tallied {α : Type} {b : Operation NodeState α} {f : α → Operation NodeState Unit}
    {x : α} (result : (b n).result = x)
    (h : ∀ n, Alike (f x n) (count (Counters.tally t) n)) :
    Alike ((b >>= f) n) (tallied t (do let _ ← b) n) := by
  obtain ⟨state, changes, writes⟩ := h (b n).state
  rw [bind_apply, result]
  refine ⟨state, ?_, ?_⟩
  · simp [tallied, changes]
  · simp [tallied, writes]

theorem alike_idle {b : Operation Registry (Except Error Unit)} {e : Error}
    {f : Except Error Unit → Operation NodeState Unit}
    (idle : b n.registry = ⟨.error e, n.registry, .none⟩)
    (h : Alike (f (.error e) n) ((done () : Operation NodeState Unit) n)) :
    Alike ((onRegistry b >>= f) n) (tallied none (done ()) n) := by
  have same : onRegistry b n = ⟨.error e, n, .none⟩ := by simp [onRegistry, idle]
  rw [bind_apply, same]
  exact h

theorem handle_alike (h : m.ComesTo p now n t a) : Alike (handle p now m n) (tallied t a n) := by
  cases h with
  | rejected barred => exact handle_barred barred
  | heartbeat h payload passes =>
    simp only [handle, payload]
    exact heartbeat_alike ((refusal?_eq_none_iff payload).2 passes)
  | register r payload passes accepted =>
    simp only [handle, payload]
    rw [register, ifAdmitted_passed (.inl ⟨r, payload⟩) passes]
    exact alike_tallied accepted fun _ => .refl _
  | invalid r detail payload passes refused =>
    simp only [handle, payload]
    rw [register, ifAdmitted_passed (.inl ⟨r, payload⟩) passes]
    exact alike_idle (Registry.register_idle refused) ⟨rfl, rfl, rfl⟩
  | deregister r payload passes accepted =>
    simp only [handle, payload]
    rw [deregister, ifAdmitted_passed (.inr ⟨r, payload⟩) passes]
    exact alike_tallied accepted fun _ => .refl _
  | missing r payload passes missing =>
    simp only [handle, payload]
    rw [deregister, ifAdmitted_passed (.inr ⟨r, payload⟩) passes]
    exact alike_idle (Registry.deregister_idle missing) ⟨rfl, rfl, rfl⟩
  | authenticated r pin payload accepted =>
    simp only [handle, payload]
    exact alike_tallied accepted fun _ => ⟨rfl, rfl, rfl⟩
  | unauthenticated r e payload refused =>
    simp only [handle, payload]
    exact alike_tallied refused fun _ => ⟨rfl, rfl, rfl⟩
  | unknown kind payload =>
    simp only [handle, payload]
    exact ⟨rfl, rfl, rfl⟩

theorem exists_comesTo (p : NodePolicy) (now : Instant) (n : NodeState) (m : Message) :
    ∃ t a, m.ComesTo p now n t a := by
  by_cases barred : m.Barred p n.pins
  · exact ⟨_, _, .rejected barred⟩
  · cases payload : m.payload with
    | heartbeat h => exact ⟨_, _, .heartbeat h payload barred⟩
    | register r =>
      rcases Registry.register_ok_or_invalid p.registry now (r.registration m.agentId m.region)
        n.registry with accepted | ⟨detail, invalid⟩
      · exact ⟨_, _, .register r payload barred accepted⟩
      · exact ⟨_, _, .invalid r detail payload barred (congrArg Outcome.result invalid)⟩
    | deregister r =>
      cases found : n.registry.get? r.key with
      | none => exact ⟨_, _, .missing r payload barred found⟩
      | some b =>
        refine ⟨_, _, .deregister r payload barred ?_⟩
        rw [Registry.deregister, Registry.onBackend_result, found]
        rfl
    | agentAuth r =>
      cases result : (Pins.authenticate p.admission now m.agentId r.certificatePem r.serviceToken
        n.pins).result with
      | ok pin => exact ⟨_, _, .authenticated r pin payload result⟩
      | error e => exact ⟨_, _, .unauthenticated r e payload result⟩
    | unknown kind => exact ⟨_, _, .unknown kind payload⟩

theorem counters_of_comesTo (h : m.ComesTo p now n t a) : (a n).state.counters = n.counters := by
  cases h <;> rfl

theorem handle_counters (h : m.ComesTo p now n t a) :
    (handle p now m n).state.counters = n.counters.tally t := by
  rw [(handle_alike h).state, ← counters_of_comesTo h]
  rfl

theorem comesTo_unique {t' : Option Tally} {a' : Operation NodeState Unit}
    (h : m.ComesTo p now n t a) (h' : m.ComesTo p now n t' a') : t = t' :=
  Counters.tally_injective ((handle_counters h).symm.trans (handle_counters h'))

end Handler

open Handler Message

structure Message.Counted (p : NodePolicy) (now : Instant) (n : NodeState) (m : Message)
    (o : Outcome NodeState Unit) : Prop where
  once : ∃! t, ∃ a, m.ComesTo p now n t a
  counters : ∀ t a, m.ComesTo p now n t a → o.state.counters = n.counters.tally t
  outcome : ∀ t a, m.ComesTo p now n t a → Alike o (tallied t a n)
  moves : ∀ t, o.state.counters.get t ≠ n.counters.get t ↔ ∃ a, m.ComesTo p now n (some t) a
  rejected : o.state.counters.rejected ≠ n.counters.rejected ↔ m.Barred p n.pins
  spared : m.Barred p n.pins → o.state.registry = n.registry ∧ o.state.pins = n.pins ∧
    o.effects.changes = [] ∧ o.effects.writes = []

namespace Handler

variable {p : NodePolicy} {n n' : NodeState} {ms : List (Instant × Message)}
  {ts : List (Option Tally)}

theorem handle_moves_iff {now : Instant} {m : Message} {t : Tally} :
    (handle p now m n).state.counters.get t ≠ n.counters.get t ↔
      ∃ a, m.ComesTo p now n (some t) a := by
  obtain ⟨t', a, there⟩ := exists_comesTo p now n m
  rw [handle_counters there, Counters.get_tally_ne_iff]
  constructor
  · rintro rfl
    exact ⟨a, there⟩
  · rintro ⟨a', there'⟩
    exact comesTo_unique there there'

theorem comesTo_rejected_iff {now : Instant} {m : Message} :
    (∃ a, m.ComesTo p now n (some .rejected) a) ↔ m.Barred p n.pins := by
  constructor
  · rintro ⟨a, there⟩
    cases there
    assumption
  · exact fun barred => ⟨_, .rejected barred⟩

theorem handle_counted (p : NodePolicy) (now : Instant) (n : NodeState) (m : Message) :
    m.Counted p now n (handle p now m n) where
  once := by
    obtain ⟨t, a, there⟩ := exists_comesTo p now n m
    exact ⟨t, ⟨a, there⟩, fun t' ⟨a', there'⟩ => comesTo_unique there' there⟩
  counters _ _ there := handle_counters there
  outcome _ _ there := handle_alike there
  moves _ := handle_moves_iff
  rejected := handle_moves_iff.trans comesTo_rejected_iff
  spared barred := by
    have alike : Alike (handle p now m n) (tallied (some .rejected) (done ()) n) :=
      handle_barred barred
    rw [alike.state]
    exact ⟨rfl, rfl, alike.changes, alike.writes⟩

def attend (p : NodePolicy) (ms : List (Instant × Message)) : Operation NodeState Unit :=
  forEach ms fun e => handle p e.1 e.2

inductive Ledger (p : NodePolicy) :
    NodeState → List (Instant × Message) → List (Option Tally) → Prop
  | nil (n : NodeState) : Ledger p n [] []
  | cons {n : NodeState} {now : Instant} {m : Message} {t : Option Tally}
      {a : Operation NodeState Unit} {ms : List (Instant × Message)} {ts : List (Option Tally)} :
      m.ComesTo p now n t a → Ledger p (handle p now m n).state ms ts →
      Ledger p n ((now, m) :: ms) (t :: ts)

theorem exists_ledger (n : NodeState) (ms : List (Instant × Message)) : ∃ ts, Ledger p n ms ts := by
  induction ms generalizing n with
  | nil => exact ⟨[], .nil n⟩
  | cons e ms ih =>
    obtain ⟨t, a, there⟩ := exists_comesTo p e.1 n e.2
    obtain ⟨ts, later⟩ := ih (handle p e.1 e.2 n).state
    exact ⟨t :: ts, .cons there later⟩

theorem Ledger.unique (h : Ledger p n ms ts) {ts' : List (Option Tally)} (h' : Ledger p n ms ts') :
    ts' = ts := by
  -- what the first message comes to fixes the state that the second one meets, and so on
  induction h generalizing ts' with
  | nil n =>
    cases h'
    rfl
  | cons there _ ih =>
    cases h' with
    | cons there' later' => rw [comesTo_unique there' there, ih later']

theorem Ledger.length_eq (h : Ledger p n ms ts) : ts.length = ms.length := by
  induction h with
  | nil n => rfl
  | cons _ _ ih => rw [List.length_cons, List.length_cons, ih]

structure Balanced (n n' : NodeState) (ts : List (Option Tally)) : Prop where
  each : ∀ t, n'.counters.get t = n.counters.get t + .ofNat (ts.count (some t))
  all : n'.counters.handled + .ofNat (ts.count none) = n.counters.handled + .ofNat ts.length

theorem Balanced.cons {t : Option Tally} {first : NodeState}
    (counted : first.counters = n.counters.tally t) (h : Balanced first n' ts) :
    Balanced n n' (t :: ts) where
  each t' := by
    rw [h.each, counted, Counters.get_tally, List.count_cons, UInt64.ofNat_add,
      UInt64.add_assoc, UInt64.add_comm (UInt64.ofNat _)]
    by_cases same : t = some t' <;> simp [same]
  all := by
    have rest := h.all
    rw [counted, Counters.handled_tally] at rest
    rw [List.length_cons, UInt64.ofNat_add]
    cases t with
    | none =>
      rw [if_pos rfl, UInt64.add_zero] at rest
      rw [List.count_cons_self, UInt64.ofNat_add, ← UInt64.add_assoc, rest, UInt64.add_assoc]
    | some t =>
      rw [if_neg (Option.some_ne_none t)] at rest
      rw [List.count_cons_of_ne (Option.some_ne_none t), rest]
      exact (UInt64.add_assoc _ _ _).trans (congrArg _ (UInt64.add_comm _ _))

theorem Ledger.balanced (h : Ledger p n ms ts) : Balanced n (attend p ms n).state ts := by
  induction h with
  | nil n => constructor <;> simp [attend]
  | cons there _ ih => exact Balanced.cons (handle_counters there) ih

/-- Each message counts once, as what it comes to, or not at all where it comes to nothing; messages
that the gate stops change nothing else; and the counters of a run add up. -/
theorem counters_partition_messages (p : NodePolicy) :
    (∀ now n (m : Message), m.Counted p now n (handle p now m n)) ∧
    ∀ n ms, (∃! ts, Ledger p n ms ts) ∧
      ∀ ts, Ledger p n ms ts → ts.length = ms.length ∧ Balanced n (attend p ms n).state ts := by
  refine ⟨handle_counted p, fun n ms => ⟨?_, fun ts ledger => ⟨ledger.length_eq, ledger.balanced⟩⟩⟩
  obtain ⟨ts, ledger⟩ := exists_ledger n ms
  exact ⟨ts, ledger, fun _ ledger' => ledger.unique ledger'⟩

def strayMessage : Message :=
  ⟨"a1", "eu", none, .heartbeat { calmHeartbeat with fingerprint := "cd" }⟩

def mixedMessages : List (Instant × Message) :=
  [(Registry.atSecond 5, strayMessage),
    (Registry.atSecond 6, ⟨"a1", "eu", none, .heartbeat busyHeartbeat⟩),
    (Registry.atSecond 6, ⟨"a1", "eu", none, .register ⟨"web", "10.0.0.9", 0, 1⟩⟩),
    (Registry.atSecond 7, ⟨"a2", "us", none, .register ⟨"web", "10.0.0.9", 80, 1⟩⟩),
    (Registry.atSecond 8, ⟨"a1", "eu", none, .deregister ⟨"web", "10.0.0.9", 80⟩⟩),
    (Registry.atSecond 8, ⟨"a1", "eu", none, .deregister ⟨"web", "10.0.0.2", 80⟩⟩),
    (Registry.atSecond 9, ⟨"a3", "us", none, .agentAuth ⟨"", "secret", ""⟩⟩),
    (Registry.atSecond 9, ⟨"a3", "us", none, .unknown "gossip"⟩)]

theorem counters_of_mixed_messages :
    (handle guarded (Registry.atSecond 5) strayMessage sharedNode).state.registry =
      sharedNode.registry ∧
    (attend guarded mixedMessages sharedNode).state.counters =
      { heartbeats := 1, deregisters := 1, unknown := 1, rejected := 2, authFailures := 1 } ∧
    ∃ ts, Ledger guarded sharedNode mixedMessages ts ∧ ts.length = 8 ∧ ts.count none = 2 := by
  obtain ⟨counted, runs⟩ := counters_partition_messages guarded
  obtain ⟨⟨ts, ledger, -⟩, balanced⟩ := runs sharedNode mixedMessages
  obtain ⟨length, -, all⟩ := balanced ts ledger
  have counters : (attend guarded mixedMessages sharedNode).state.counters =
      { heartbeats := 1, deregisters := 1, unknown := 1, rejected := 2, authFailures := 1 } := by
    decide +kernel
  have unverified : sharedNode.pins.verify "a1" "cd" ≠ .ok () := by decide +kernel
  have barred : strayMessage.Barred guarded sharedNode.pins := ⟨rfl, unverified⟩
  refine ⟨((counted (Registry.atSecond 5) sharedNode strayMessage).spared barred).1, counters, ts,
    ledger, length, ?_⟩
  have few : ts.count none ≤ 8 :=
    calc ts.count none ≤ ts.length := List.count_le_length
      _ = 8 := length
  rw [counters, length] at all
  have sum := congrArg UInt64.toNat all
  simp [Counters.handled, sharedNode, mixedMessages] at sum
  omega

end Handler

end HealthConsensus
