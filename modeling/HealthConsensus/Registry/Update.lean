import HealthConsensus.Registry.Basic

namespace HealthConsensus

namespace LatencyStats

def record (smoothing : Float) (sample : Duration) (s : LatencyStats) : LatencyStats where
  last := sample
  smoothed :=
    if s.samples = 0 then sample
    else
      (Duration.ofFloat? (smoothing * sample.toFloat + (1 - smoothing) * s.smoothed.toFloat)).getD
        sample
  samples := if s.samples.toNat + 1 < UInt64.size then s.samples + 1 else s.samples

end LatencyStats

namespace Backend

def changeTo (b next : Backend) : Option StatusChange :=
  if b.status = next.status then none else some ⟨next, some b.status, some next.status⟩

def renewal (b next : Backend) : Effects := ⟨(b.changeTo next).toList, [.putBackend next], []⟩

def removal (k : BackendKey) (b : Backend) : Effects :=
  ⟨[⟨b, some b.status, none⟩], [.dropBackend k], []⟩

def reregister (r : Registration) (now : Instant) (b : Backend) : Backend :=
  { b with
    weight := r.weight
    agentId := r.agentId
    region := r.region
    agentHealthy := r.healthy
    lastSeen := now }

def registered (b : Backend) : LogLine :=
  .info "Backend registered" [("service", b.service), ("address", b.address),
    ("port", toString b.port.toNat), ("agent_id", b.agentId), ("region", b.region)]

def validate (smoothing : Float) (healthy : Bool) (error : Option String) (latency : Duration)
    (now : Instant) (b : Backend) : Backend :=
  { b with
    validation := some ⟨healthy, now, error⟩
    latency :=
      if healthy && !latency.isZero then b.latency.record smoothing latency else b.latency }

end Backend

namespace Registry

open Operation

variable (p : RegistryPolicy) (now : Instant)

def update (k : BackendKey) (b next : Backend) : Operation Registry Unit := do
  let next := next.refresh now p.staleAfter
  modify (Table.set k next)
  effect (b.renewal next)

def register (r : Registration) : Operation Registry (Except Error Unit) := do
  if r.service.isEmpty || r.address.isEmpty then
    return .error (.invalidInput "service and address are required")
  if r.port = 0 then
    return .error (.invalidInput "port must be non-zero")
  match (← state).get? r.key with
  | some b =>
    update p now r.key b (b.reregister r now)
    return .ok ()
  | none =>
    let b := (Backend.ofRegistration r now).refresh now p.staleAfter
    log b.registered
    modify (Table.set r.key b)
    write (.putBackend b)
    announce ⟨b, none, some b.status⟩
    return .ok ()

def onBackend (k : BackendKey) (change : Backend → Operation Registry Unit) :
    Operation Registry (Except Error Unit) := do
  match (← state).get? k with
  | none => return .error (.notFound k.text)
  | some b =>
    change b
    return .ok ()

def deregister (k : BackendKey) : Operation Registry (Except Error Unit) :=
  onBackend k fun b => do
    modify (Table.erase k)
    log (.info "Backend deregistered" [("backend", k.text)])
    effect (b.removal k)

def validate (k : BackendKey) (healthy : Bool) (error : Option String) (latency : Duration) :
    Operation Registry (Except Error Unit) :=
  onBackend k fun b => update p now k b (b.validate p.smoothing healthy error latency now)

def setOverride (k : BackendKey) (healthy : Bool) (reason operator : String) :
    Operation Registry (Except Error Unit) :=
  onBackend k fun b => do
    log (.info "Override set" [("backend", k.text), ("healthy", toString healthy),
      ("reason", reason), ("by", operator)])
    update p now k b { b with override := some ⟨healthy, reason, operator, now⟩ }

def clearOverride (k : BackendKey) : Operation Registry (Except Error Unit) :=
  onBackend k fun b => do
    if b.override.isSome then
      log (.info "Override cleared" [("backend", k.text)])
      update p now k b { b with override := none }

end Registry

namespace Drain

def after (before signal : Drain) (now : Instant) : Drain :=
  { signal with
    since :=
      if signal.draining then some ((signal.since.or before.since).getD now) else Option.none }

end Drain

namespace Backend

def applyDrain (signal : Drain) (now : Instant) (staleAfter : Duration) (b : Backend) : Backend :=
  { b with drain := b.drain.after signal now }.refresh now staleAfter

def drainChanged (agentId : String) (signal : Drain) (b : Backend) : List LogLine :=
  if b.drain.draining = signal.draining then []
  else
    [.info "Drain state changed" [("backend", b.key.text), ("agent_id", agentId),
      ("draining", toString signal.draining), ("reason", signal.reason)]]

end Backend

namespace Registry

open Operation

variable (p : RegistryPolicy) (now : Instant)

def drainEffects (agentId : String) (signal : Drain) (b : Backend) : Effects :=
  ⟨[], [], b.drainChanged agentId signal⟩ ++ b.renewal (b.applyDrain signal now p.staleAfter)

def drain (agentId : String) (signal : Drain) : Operation Registry Nat := do
  let owned := (← state).values.filter fun b => b.agentId == agentId
  modify (Table.map fun _ b =>
    if b.agentId == agentId then b.applyDrain signal now p.staleAfter else b)
  forEach owned fun b => effect (drainEffects p now agentId signal b)
  return owned.length

end Registry

structure SweepReport where
  removed : Nat
  changed : Nat
deriving DecidableEq, Repr

namespace Backend

def isExpired (p : RegistryPolicy) (now : Instant) (b : Backend) : Bool :=
  decide (p.removeAfter < b.heartbeatAge now)

def silence (message : String) (k : BackendKey) (b : Backend) : LogLine :=
  .warn message [("backend", k.text), ("agent_id", b.agentId),
    ("last_seen", Rfc3339.plainText b.lastSeen)]

end Backend

namespace Registry

open Operation

variable (p : RegistryPolicy) (now : Instant)

def expiryEffects (k : BackendKey) (b : Backend) : Effects :=
  ⟨[], [], [b.silence "Removing backend with no heartbeat" k]⟩ ++ b.removal k

def sweepEffects (b : Backend) : Effects :=
  let next := b.refresh now p.staleAfter
  if b.status = next.status then .none
  else
    ⟨[], [], if next.status = .stale then [b.silence "Backend went stale" b.key] else []⟩
      ++ b.renewal next

def sweep : Operation Registry SweepReport := do
  let gone := (← state).filter fun _ b => b.isExpired p now
  let kept := (← state).filter fun _ b => !b.isExpired p now
  modify fun _ => kept
  forEach gone.entries fun e => effect (expiryEffects e.1 e.2)
  modify (Table.map fun _ b => b.refresh now p.staleAfter)
  forEach kept.values fun b => effect (sweepEffects p now b)
  return ⟨gone.size, kept.values.countP fun b => b.status != b.statusAt now p.staleAfter⟩

end Registry

end HealthConsensus
