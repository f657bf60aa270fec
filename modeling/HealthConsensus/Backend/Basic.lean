import HealthConsensus.Time.Instant

namespace HealthConsensus

structure BackendKey where
  service : String
  address : String
  port : UInt16
deriving DecidableEq, Repr, Inhabited

namespace BackendKey

def text (k : BackendKey) : String := k.service ++ ":" ++ k.address ++ ":" ++ toString k.port.toNat

def storeFolder : String := "backends/"

def storeKey (k : BackendKey) : String := storeFolder ++ k.text

def le (a b : BackendKey) : Bool :=
  decide (a.service < b.service)
    || (a.service == b.service
      && (decide (a.address < b.address) || (a.address == b.address && a.port ≤ b.port)))

end BackendKey

inductive BackendStatus where
  | healthy
  | unhealthy
  | stale
  | draining
deriving DecidableEq, Repr, Inhabited

namespace BackendStatus

def text : BackendStatus → String
  | healthy => "healthy"
  | unhealthy => "unhealthy"
  | stale => "stale"
  | draining => "draining"

def ofText? : String → Option BackendStatus
  | "healthy" => some healthy
  | "unhealthy" => some unhealthy
  | "stale" => some stale
  | "draining" => some draining
  | _ => none

def ofVerdict (healthy : Bool) : BackendStatus := if healthy then .healthy else .unhealthy

end BackendStatus

structure Registration where
  agentId : String
  region : String
  service : String
  address : String
  port : UInt16
  weight : UInt32
  healthy : Bool
deriving DecidableEq, Repr

def Registration.key (r : Registration) : BackendKey := ⟨r.service, r.address, r.port⟩

structure Validation where
  healthy : Bool
  lastCheck : Instant
  error : Option String
deriving DecidableEq, Repr

structure Override where
  healthy : Bool
  reason : String
  operator : String
  setAt : Instant
deriving DecidableEq, Repr

structure Drain where
  draining : Bool
  reason : String
  since : Option Instant
  cpuPercent : Float
  memPercent : Float
  errorRate : Float

namespace Drain

def none : Drain := ⟨false, "", .none, 0, 0, 0⟩

instance : Inhabited Drain := ⟨none⟩

end Drain

structure LatencyStats where
  smoothed : Duration
  samples : UInt64
  last : Duration
deriving DecidableEq, Repr, Inhabited

namespace LatencyStats

def hasData (s : LatencyStats) : Bool := 0 < s.samples

end LatencyStats

structure Backend where
  service : String
  address : String
  port : UInt16
  weight : UInt32
  agentId : String
  region : String
  agentHealthy : Bool
  lastSeen : Instant
  validation : Option Validation
  override : Option Override
  drain : Drain
  status : BackendStatus
  latency : LatencyStats

namespace Backend

def ofRegistration (r : Registration) (now : Instant) : Backend where
  service := r.service
  address := r.address
  port := r.port
  weight := r.weight
  agentId := r.agentId
  region := r.region
  agentHealthy := r.healthy
  lastSeen := now
  validation := none
  override := none
  drain := .none
  status := .healthy
  latency := default

def key (b : Backend) : BackendKey := ⟨b.service, b.address, b.port⟩

def disagrees (b : Backend) : Bool := b.validation.any fun v => v.healthy != b.agentHealthy

def heartbeatAge (b : Backend) (now : Instant) : Duration := now.since b.lastSeen

/-- An override decides first, then draining, a check, silence of the agent, and its claim. -/
def statusAt (b : Backend) (now : Instant) (staleAfter : Duration) : BackendStatus :=
  match b.override, b.drain.draining, b.validation with
  | some o, _, _ => .ofVerdict o.healthy
  | none, true, _ => .draining
  | none, false, some v => .ofVerdict v.healthy
  | none, false, none =>
    if staleAfter < b.heartbeatAge now then .stale else .ofVerdict b.agentHealthy

def refresh (b : Backend) (now : Instant) (staleAfter : Duration) : Backend :=
  { b with status := b.statusAt now staleAfter }

end Backend

structure StatusChange where
  backend : Backend
  before : Option BackendStatus
  after : Option BackendStatus

end HealthConsensus
