import HealthConsensus.Backend.Basic
import HealthConsensus.Json.Basic
import HealthConsensus.Time.Instant

namespace HealthConsensus

structure BackendClaim where
  service : String
  address : String
  port : UInt16
  weight : UInt32
  healthy : Bool
deriving DecidableEq, Repr

structure Forecast where
  bleeding : Bool
  reason : String
  bleedingAt : Option Instant
  cpuPercent : Float
  memPercent : Float
  errorRate : Float
deriving BEq

def Forecast.drain (f : Forecast) : Drain :=
  ⟨f.bleeding, f.reason, f.bleedingAt, f.cpuPercent, f.memPercent, f.errorRate⟩

structure Heartbeat where
  backends : List BackendClaim
  fingerprint : String
  forecast : Option Forecast
deriving BEq

structure RegisterRequest where
  service : String
  address : String
  port : UInt16
  weight : UInt32
deriving DecidableEq, Repr

structure DeregisterRequest where
  service : String
  address : String
  port : UInt16
deriving DecidableEq, Repr

structure AuthRequest where
  certificatePem : String
  serviceToken : String
  fingerprint : String
deriving DecidableEq, Repr

inductive Payload where
  | heartbeat (p : Heartbeat)
  | register (p : RegisterRequest)
  | deregister (p : DeregisterRequest)
  | agentAuth (p : AuthRequest)
  | unknown (kind : String)
deriving BEq

def Payload.kind : Payload → String
  | heartbeat _ => "heartbeat"
  | register _ => "register"
  | deregister _ => "deregister"
  | agentAuth _ => "agent_auth"
  | unknown kind => kind

structure Message where
  agentId : String
  region : String
  timestamp : Option Instant
  payload : Payload
deriving BEq

namespace BackendClaim

def key (c : BackendClaim) : BackendKey := ⟨c.service, c.address, c.port⟩

end BackendClaim

structure Counters where
  heartbeats : UInt64 := 0
  registers : UInt64 := 0
  deregisters : UInt64 := 0
  agentAuths : UInt64 := 0
  unknown : UInt64 := 0
  rejected : UInt64 := 0
  authFailures : UInt64 := 0
  badFrames : UInt64 := 0
  decodeErrors : UInt64 := 0
  queueFull : UInt64 := 0
deriving DecidableEq, Repr, Inhabited

namespace Counters

def toJson (c : Counters) : Json :=
  .obj [("heartbeats", .nat c.heartbeats.toNat), ("registers", .nat c.registers.toNat),
    ("deregisters", .nat c.deregisters.toNat), ("agent_auths", .nat c.agentAuths.toNat),
    ("unknown", .nat c.unknown.toNat), ("rejected", .nat c.rejected.toNat),
    ("auth_failures", .nat c.authFailures.toNat), ("bad_frames", .nat c.badFrames.toNat),
    ("decode_errors", .nat c.decodeErrors.toNat), ("queue_full", .nat c.queueFull.toNat)]

end Counters

end HealthConsensus
