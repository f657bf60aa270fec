import HealthConsensus.Json.Reader
import HealthConsensus.Time.Rfc3339
import HealthConsensus.Gossip.Message

namespace HealthConsensus

namespace Lenient

def text (field : Option Json) : String := (field.bind Json.string?).getD ""

def flag (field : Option Json) : Bool := (field.bind Json.bool?).getD false

def natBelow (bound : Nat) (field : Option Json) : Nat :=
  match (field.bind Json.number?).map Number.settle with
  | some (.natural n) => if n < bound then n else 0
  | _ => 0

def uint16 (field : Option Json) : UInt16 := UInt16.ofNat (natBelow UInt16.size field)

def uint32 (field : Option Json) : UInt32 := UInt32.ofNat (natBelow UInt32.size field)

def figure (field : Option Json) : Float :=
  (((field.bind Json.number?).map Number.settle).map Number.toFloat).getD 0

def time (field : Option Json) : Option Instant :=
  (field.bind Json.string?).bind Rfc3339.parse?

end Lenient

open Lenient

namespace BackendClaim

def ofJson (j : Json) : BackendClaim where
  service := text (j.get? "service")
  address := text (j.get? "address")
  port := uint16 (j.get? "port")
  weight := uint32 (j.get? "weight")
  healthy := flag (j.get? "healthy")

end BackendClaim

namespace Forecast

def fieldNames : List String :=
  ["bleeding", "bleed_reason", "bleeding_at", "cpu_percent", "mem_percent", "error_rate"]

def ofFields (field : String → Nat → Option Json) : Forecast where
  bleeding := flag (field "bleeding" 0)
  reason := text (field "bleed_reason" 1)
  bleedingAt := time (field "bleeding_at" 2)
  cpuPercent := figure (field "cpu_percent" 3)
  memPercent := figure (field "mem_percent" 4)
  errorRate := figure (field "error_rate" 5)

def ofJson? (j : Json) : Option Forecast :=
  match j with
  | .object _ => some (ofFields fun name _ => j.get? name)
  | .array items =>
    if items.length ≤ fieldNames.length then some (ofFields fun _ i => items[i]?) else none
  | _ => none

end Forecast

namespace Heartbeat

def ofJson (j : Json) : Heartbeat where
  backends :=
    ((((j.get? "backends").bind Json.array?).getD []).filter Json.isObject).map BackendClaim.ofJson
  fingerprint := text (j.get? "fingerprint")
  forecast := (j.get? "predictive").bind Forecast.ofJson?

end Heartbeat

namespace RegisterRequest

def ofJson (j : Json) : RegisterRequest where
  service := text (j.get? "service")
  address := text (j.get? "address")
  port := uint16 (j.get? "port")
  weight := uint32 (j.get? "weight")

end RegisterRequest

namespace DeregisterRequest

def ofJson (j : Json) : DeregisterRequest where
  service := text (j.get? "service")
  address := text (j.get? "address")
  port := uint16 (j.get? "port")

end DeregisterRequest

namespace AuthRequest

def ofJson (j : Json) : AuthRequest where
  certificatePem := text (j.get? "certificate_pem")
  serviceToken := text (j.get? "service_token")
  fingerprint := text (j.get? "fingerprint")

end AuthRequest

namespace Payload

def ofJson? (kind : String) (j : Json) : Option Payload :=
  if kind = "heartbeat" then (if j.isObject then some (.heartbeat (.ofJson j)) else none)
  else if kind = "register" then (if j.isObject then some (.register (.ofJson j)) else none)
  else if kind = "deregister" then (if j.isObject then some (.deregister (.ofJson j)) else none)
  else if kind = "agent_auth" then (if j.isObject then some (.agentAuth (.ofJson j)) else none)
  else some (.unknown kind)

end Payload

end HealthConsensus
