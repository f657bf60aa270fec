import HealthConsensus.Backend.Basic
import HealthConsensus.Json.Basic
import HealthConsensus.Json.Parser
import HealthConsensus.Json.Reader
import HealthConsensus.Time.Rfc3339

namespace HealthConsensus

open Json.Field

namespace Instant

def toJson (t : Instant) : Json := .str (Rfc3339.text t)

def ofJson? (j : Json) : Option Instant := j.string?.bind Rfc3339.parse?

end Instant

namespace Duration

def toJson (d : Duration) : Json := .obj [("secs", .nat d.seconds), ("nanos", .nat d.subsecond)]

def fieldNames : List String := ["secs", "nanos"]

def ofJson? (j : Json) : Option Duration := do
  if !(j.members?.getD []).all fun f => fieldNames.contains f.1 then none
  let [seconds, nanos] ← j.fields? fieldNames | none
  let seconds ← required (Json.natBelow? UInt64.size) seconds
  let nanos ← required (Json.natBelow? UInt32.size) nanos
  ofParts? seconds nanos

end Duration

namespace BackendKey

def toJson (k : BackendKey) : Json :=
  .obj [("service", .str k.service), ("address", .str k.address), ("port", .nat k.port.toNat)]

def ofJson? (j : Json) : Option BackendKey := do
  let [service, address, port] ← j.fields? ["service", "address", "port"] | none
  return {
    service := ← required Json.string? service
    address := ← required Json.string? address
    port := ← required Json.uint16? port }

end BackendKey

namespace BackendStatus

def toJson (s : BackendStatus) : Json := .str s.text

def ofJson? (j : Json) : Option BackendStatus := j.constructor?.bind ofText?

end BackendStatus

namespace Registration

def toJson (r : Registration) : Json :=
  .obj [("agent_id", .str r.agentId), ("region", .str r.region), ("service", .str r.service),
    ("address", .str r.address), ("port", .nat r.port.toNat), ("weight", .nat r.weight.toNat),
    ("healthy", .bool r.healthy)]

def ofJson? (j : Json) : Option Registration := do
  let [agentId, region, service, address, port, weight, healthy] ←
    j.fields? ["agent_id", "region", "service", "address", "port", "weight", "healthy"] | none
  return {
    agentId := ← required Json.string? agentId
    region := ← required Json.string? region
    service := ← required Json.string? service
    address := ← required Json.string? address
    port := ← required Json.uint16? port
    weight := ← required Json.uint32? weight
    healthy := ← required Json.bool? healthy }

end Registration

namespace Validation

def toJson (v : Validation) : Json :=
  .obj ([("healthy", .bool v.healthy), ("last_check", v.lastCheck.toJson)]
    ++ Json.optionalField "error" .str v.error)

def ofJson? (j : Json) : Option Validation := do
  let [healthy, lastCheck, error] ← j.fields? ["healthy", "last_check", "error"] | none
  return {
    healthy := ← required Json.bool? healthy
    lastCheck := ← required Instant.ofJson? lastCheck
    error := ← optional Json.string? error }

end Validation

namespace Override

def toJson (o : Override) : Json :=
  .obj [("healthy", .bool o.healthy), ("reason", .str o.reason), ("by", .str o.operator),
    ("at", o.setAt.toJson)]

def ofJson? (j : Json) : Option Override := do
  let [healthy, reason, operator, setAt] ← j.fields? ["healthy", "reason", "by", "at"] | none
  return {
    healthy := ← required Json.bool? healthy
    reason := ← required Json.string? reason
    operator := ← required Json.string? operator
    setAt := ← required Instant.ofJson? setAt }

end Override

namespace Drain

def toJson (d : Drain) : Json :=
  .obj ([("draining", .bool d.draining)]
    ++ (if d.reason.isEmpty then [] else [("reason", .str d.reason)])
    ++ Json.optionalField "since" Instant.toJson d.since
    ++ [("cpu_percent", .float d.cpuPercent), ("mem_percent", .float d.memPercent),
      ("error_rate", .float d.errorRate)])

def ofJson? (j : Json) : Option Drain := do
  let [draining, reason, since, cpu, mem, errorRate] ← j.fields?
    ["draining", "reason", "since", "cpu_percent", "mem_percent", "error_rate"] | .none
  return {
    draining := ← required Json.bool? draining
    reason := ← withDefault "" Json.string? reason
    since := ← optional Instant.ofJson? since
    cpuPercent := ← required Json.float? cpu
    memPercent := ← required Json.float? mem
    errorRate := ← required Json.float? errorRate }

end Drain

namespace LatencyStats

def fields (s : LatencyStats) : List (String × Json) :=
  [("smoothed", s.smoothed.toJson), ("samples", .nat s.samples.toNat), ("last", s.last.toJson)]

def toJson (s : LatencyStats) : Json := .obj s.fields

def infoJson (s : LatencyStats) : Json := .obj (s.fields ++ [("has_data", .bool s.hasData)])

def ofJson? (j : Json) : Option LatencyStats := do
  let [smoothed, samples, last] ← j.fields? ["smoothed", "samples", "last"] | none
  return {
    smoothed := ← required Duration.ofJson? smoothed
    samples := ← required Json.uint64? samples
    last := ← required Duration.ofJson? last }

end LatencyStats

namespace Backend

def fieldNames : List String :=
  ["service", "address", "port", "weight", "agent_id", "region", "agent_healthy",
    "agent_last_seen", "validation", "override_status", "drain", "effective_status", "latency"]

def toJson (b : Backend) : Json :=
  .obj ([("service", .str b.service), ("address", .str b.address), ("port", .nat b.port.toNat),
      ("weight", .nat b.weight.toNat), ("agent_id", .str b.agentId), ("region", .str b.region),
      ("agent_healthy", .bool b.agentHealthy), ("agent_last_seen", b.lastSeen.toJson)]
    ++ Json.optionalField "validation" Validation.toJson b.validation
    ++ Json.optionalField "override_status" Override.toJson b.override
    ++ [("drain", b.drain.toJson), ("effective_status", b.status.toJson),
      ("latency", b.latency.toJson)])

def ofJson? (j : Json) : Option Backend := do
  let [service, address, port, weight, agentId, region, agentHealthy, lastSeen, validation,
    override, drain, status, latency] ← j.fields? fieldNames | none
  return {
    service := ← required Json.string? service
    address := ← required Json.string? address
    port := ← required Json.uint16? port
    weight := ← required Json.uint32? weight
    agentId := ← required Json.string? agentId
    region := ← required Json.string? region
    agentHealthy := ← required Json.bool? agentHealthy
    lastSeen := ← required Instant.ofJson? lastSeen
    validation := ← optional Validation.ofJson? validation
    override := ← optional Override.ofJson? override
    drain := ← withDefault .none Drain.ofJson? drain
    status := ← required BackendStatus.ofJson? status
    latency := ← withDefault default LatencyStats.ofJson? latency }

end Backend

namespace StatusChange

def toJson (c : StatusChange) : Json :=
  .obj [("backend", c.backend.toJson), ("old", .optional BackendStatus.toJson c.before),
    ("new", .optional BackendStatus.toJson c.after)]

end StatusChange

end HealthConsensus
