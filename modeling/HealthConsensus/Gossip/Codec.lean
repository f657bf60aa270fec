import HealthConsensus.Backend.Record
import HealthConsensus.Gossip.Lenient
import HealthConsensus.Report

namespace HealthConsensus

namespace BackendClaim

def toJson (c : BackendClaim) : Json :=
  .obj [("address", .str c.address), ("healthy", .bool c.healthy), ("port", .nat c.port.toNat),
    ("service", .str c.service), ("weight", .nat c.weight.toNat)]

end BackendClaim

namespace Forecast

def toJson (f : Forecast) : Json :=
  .obj ([("bleed_reason", .str f.reason), ("bleeding", .bool f.bleeding)]
    ++ Json.optionalField "bleeding_at" Instant.toJson f.bleedingAt
    ++ [("cpu_percent", .float f.cpuPercent), ("error_rate", .float f.errorRate),
      ("mem_percent", .float f.memPercent)])

end Forecast

namespace Payload

def toJson : Payload → Json
  | heartbeat p =>
    .obj ([("backends", .list BackendClaim.toJson p.backends), ("fingerprint", .str p.fingerprint)]
      ++ Json.optionalField "predictive" Forecast.toJson p.forecast)
  | register p =>
    .obj [("address", .str p.address), ("port", .nat p.port.toNat), ("service", .str p.service),
      ("weight", .nat p.weight.toNat)]
  | deregister p =>
    .obj [("address", .str p.address), ("port", .nat p.port.toNat), ("service", .str p.service)]
  | agentAuth p =>
    .obj [("certificate_pem", .str p.certificatePem), ("fingerprint", .str p.fingerprint),
      ("service_token", .str p.serviceToken)]
  | unknown _ => .null

end Payload

namespace Message

def toJson (m : Message) : Json :=
  .obj ([("type", .str m.payload.kind), ("agent_id", .str m.agentId), ("region", .str m.region)]
    ++ Json.optionalField "timestamp" Instant.toJson m.timestamp
    ++ [("payload", m.payload.toJson)])

def encode (m : Message) : Bytes := m.toJson.text

def depthLimit : Nat := 126

def fieldNames : List String := ["type", "agent_id", "region", "timestamp", "payload"]

def envelope? (j : Json) : Option (List (Option Json)) := do
  let fields ← j.fields? fieldNames
  if fields.all fun f => f.all (Json.isReadable depthLimit) then some fields else none

def ofJson (j : Json) : Except Error Message :=
  match envelope? j with
  | some [kind, agentId, region, timestamp, payload] =>
    let kind := Lenient.text kind
    match Payload.ofJson? kind (payload.getD .null) with
    | some payload =>
      .ok {
        agentId := Lenient.text agentId
        region := Lenient.text region
        timestamp := Lenient.time timestamp
        payload := payload }
    | none => .error (.gossip (kind ++ " payload is not an object"))
  | _ => .error (.gossip "invalid envelope")

def decode (body : Bytes) : Except Error Message :=
  match Json.parse? body with
  | some j => ofJson j
  | none => .error (.gossip "invalid envelope")

end Message

end HealthConsensus
