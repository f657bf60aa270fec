import HealthConsensus.Admin.Body
import HealthConsensus.Admin.Request
import HealthConsensus.Gossip.Handler
import HealthConsensus.Number.Literal
import HealthConsensus.Validator.Basic

namespace HealthConsensus

inductive ResponseBody where
  | nothing
  | json (j : Json)
  | explanation

structure AdminResponse where
  status : Nat
  body : ResponseBody

namespace AdminResponse

def ok (j : Json) : AdminResponse := ⟨200, .json j⟩

def noContent : AdminResponse := ⟨204, .nothing⟩

def bare (status : Nat) : AdminResponse := ⟨status, .nothing⟩

def explained (status : Nat) : AdminResponse := ⟨status, .explanation⟩

def ofError (e : Error) : AdminResponse := ⟨e.statusCode, .json (.obj [("error", .str e.message)])⟩

def ofBodyError : BodyError → AdminResponse
  | .malformed => explained 400
  | .unfit => explained 422

end AdminResponse

inductive Route where
  | health
  | ready
  | backends
  | override (service address port : Bytes)
  | validate
  | agents
  | revoke (agentId : Bytes)
  | agent (agentId : Bytes)
  | stats
deriving DecidableEq, Repr

namespace Route

def words (steps : List Bytes) : List String := steps.map Lossy.text

def ofSteps? (steps : List Bytes) : Option Route :=
  if steps.getLast?.all List.isEmpty then none
  else
    match words steps, steps with
    | ["health"], _ => some health
    | ["ready"], _ => some ready
    | ["api", "v1", "backends"], _ => some backends
    | ["api", "v1", "validate"], _ => some validate
    | ["api", "v1", "agents"], _ => some agents
    | ["api", "v1", "stats"], _ => some stats
    | ["api", "v1", "overrides", _, _, _], [_, _, _, s, a, p] => some (override s a p)
    | ["api", "v1", "agents", _, "revoke"], [_, _, _, id, _] => some (revoke id)
    | ["api", "v1", "agents", _], [_, _, _, id] => some (agent id)
    | _, _ => none

end Route

structure AdminContext where
  nodeId : String
  storeKind : String
  storeReachable : Bool
  validator : ValidatorSettings
  script : Validator.Script

namespace Pin

def summaryJson (p : Pin) : Json :=
  .obj ([("agent_id", .str p.agentId), ("fingerprint", .str p.fingerprint),
      ("region", .str p.region), ("first_seen", p.firstSeen.toJson),
      ("last_seen", p.lastSeen.toJson), ("not_after", p.notAfter.toJson),
      ("revoked", .bool p.revoked)]
    ++ Json.optionalField "revoked_reason" .str p.revokedReason)

end Pin

namespace Admin

open Operation NodeState AdminResponse

variable (p : NodePolicy) (now : Instant) (ctx : AdminContext)

def version : String := "0.1.0"

def bodyLimit : Nat := 2097152

def requireBody (fields : List BodyField) (r : AdminRequest) : Except AdminResponse Json :=
  if !r.contentType.any ContentType.isJson then .error (explained 415)
  else if bodyLimit < r.body.length then .error (explained 413)
  else
    match BodyField.parse fields r.body with
    | .ok j => .ok j
    | .error e => .error (ofBodyError e)

def overrideFields : List BodyField :=
  [⟨"healthy", .flag, true⟩, ⟨"reason", .text, false⟩, ⟨"by", .text, false⟩]

def revokeFields : List BodyField := [⟨"reason", .text, false⟩]

structure OverrideRequest where
  healthy : Bool
  reason : String
  operator : String
deriving DecidableEq, Repr

open Json.Field in
def OverrideRequest.ofJson? (j : Json) : Option OverrideRequest := do
  let [healthy, reason, operator] ← j.fields? ["healthy", "reason", "by"] | none
  return {
    healthy := ← required Json.bool? healthy
    reason := ← withDefault "" Json.string? reason
    operator := ← withDefault "admin" Json.string? operator }

open Json.Field in
def revokeReason? (j : Json) : Option String := do
  let [reason] ← j.fields? ["reason"] | none
  withDefault "" Json.string? reason

def keyOf? (service address port : Bytes) : Option BackendKey := do
  let service ← AdminRequest.stepText? service
  let address ← AdminRequest.stepText? address
  let port ← Literal.nat? (← AdminRequest.stepText? port)
  if port < UInt16.size then some ⟨service, address, UInt16.ofNat port⟩ else none

def ready (n : NodeState) : AdminResponse :=
  if ctx.storeReachable then
    ok (.obj [("status", .str "ready"), ("store", .str ctx.storeKind),
      ("backends", .nat n.registry.size)])
  else bare 503

def listBackends (r : AdminRequest) (n : NodeState) : AdminResponse :=
  match (r.query.filter fun q => q.1 == "service").map Prod.snd with
  | [] => ok (.list Backend.toJson n.registry.all)
  | [service] => ok (.list Backend.toJson (n.registry.ofService service))
  | _ => explained 400

def stats (n : NodeState) : AdminResponse :=
  ok (.obj [("node_id", .str ctx.nodeId), ("store", .str ctx.storeKind),
    ("validator_enabled", .bool ctx.validator.enabled), ("pinned_agents", .nat n.pins.size),
    ("backends", (ValidationStats.ofRegistry n.registry).toJson),
    ("gossip", n.counters.toJson)])

def health : AdminResponse := ok (.obj [("status", .str "ok"), ("version", .str version)])

def changed (k : BackendKey) (a : Operation Registry (Except Error Unit)) :
    Operation NodeState AdminResponse := do
  match ← onRegistry a with
  | .error e => return ofError e
  | .ok () =>
    match (← state).registry.get? k with
    | some b => return ok b.toJson
    | none => return ofError (.notFound k.text)

def setOverride (service address port : Bytes) (r : AdminRequest) :
    Operation NodeState AdminResponse := do
  match keyOf? service address port with
  | none => return explained 400
  | some k =>
    match requireBody overrideFields r with
    | .error response => return response
    | .ok j =>
      match OverrideRequest.ofJson? j with
      | none => return explained 422
      | some o =>
        changed k (Registry.setOverride p.registry now k o.healthy o.reason o.operator)

def clearOverride (service address port : Bytes) : Operation NodeState AdminResponse := do
  match keyOf? service address port with
  | none => return explained 400
  | some k => changed k (Registry.clearOverride p.registry now k)

def validate : Operation NodeState AdminResponse := do
  let sum ← onRegistry (Validator.sweep p.registry now ctx.script ctx.validator)
  return ok sum.toJson

def answerPins (a : Operation Pins (Except Error Unit)) : Operation NodeState AdminResponse := do
  match ← onPins a with
  | .ok () => return noContent
  | .error e => return ofError e

def revoke (agentId : Bytes) (r : AdminRequest) : Operation NodeState AdminResponse := do
  match AdminRequest.stepText? agentId with
  | none => return explained 400
  | some agentId =>
    match requireBody revokeFields r with
    | .error response => return response
    | .ok j =>
      match revokeReason? j with
      | none => return explained 422
      | some reason => answerPins (Pins.revoke now agentId reason)

def unpin (agentId : Bytes) : Operation NodeState AdminResponse := do
  match AdminRequest.stepText? agentId with
  | none => return explained 400
  | some agentId => answerPins (Pins.unpin agentId)

def answer? (route : Route) (r : AdminRequest) : Option (Operation NodeState AdminResponse) :=
  match route, r.method with
  | .health, "GET" => some (done health)
  | .ready, "GET" => some do return ready ctx (← state)
  | .backends, "GET" => some do return listBackends r (← state)
  | .override s a port, "PUT" => some (setOverride p now s a port r)
  | .override s a port, "DELETE" => some (clearOverride p now s a port)
  | .validate, "POST" => some (validate p now ctx)
  | .agents, "GET" => some do return ok (.list Pin.summaryJson (← state).pins.all)
  | .revoke id, "POST" => some (revoke now id r)
  | .agent id, "DELETE" => some (unpin id)
  | .stats, "GET" => some do return stats ctx (← state)
  | _, _ => none

def withoutBody (response : AdminResponse) : AdminResponse := bare response.status

def serve (r : AdminRequest) : Operation NodeState AdminResponse := do
  match Route.ofSteps? r.steps with
  | none => return bare 404
  | some route =>
    let isHead := r.method == "HEAD"
    match answer? p now ctx route (if isHead then { r with method := "GET" } else r) with
    | none => return bare 405
    | some a =>
      let response ← a
      return if isHead then withoutBody response else response

end Admin

end HealthConsensus
