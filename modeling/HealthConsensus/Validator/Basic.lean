import HealthConsensus.Check.Basic
import HealthConsensus.Json.Basic
import HealthConsensus.Registry.Update
import HealthConsensus.Text.Basic

namespace HealthConsensus

structure ValidationSummary where
  checked : Nat := 0
  healthy : Nat := 0
  unhealthy : Nat := 0
  timedOut : Nat := 0
  skipped : Nat := 0
deriving DecidableEq, Repr

namespace ValidationSummary

def add (s : ValidationSummary) (v : Verdict) (landed : Bool) : ValidationSummary where
  checked := s.checked + 1
  healthy := if landed && v.healthy then s.healthy + 1 else s.healthy
  unhealthy := if landed && !v.healthy then s.unhealthy + 1 else s.unhealthy
  timedOut := if v.isOverdue then s.timedOut + 1 else s.timedOut
  skipped := if landed then s.skipped else s.skipped + 1

def toJson (s : ValidationSummary) : Json :=
  .obj [("checked", .nat s.checked), ("healthy", .nat s.healthy), ("unhealthy", .nat s.unhealthy),
    ("timed_out", .nat s.timedOut), ("skipped", .nat s.skipped)]

end ValidationSummary

structure ValidationStats where
  total : Nat
  validated : Nat
  healthy : Nat
  unhealthy : Nat
  stale : Nat
  draining : Nat
  disagreements : Nat
deriving DecidableEq, Repr

namespace ValidationStats

def ofRegistry (r : Registry) : ValidationStats :=
  let bs := r.all
  let count (s : BackendStatus) := bs.countP fun b => b.status == s
  { total := bs.length
    validated := bs.countP fun b => b.validation.isSome
    healthy := count .healthy
    unhealthy := count .unhealthy
    stale := count .stale
    draining := count .draining
    disagreements := bs.countP Backend.disagrees }

def toJson (s : ValidationStats) : Json :=
  .obj [("total", .nat s.total), ("validated", .nat s.validated), ("healthy", .nat s.healthy),
    ("unhealthy", .nat s.unhealthy), ("stale", .nat s.stale), ("draining", .nat s.draining),
    ("disagreements", .nat s.disagreements)]

end ValidationStats

def Backend.target (s : ValidatorSettings) (b : Backend) : Target :=
  ⟨b.address, b.port, s.scheme, s.path, s.timeout⟩

namespace Target

def text (t : Target) : String :=
  t.address ++ ":" ++ toString t.port.toNat ++ " " ++ t.scheme ++ " " ++ t.path ++ " "
    ++ t.timeout.text

end Target

namespace Validator

open Operation

variable (p : RegistryPolicy) (now : Instant)

def errorText : Option String → String
  | none => "None"
  | some e => "Some(" ++ Quotation.quote e ++ ")"

def disagreement (b : Backend) (v : Verdict) : List LogLine :=
  if b.agentHealthy = v.healthy then []
  else
    [.info "Validation disagrees with agent"
      [("service", b.service), ("address", b.address), ("port", toString b.port.toNat),
        ("agent_id", b.agentId), ("agent_healthy", toString b.agentHealthy),
        ("validated_healthy", toString v.healthy), ("error", errorText v.error)]]

def land (b : Backend) (v : Verdict) : Operation Registry (Except Error Unit) := do
  match ← Registry.validate p now b.key v.healthy v.error v.latency with
  | .error e => return .error e
  | .ok () =>
    effect ⟨[], [], disagreement b v⟩
    return .ok ()

def removeAt (t : Target) : Operation Registry Unit := do
  let there := (← state).entries.filter fun e => e.2.address == t.address && e.2.port == t.port
  forEach (there.map Prod.fst) fun k => do let _ ← Registry.deregister k

def crash : LogLine := .warn "Validation probe panicked" []

abbrev Script := Target → ScriptedCheck

def checkOne (script : Script) (s : ValidatorSettings) (b : Backend) (sum : ValidationSummary) :
    Operation Registry ValidationSummary := do
  let t := b.target s
  let c := script t
  if c.removes s.timeout then removeAt t
  match c.verdict? s.timeout with
  | none =>
    log crash
    return sum
  | some v =>
    match ← land p now b v with
    | .ok () => return sum.add v true
    | .error _ => return sum.add v false

def checkAll (script : Script) (s : ValidatorSettings) :
    List Backend → ValidationSummary → Operation Registry ValidationSummary
  | [], sum => return sum
  | b :: bs, sum => do checkAll script s bs (← checkOne p now script s b sum)

def sweep (script : Script) (s : ValidatorSettings) : Operation Registry ValidationSummary := do
  checkAll p now script s (← state).all {}

def checkBackend (script : Script) (s : ValidatorSettings) (k : BackendKey) :
    Operation Registry (Option (Except Error Verdict)) := do
  match (← state).get? k with
  | none => return some (.error (.notFound k.text))
  | some b =>
    let t := b.target s
    let c := script t
    if c.removes s.timeout then removeAt t
    match c.verdict? s.timeout with
    | none => return none
    | some v =>
      match ← land p now b v with
      | .ok () => return some (.ok v)
      | .error e => return some (.error e)

end Validator

end HealthConsensus
