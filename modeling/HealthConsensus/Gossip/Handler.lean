import HealthConsensus.Admission.Update
import HealthConsensus.Cipher.Frame
import HealthConsensus.Gossip.Codec
import HealthConsensus.Gossip.Message
import HealthConsensus.Registry.Update

namespace HealthConsensus

structure NodeState where
  registry : Registry
  pins : Pins
  counters : Counters
deriving Inhabited

structure NodePolicy where
  registry : RegistryPolicy
  admission : AdmissionPolicy
  requireAuth : Bool

def Settings.policy (s : Settings) : NodePolicy where
  registry := s.registry.policy
  admission := s.auth.policy
  requireAuth := s.gossip.requireAuth

namespace NodeState

variable {α : Type}

def onRegistry (a : Operation Registry α) : Operation NodeState α :=
  a.on NodeState.registry fun r n => { n with registry := r }

def onPins (a : Operation Pins α) : Operation NodeState α :=
  a.on NodeState.pins fun ps n => { n with pins := ps }

def count (step : Counters → Counters) : Operation NodeState Unit :=
  .modify fun n => { n with counters := step n.counters }

end NodeState

namespace BackendClaim

def registration (agentId region : String) (c : BackendClaim) : Registration :=
  ⟨agentId, region, c.service, c.address, c.port, c.weight, c.healthy⟩

end BackendClaim

namespace RegisterRequest

def registration (agentId region : String) (r : RegisterRequest) : Registration :=
  ⟨agentId, region, r.service, r.address, r.port, r.weight, true⟩

end RegisterRequest

def DeregisterRequest.key (r : DeregisterRequest) : BackendKey := ⟨r.service, r.address, r.port⟩

namespace Handler

open Operation NodeState

variable (p : NodePolicy) (now : Instant)

def refusal? (agentId fingerprint : String) (n : NodeState) : Option Error :=
  if p.requireAuth then
    match n.pins.verify agentId fingerprint with
    | .ok () => none
    | .error e => some e
  else none

def reject (agentId kind fingerprint : String) (e : Error) : Operation NodeState Unit := do
  count fun c => { c with rejected := c.rejected + 1 }
  log (.warn "Dropping message from unauthenticated agent"
    [("agent_id", agentId), ("kind", kind), ("fingerprint", Fingerprint.logged fingerprint),
      ("error", e.message)])

def claim (agentId region : String) (c : BackendClaim) : Operation NodeState Unit := do
  match ← onRegistry (Registry.register p.registry now (c.registration agentId region)) with
  | .ok () => return ()
  | .error e =>
    log (.warn "Heartbeat entry rejected"
      [("agent_id", agentId), ("backend", c.key.text), ("error", e.message)])

def forecast (agentId : String) (f : Option Forecast) : Operation NodeState Unit :=
  match f with
  | none => return ()
  | some f => do
    let affected ← onRegistry (Registry.drain p.registry now agentId f.drain)
    log (.debug "Predictive health applied"
      [("agent_id", agentId), ("affected", toString affected)])

def heartbeat (agentId region : String) (h : Heartbeat) : Operation NodeState Unit := do
  match refusal? p agentId h.fingerprint (← state) with
  | some e => reject agentId "heartbeat" h.fingerprint e
  | none =>
    forEach h.backends (claim p now agentId region)
    forecast p now agentId h.forecast
    count fun c => { c with heartbeats := c.heartbeats + 1 }

def ifAdmitted (agentId kind : String) (next : Operation NodeState Unit) :
    Operation NodeState Unit := do
  if !p.requireAuth || (← state).pins.isAdmitted agentId then next
  else
    count fun c => { c with rejected := c.rejected + 1 }
    log (.warn "Dropping message from unadmitted agent" [("agent_id", agentId), ("kind", kind)])

def register (agentId region : String) (r : RegisterRequest) : Operation NodeState Unit :=
  ifAdmitted p agentId "register" do
    let registration := r.registration agentId region
    match ← onRegistry (Registry.register p.registry now registration) with
    | .ok () => count fun c => { c with registers := c.registers + 1 }
    | .error e =>
      log (.warn "Register rejected"
        [("agent_id", agentId), ("backend", registration.key.text), ("error", e.message)])

def deregister (agentId : String) (r : DeregisterRequest) : Operation NodeState Unit :=
  ifAdmitted p agentId "deregister" do
    match ← onRegistry (Registry.deregister r.key) with
    | .ok () => count fun c => { c with deregisters := c.deregisters + 1 }
    | .error _ =>
      log (.warn "Deregister for unknown backend" [("agent_id", agentId), ("backend", r.key.text)])

def agentAuth (agentId : String) (r : AuthRequest) : Operation NodeState Unit := do
  match ← onPins (Pins.authenticate p.admission now agentId r.certificatePem r.serviceToken) with
  | .ok pin =>
    count fun c => { c with agentAuths := c.agentAuths + 1 }
    log (.debug "Agent authenticated"
      [("agent_id", agentId), ("fingerprint", Fingerprint.logged pin.fingerprint)])
  | .error e =>
    count fun c => { c with authFailures := c.authFailures + 1 }
    log (.warn "Agent authentication failed"
      [("agent_id", agentId), ("fingerprint", Fingerprint.logged r.fingerprint),
        ("error", e.message)])

def handle (m : Message) : Operation NodeState Unit :=
  match m.payload with
  | .heartbeat h => heartbeat p now m.agentId m.region h
  | .register r => register p now m.agentId m.region r
  | .deregister r => deregister p m.agentId r
  | .agentAuth r => agentAuth p now m.agentId r
  | .unknown kind => do
    count fun c => { c with unknown := c.unknown + 1 }
    log (.warn "Unknown gossip message type" [("agent_id", m.agentId), ("kind", kind)])

def run (ms : List Message) : Operation NodeState Unit := do
  log (.info "Gossip handler started" [("require_agent_auth", toString p.requireAuth)])
  forEach ms (handle p now)

end Handler

structure Receiver where
  key : Bytes
  capacity : Nat
  queue : List Message
  hasHandler : Bool
  counters : Counters

namespace Receiver

def ofKey (key : Bytes) (capacity : Nat) : Receiver := ⟨key, capacity, [], true, {}⟩

def count (step : Counters → Counters) (r : Receiver) : Receiver :=
  { r with counters := step r.counters }

def enqueue (m : Message) (r : Receiver) : Receiver :=
  if !r.hasHandler then r
  else if r.queue.length < r.capacity then { r with queue := r.queue ++ [m] }
  else r.count fun c => { c with queueFull := c.queueFull + 1 }

def receive (datagram : Bytes) (r : Receiver) : Receiver :=
  match Frame.decode r.key datagram with
  | .error _ => r.count fun c => { c with badFrames := c.badFrames + 1 }
  | .ok body =>
    match Message.decode body with
    | .error _ => r.count fun c => { c with decodeErrors := c.decodeErrors + 1 }
    | .ok m => r.enqueue m

def take (r : Receiver) : Option Message × Receiver :=
  match r.queue with
  | [] => (none, r)
  | m :: rest => (some m, { r with queue := rest })

def close (r : Receiver) : Receiver := { r with queue := [], hasHandler := false }

end Receiver

end HealthConsensus
