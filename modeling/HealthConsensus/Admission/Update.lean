import HealthConsensus.Admission.Basic

namespace HealthConsensus

namespace Pin

def ofCertificate (agentId pem region : String) (c : Certificate) (now : Instant) : Pin where
  agentId := agentId
  fingerprint := c.fingerprint
  certificatePem := pem
  region := region
  firstSeen := now
  lastSeen := now
  notAfter := c.notAfter
  revoked := false
  revokedAt := none
  revokedReason := none

/-- The pin with a new certificate, which changes the region only if it names one. -/
def rotate (pem region : String) (c : Certificate) (now : Instant) (pin : Pin) : Pin :=
  { pin with
    fingerprint := c.fingerprint
    certificatePem := pem
    notAfter := c.notAfter
    lastSeen := now
    region := if region.isEmpty then pin.region else region }

def revoke (reason : String) (now : Instant) (pin : Pin) : Pin :=
  { pin with revoked := true, revokedAt := some now, revokedReason := some reason }

end Pin

namespace Pins

open Operation

variable (p : AdmissionPolicy) (now : Instant)

def put (agentId : String) (pin : Pin) : Operation Pins Unit := do
  modify (Table.set agentId pin)
  write (.putPin pin)

def confirm (agentId : String) (c : Certificate) (pin : Pin) :
    Operation Pins (Except Error Pin) := do
  if pin.revoked then
    log (.warn "Rejected revoked agent"
      [("agent_id", agentId), ("fingerprint", Fingerprint.logged c.fingerprint)])
    return .error .certificateRevoked
  if pin.fingerprint != c.fingerprint then
    log (.warn "Certificate fingerprint mismatch"
      [("agent_id", agentId), ("pinned", Fingerprint.logged pin.fingerprint),
        ("presented", Fingerprint.logged c.fingerprint)])
    return .error .fingerprintMismatch
  let pin := { pin with lastSeen := now }
  put agentId pin
  return .ok pin

def firstContact (agentId pem token : String) (c : Certificate) :
    Operation Pins (Except Error Pin) := do
  if !p.accepts token then
    log (.warn "Invalid service token on first contact"
      [("agent_id", agentId), ("fingerprint", Fingerprint.logged c.fingerprint)])
    return .error .invalidToken
  let pin := Pin.ofCertificate agentId pem (p.regionOf c) c now
  log (.info "Pinned new agent certificate"
    [("agent_id", agentId), ("region", pin.region),
      ("fingerprint", Fingerprint.logged pin.fingerprint)])
  put agentId pin
  return .ok pin

def authenticate (agentId pem token : String) : Operation Pins (Except Error Pin) := do
  if agentId.isEmpty then
    return .error (.authenticationFailed "agent_id is required")
  match Certificate.accept pem now with
  | .error e => return .error e
  | .ok c =>
    match (← state).get? agentId with
    | some pin => confirm now agentId c pin
    | none => firstContact p now agentId pem token c

def revoke (agentId reason : String) : Operation Pins (Except Error Unit) := do
  match (← state).get? agentId with
  | none => return .error (unknown agentId)
  | some pin =>
    let pin := pin.revoke reason now
    log (.warn "Agent certificate revoked"
      [("agent_id", agentId), ("reason", reason),
        ("fingerprint", Fingerprint.logged pin.fingerprint)])
    put agentId pin
    return .ok ()

def rotate (agentId pem current : String) : Operation Pins (Except Error Pin) := do
  match Certificate.accept pem now with
  | .error e => return .error e
  | .ok c =>
    match (← state).get? agentId with
    | none => return .error (unknown agentId)
    | some pin =>
      if pin.revoked then return .error .certificateRevoked
      if pin.fingerprint != Ascii.lower current then
        log (.warn "Rotation rejected: current fingerprint mismatch"
          [("agent_id", agentId), ("presented", Fingerprint.logged current)])
        return .error .fingerprintMismatch
      log (.info "Agent certificate rotated"
        [("agent_id", agentId), ("old", Fingerprint.logged pin.fingerprint),
          ("new", Fingerprint.logged c.fingerprint)])
      let pin := pin.rotate pem (p.regionOf c) c now
      put agentId pin
      return .ok pin

def unpin (agentId : String) : Operation Pins (Except Error Unit) := do
  match (← state).get? agentId with
  | none => return .error (unknown agentId)
  | some pin =>
    modify (Table.erase agentId)
    write (.dropPin agentId)
    log (.info "Agent certificate unpinned"
      [("agent_id", agentId), ("fingerprint", Fingerprint.logged pin.fingerprint)])
    return .ok ()

end Pins

end HealthConsensus
