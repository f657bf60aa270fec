import HealthConsensus.Certificate.Basic
import HealthConsensus.Effects
import HealthConsensus.Settings.Basic
import HealthConsensus.Table

namespace HealthConsensus

structure AdmissionPolicy where
  tokenDigests : List Bytes
  regionStart : String
deriving DecidableEq, Repr

def AuthSettings.policy (s : AuthSettings) : AdmissionPolicy where
  tokenDigests :=
    (s.serviceTokens.filter fun t => !t.isEmpty).map fun t => Sha256.digest (Bytes.ofString t)
  regionStart := s.regionStart

namespace AdmissionPolicy

def accepts (p : AdmissionPolicy) (token : String) : Bool :=
  !token.isEmpty && p.tokenDigests.contains (Sha256.digest (Bytes.ofString token))

def startupLog (p : AdmissionPolicy) : List LogLine :=
  if p.tokenDigests.isEmpty then
    [.warn "No service tokens configured; new agents cannot be admitted" []]
  else []

def regionOf (p : AdmissionPolicy) (c : Certificate) : String :=
  match c.commonName with
  | some name => Certificate.regionOf name p.regionStart
  | none => ""

end AdmissionPolicy

namespace Certificate

def accept (pem : String) (now : Instant) : Except Error Certificate := do
  let c ← ofPem pem
  if c.isValidAt now then return c else throw .certificateExpired

end Certificate

abbrev Pins := Table String Pin

namespace Pins

def unknown (agentId : String) : Error := .notFound ("agent " ++ agentId)

def isAdmitted (agentId : String) (pins : Pins) : Bool :=
  (pins.get? agentId).any fun pin => !pin.revoked

def all (pins : Pins) : List Pin := pins.values.mergeSort fun a b => a.agentId ≤ b.agentId

def expiring (now : Instant) (within : Duration) (pins : Pins) : List Pin :=
  let horizon := (now.add? within).getD .latest
  (pins.all.filter fun pin => !pin.revoked && pin.notAfter ≤ horizon).mergeSort
    fun a b => a.notAfter ≤ b.notAfter

def verify (agentId fingerprint : String) (pins : Pins) : Except Error Unit :=
  match pins.get? agentId with
  | none => .error (.authenticationFailed ("agent " ++ agentId ++ " is not pinned"))
  | some pin =>
    if pin.revoked then .error .certificateRevoked
    else if pin.fingerprint = Ascii.lower fingerprint then .ok ()
    else .error .fingerprintMismatch

end Pins

namespace Pin

def ofRecord? (value : Bytes) : Option Pin := (Json.parse? value).bind ofJson?

end Pin

namespace Pins

def loader : Loader String Pin where
  key := Pin.agentId
  read? := Pin.ofRecord?
  skipping := "Skipping unreadable pin record"
  loaded := "Pinned certificates loaded from store"

def load (listing : Option (Except Error (List (String × Bytes)))) :
    Operation Pins (Except Error Nat) := loader.load listing

end Pins

end HealthConsensus
