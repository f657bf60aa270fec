namespace HealthConsensus

inductive Error where
  | notFound (what : String)
  | invalidInput (reason : String)
  | invalidToken
  | fingerprintMismatch
  | certificateExpired
  | certificateRevoked
  | invalidCertificate (reason : String)
  | authenticationFailed (reason : String)
  | store (reason : String)
  | config (reason : String)
  | gossip (reason : String)
  | internal (reason : String)
deriving DecidableEq, Repr

namespace Error

def message : Error → String
  | notFound what => "Not found: " ++ what
  | invalidInput reason => "Invalid input: " ++ reason
  | invalidToken => "invalid service token"
  | fingerprintMismatch => "certificate fingerprint mismatch"
  | certificateExpired => "certificate expired"
  | certificateRevoked => "certificate revoked"
  | invalidCertificate reason => "invalid certificate: " ++ reason
  | authenticationFailed reason => "authentication failed: " ++ reason
  | store reason => "Store error: " ++ reason
  | config reason => "Configuration error: " ++ reason
  | gossip reason => "Gossip error: " ++ reason
  | internal reason => "Internal error: " ++ reason

def statusCode : Error → Nat
  | notFound _ => 404
  | invalidInput _ => 400
  | invalidToken => 401
  | fingerprintMismatch => 401
  | certificateExpired => 401
  | certificateRevoked => 403
  | invalidCertificate _ => 400
  | authenticationFailed _ => 401
  | store _ => 503
  | config _ => 500
  | gossip _ => 503
  | internal _ => 500

def isRetryable : Error → Bool
  | store _ => true
  | gossip _ => true
  | _ => false

def isAuthFailure : Error → Bool
  | invalidToken => true
  | fingerprintMismatch => true
  | certificateExpired => true
  | certificateRevoked => true
  | invalidCertificate _ => true
  | authenticationFailed _ => true
  | _ => false

end Error

inductive LogLevel where
  | debug
  | info
  | warn
deriving DecidableEq, Repr

def LogLevel.text : LogLevel → String
  | .debug => "debug"
  | .info => "info"
  | .warn => "warn"

structure LogLine where
  level : LogLevel
  message : String
  fields : List (String × String)
deriving DecidableEq, Repr

namespace LogLine

def debug (message : String) (fields : List (String × String)) : LogLine := ⟨.debug, message, fields⟩

def info (message : String) (fields : List (String × String)) : LogLine := ⟨.info, message, fields⟩

def warn (message : String) (fields : List (String × String)) : LogLine := ⟨.warn, message, fields⟩

end LogLine

end HealthConsensus
