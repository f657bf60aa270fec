import HealthConsensus.Backend.Record

namespace HealthConsensus

open Json.Field

structure Pin where
  agentId : String
  fingerprint : String
  certificatePem : String
  region : String
  firstSeen : Instant
  lastSeen : Instant
  notAfter : Instant
  revoked : Bool
  revokedAt : Option Instant
  revokedReason : Option String
deriving DecidableEq, Repr

namespace Pin

def storeFolder : String := "pinned_certs/"

def storeKey (agentId : String) : String := storeFolder ++ agentId

def toJson (p : Pin) : Json :=
  .obj ([("agent_id", .str p.agentId), ("fingerprint", .str p.fingerprint),
      ("certificate_pem", .str p.certificatePem), ("region", .str p.region),
      ("first_seen", p.firstSeen.toJson), ("last_seen", p.lastSeen.toJson),
      ("not_after", p.notAfter.toJson), ("revoked", .bool p.revoked)]
    ++ Json.optionalField "revoked_at" Instant.toJson p.revokedAt
    ++ Json.optionalField "revoked_reason" .str p.revokedReason)

def fieldNames : List String :=
  ["agent_id", "fingerprint", "certificate_pem", "region", "first_seen", "last_seen", "not_after",
    "revoked", "revoked_at", "revoked_reason"]

def ofJson? (j : Json) : Option Pin := do
  let [agentId, fingerprint, certificatePem, region, firstSeen, lastSeen, notAfter, revoked,
    revokedAt, revokedReason] ← j.fields? fieldNames | none
  return {
    agentId := ← required Json.string? agentId
    fingerprint := ← required Json.string? fingerprint
    certificatePem := ← required Json.string? certificatePem
    region := ← required Json.string? region
    firstSeen := ← required Instant.ofJson? firstSeen
    lastSeen := ← required Instant.ofJson? lastSeen
    notAfter := ← required Instant.ofJson? notAfter
    revoked := ← required Json.bool? revoked
    revokedAt := ← optional Instant.ofJson? revokedAt
    revokedReason := ← optional Json.string? revokedReason }

end Pin

end HealthConsensus
