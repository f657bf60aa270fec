import HealthConsensus.Effects
import HealthConsensus.Settings.Basic
import HealthConsensus.Table

namespace HealthConsensus

structure RegistryPolicy where
  staleAfter : Duration
  removeAfter : Duration
  smoothing : Float

def RegistrySettings.policy (s : RegistrySettings) : RegistryPolicy where
  staleAfter := s.staleAfter
  removeAfter := s.removeAfter
  smoothing :=
    if 0 < s.smoothing && s.smoothing ≤ 1 then s.smoothing else ({} : RegistrySettings).smoothing

abbrev Registry := Table BackendKey Backend

namespace Registry

def all (r : Registry) : List Backend := r.values.mergeSort fun a b => a.key.le b.key

def ofService (service : String) (r : Registry) : List Backend :=
  (r.values.filter fun b => b.service == service).mergeSort fun a b => a.key.le b.key

def healthyOf (service : String) (r : Registry) : List Backend :=
  (r.ofService service).filter fun b => b.status == .healthy

def atAddress (address : String) (port : UInt16) (r : Registry) : List Backend :=
  r.values.filter fun b => b.address == address && b.port == port

def isHealthy (address : String) (port : UInt16) (r : Registry) : Bool :=
  (r.atAddress address port).any fun b => b.status == .healthy

def latency (address : String) (port : UInt16) (r : Registry) : LatencyStats :=
  ((r.atAddress address port).map Backend.latency).foldl
    (fun best s => if best.samples ≤ s.samples then s else best) default

end Registry

namespace Backend

def ofRecord? (value : Bytes) : Option Backend := (Json.parse? value).bind ofJson?

end Backend

namespace Registry

variable (p : RegistryPolicy) (now : Instant)

def readAt (value : Bytes) : Option Backend :=
  (Backend.ofRecord? value).map fun b => b.refresh now p.staleAfter

def loader : Loader BackendKey Backend where
  key := Backend.key
  read? := readAt p now
  skipping := "Skipping unreadable backend record"
  loaded := "Backends loaded from store"

def load (listing : Option (Except Error (List (String × Bytes)))) :
    Operation Registry (Except Error Nat) := (loader p now).load listing

end Registry

end HealthConsensus
