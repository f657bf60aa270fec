import HealthConsensus.Report
import HealthConsensus.Text.Base64
import HealthConsensus.Text.Basic
import HealthConsensus.Time.Duration

namespace HealthConsensus

structure RegistrySettings where
  staleSeconds : UInt64 := 30
  removeSeconds : UInt64 := 300
  smoothing : Float := 0.3

inductive CheckType where
  | tcp
  | http
deriving DecidableEq, Repr

structure ValidatorSettings where
  enabled : Bool := true
  intervalSeconds : UInt64 := 30
  timeoutSeconds : UInt64 := 5
  maxConcurrent : UInt64 := 10
  checkType : CheckType := .tcp
  scheme : String := "http"
  path : String := "/health"
deriving DecidableEq, Repr

structure GossipSettings where
  bindAddress : String := "0.0.0.0:7946"
  encryptionKey : String := ""
  queueCapacity : UInt64 := 1000
  requireAuth : Bool := false
deriving DecidableEq, Repr

structure AuthSettings where
  serviceTokens : List String := []
  regionStart : String := "gslb-agent"
deriving DecidableEq, Repr

inductive StoreKind where
  | memory
  | redis
deriving DecidableEq, Repr

structure StoreSettings where
  kind : StoreKind := .memory
  redisUrl : String := "redis://127.0.0.1:6379"
deriving DecidableEq, Repr

structure Settings where
  listenAddress : String := "127.0.0.1:8080"
  nodeId : Option String := none
  registry : RegistrySettings := {}
  validator : ValidatorSettings := {}
  gossip : GossipSettings := {}
  auth : AuthSettings := {}
  store : StoreSettings := {}

structure SettingsOverrides where
  listen : Option String := none
  gossipBind : Option String := none
  redisUrl : Option String := none
deriving DecidableEq, Repr

namespace RegistrySettings

def staleAfter (s : RegistrySettings) : Duration := .ofSeconds s.staleSeconds.toNat

def removeAfter (s : RegistrySettings) : Duration := .ofSeconds s.removeSeconds.toNat

end RegistrySettings

namespace ValidatorSettings

def interval (s : ValidatorSettings) : Duration := .ofSeconds s.intervalSeconds.toNat

def timeout (s : ValidatorSettings) : Duration := .ofSeconds s.timeoutSeconds.toNat

end ValidatorSettings

namespace GossipSettings

def keyLength : Nat := 32

def key (s : GossipSettings) : Except Error Bytes :=
  if s.encryptionKey.isEmpty then .error (.config "gossip.encryption_key is required")
  else
    match Base64.decode? true (Bytes.ofString (trimBlanks s.encryptionKey)) with
    | none => .error (.config "gossip.encryption_key is not base64")
    | some bs =>
      if bs.length = keyLength then .ok bs
      else
        .error (.config
          ("gossip.encryption_key must decode to 32 bytes, got " ++ toString bs.length))

end GossipSettings

namespace CheckType

def text : CheckType → String
  | tcp => "tcp"
  | http => "http"

def ofText? : String → Option CheckType
  | "tcp" => some tcp
  | "http" => some http
  | _ => none

end CheckType

namespace StoreKind

def text : StoreKind → String
  | memory => "memory"
  | redis => "redis"

def ofText? : String → Option StoreKind
  | "memory" => some memory
  | "redis" => some redis
  | _ => none

end StoreKind

namespace Settings

def withOverrides (s : Settings) (o : SettingsOverrides) : Settings :=
  { s with
    listenAddress := o.listen.getD s.listenAddress
    gossip := { s.gossip with bindAddress := o.gossipBind.getD s.gossip.bindAddress }
    store := { s.store with redisUrl := o.redisUrl.getD s.store.redisUrl } }

def validate (s : Settings) : Except Error Unit :=
  if s.registry.staleSeconds = 0 then
    .error (.config "registry.stale_threshold_secs must be positive")
  else if s.registry.removeSeconds ≤ s.registry.staleSeconds then
    .error (.config ("registry.remove_after_secs (" ++ toString s.registry.removeSeconds.toNat
      ++ ") must exceed stale_threshold_secs (" ++ toString s.registry.staleSeconds.toNat ++ ")"))
  else if !(0 < s.registry.smoothing && s.registry.smoothing ≤ 1) then
    .error (.config ("registry.latency_smoothing_factor must be in (0, 1], got "
      ++ Binary64.plainText s.registry.smoothing))
  else if s.validator.intervalSeconds = 0 || s.validator.timeoutSeconds = 0 then
    .error (.config "validator intervals must be positive")
  else if s.validator.maxConcurrent = 0 then
    .error (.config "validator.max_concurrent must be positive")
  else if s.gossip.queueCapacity = 0 then
    .error (.config "gossip.queue_capacity must be positive")
  else s.gossip.key.map fun _ => ()

end Settings

end HealthConsensus
