import HealthConsensus.Json.Reader
import HealthConsensus.Settings.Basic

namespace HealthConsensus

open Json.Field

namespace RegistrySettings

def ofJson? (j : Json) : Option RegistrySettings := do
  let [stale, remove, smoothing] ←
    j.fields? ["stale_threshold_secs", "remove_after_secs", "latency_smoothing_factor"] | none
  return {
    staleSeconds := ← withDefault 30 Json.uint64? stale
    removeSeconds := ← withDefault 300 Json.uint64? remove
    smoothing := ← withDefault 0.3 Json.float? smoothing }

end RegistrySettings

namespace ValidatorSettings

def ofJson? (j : Json) : Option ValidatorSettings := do
  let [enabled, interval, timeout, maxConcurrent, checkType, scheme, path] ←
    j.fields? ["enabled", "check_interval_secs", "check_timeout_secs", "max_concurrent",
      "check_type", "scheme", "path"] | none
  return {
    enabled := ← withDefault true Json.bool? enabled
    intervalSeconds := ← withDefault 30 Json.uint64? interval
    timeoutSeconds := ← withDefault 5 Json.uint64? timeout
    maxConcurrent := ← withDefault 10 Json.uint64? maxConcurrent
    checkType := ← withDefault .tcp (fun j => j.constructor?.bind CheckType.ofText?) checkType
    scheme := ← withDefault "http" Json.string? scheme
    path := ← withDefault "/health" Json.string? path }

end ValidatorSettings

namespace GossipSettings

def ofJson? (j : Json) : Option GossipSettings := do
  let [bind, encryptionKey, queueCapacity, requireAuth] ←
    j.fields? ["bind_addr", "encryption_key", "queue_capacity", "require_agent_auth"] | none
  return {
    bindAddress := ← withDefault "0.0.0.0:7946" Json.string? bind
    encryptionKey := ← withDefault "" Json.string? encryptionKey
    queueCapacity := ← withDefault 1000 Json.uint64? queueCapacity
    requireAuth := ← withDefault false Json.bool? requireAuth }

end GossipSettings

namespace AuthSettings

def ofJson? (j : Json) : Option AuthSettings := do
  let [tokens, regionStart] ← j.fields? ["service_tokens", "region_prefix"] | none
  return {
    serviceTokens := ← withDefault [] (Json.list? Json.string?) tokens
    regionStart := ← withDefault "gslb-agent" Json.string? regionStart }

end AuthSettings

namespace StoreSettings

def ofJson? (j : Json) : Option StoreSettings := do
  let [kind, redisUrl] ← j.fields? ["backend", "redis_url"] | none
  return {
    kind := ← withDefault .memory (fun j => j.constructor?.bind StoreKind.ofText?) kind
    redisUrl := ← withDefault "redis://127.0.0.1:6379" Json.string? redisUrl }

end StoreSettings

namespace Settings

def ofJson? (j : Json) : Option Settings := do
  let [listen, nodeId, registry, validator, gossip, auth, store] ←
    j.fields? ["listen_addr", "node_id", "registry", "validator", "gossip", "auth", "store"] | none
  return {
    listenAddress := ← withDefault "127.0.0.1:8080" Json.string? listen
    nodeId := ← withDefault none (fun j => j.string?.map some) nodeId
    registry := ← withDefault {} RegistrySettings.ofJson? registry
    validator := ← withDefault {} ValidatorSettings.ofJson? validator
    gossip := ← withDefault {} GossipSettings.ofJson? gossip
    auth := ← withDefault {} AuthSettings.ofJson? auth
    store := ← withDefault {} StoreSettings.ofJson? store }

def uint64Json (n : UInt64) : Json := .nat n.toNat

def toJson (unnamed : String) (s : Settings) : Json :=
  .obj [
    ("listen_addr", .str s.listenAddress),
    ("node_id", .str (s.nodeId.getD unnamed)),
    ("registry", .obj [
      ("stale_threshold_secs", uint64Json s.registry.staleSeconds),
      ("remove_after_secs", uint64Json s.registry.removeSeconds),
      ("latency_smoothing_factor", .float s.registry.smoothing)]),
    ("validator", .obj [
      ("enabled", .bool s.validator.enabled),
      ("check_interval_secs", uint64Json s.validator.intervalSeconds),
      ("check_timeout_secs", uint64Json s.validator.timeoutSeconds),
      ("max_concurrent", uint64Json s.validator.maxConcurrent),
      ("check_type", .str s.validator.checkType.text),
      ("scheme", .str s.validator.scheme),
      ("path", .str s.validator.path)]),
    ("gossip", .obj [
      ("bind_addr", .str s.gossip.bindAddress),
      ("encryption_key", .str s.gossip.encryptionKey),
      ("queue_capacity", uint64Json s.gossip.queueCapacity),
      ("require_agent_auth", .bool s.gossip.requireAuth)]),
    ("auth", .obj [
      ("service_tokens", .list .str s.auth.serviceTokens),
      ("region_prefix", .str s.auth.regionStart)]),
    ("store", .obj [
      ("backend", .str s.store.kind.text),
      ("redis_url", .str s.store.redisUrl)])]

end Settings

end HealthConsensus
