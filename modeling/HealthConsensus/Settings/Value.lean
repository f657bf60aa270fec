import HealthConsensus.Number.Literal
import HealthConsensus.Settings.Basic

namespace HealthConsensus

inductive SettingValue where
  | flag (b : Bool)
  | whole (n : Int)
  | real (x : Float)
  | text (s : String)
  | list (items : List SettingValue)
  | table (entries : List (String × SettingValue))
deriving Inhabited

namespace SettingValue

def trueWords : List String := ["true", "on", "yes"]

def falseWords : List String := ["false", "off", "no"]

def flagOfText? (s : String) : Option Bool :=
  let word := Ascii.lower s
  if trueWords.contains word || word == "1" then some true
  else if falseWords.contains word || word == "0" then some false
  else none

def toFlag? : SettingValue → Option Bool
  | flag b => some b
  | whole n => some (n != 0)
  | real x => some (x != 0)
  | text s => flagOfText? s
  | _ => none

def nearestNat (x : Float) : Nat :=
  if x.isNaN || x < 0 then 0
  else if x.isInf then UInt64.size - 1
  else
    let (n, d) := (Binary64.magnitude x).quotient
    min ((2 * n + d) / (2 * d)) (UInt64.size - 1)

def below64? (n : Nat) : Option UInt64 := if n < UInt64.size then some (.ofNat n) else none

def toUInt64? : SettingValue → Option UInt64
  | flag b => some (if b then 1 else 0)
  | whole n => if 0 ≤ n then below64? n.toNat else none
  | real x => some (.ofNat (nearestNat x))
  | text s =>
    let word := Ascii.lower s
    if trueWords.contains word then some 1
    else if falseWords.contains word then some 0
    else (Literal.nat? s).bind below64?
  | _ => none

def floatOfInt (n : Int) : Float :=
  (Decimal.toFloat? ⟨decide (n < 0), n.natAbs, 0⟩).getD 0

def toFloat? : SettingValue → Option Float
  | flag b => some (if b then 1 else 0)
  | whole n => some (floatOfInt n)
  | real x => some x
  | text s =>
    let word := Ascii.lower s
    if trueWords.contains word then some 1
    else if falseWords.contains word then some 0
    else Literal.float? s
  | _ => none

def toText? : SettingValue → Option String
  | flag b => some (if b then "true" else "false")
  | whole n => some (toString n)
  | real x => some (Binary64.plainText x)
  | text s => some s
  | _ => none

def toTexts? : SettingValue → Option (List String)
  | list items => items.mapM toText?
  | _ => none

def toChoice? : SettingValue → Option String
  | text s => some (Ascii.lower s)
  | table [(name, _)] => some (Ascii.lower name)
  | _ => none

def fields? (names : List String) : SettingValue → Option (List (Option SettingValue))
  | table entries => some (names.map fun name => (entries.find? (·.1 == name)).map (·.2))
  | list items => some ((List.range names.length).map fun i => items[i]?)
  | _ => none

def insertEntry (name : String) (v : SettingValue) :
    List (String × SettingValue) → List (String × SettingValue)
  | [] => [(name, v)]
  | (k, old) :: rest => if k == name then (k, v) :: rest else (k, old) :: insertEntry name v rest

def entries : SettingValue → List (String × SettingValue)
  | table es => es
  | _ => []

def child? (name : String) (v : SettingValue) : Option SettingValue :=
  (v.entries.find? (·.1 == name)).map (·.2)

mutual

def mergeOnto (old : Option SettingValue) : SettingValue → SettingValue
  | table es => table (entriesOver (match old with | some v => v.entries | none => []) es)
  | v => v

def entriesOver (old : List (String × SettingValue)) :
    List (String × SettingValue) → List (String × SettingValue)
  | [] => old
  | (k, v) :: rest =>
    entriesOver (insertEntry k (mergeOnto ((old.find? (·.1 == k)).map (·.2)) v) old) rest

end

def set : List String → SettingValue → SettingValue → SettingValue
  | [], v, root => mergeOnto (some root) v
  | name :: path, v, root =>
    table (insertEntry name
      (match path with
        | [] => mergeOnto (root.child? name) v
        | _ => set path v ((root.child? name).getD (table []))) root.entries)

end SettingValue

namespace Settings

variable {α : Type}

def fieldOr (default : α) (convert : SettingValue → Option α) : Option SettingValue → Option α
  | none => some default
  | some v => convert v

open SettingValue

def registryOf? (v : SettingValue) : Option RegistrySettings := do
  let [stale, remove, smoothing] ←
    v.fields? ["stale_threshold_secs", "remove_after_secs", "latency_smoothing_factor"] | none
  return {
    staleSeconds := ← fieldOr 30 toUInt64? stale
    removeSeconds := ← fieldOr 300 toUInt64? remove
    smoothing := ← fieldOr 0.3 toFloat? smoothing }

def validatorOf? (v : SettingValue) : Option ValidatorSettings := do
  let [enabled, interval, timeout, maxConcurrent, checkType, scheme, path] ←
    v.fields? ["enabled", "check_interval_secs", "check_timeout_secs", "max_concurrent",
      "check_type", "scheme", "path"] | none
  return {
    enabled := ← fieldOr true toFlag? enabled
    intervalSeconds := ← fieldOr 30 toUInt64? interval
    timeoutSeconds := ← fieldOr 5 toUInt64? timeout
    maxConcurrent := ← fieldOr 10 toUInt64? maxConcurrent
    checkType := ← fieldOr .tcp (fun v => v.toChoice?.bind CheckType.ofText?) checkType
    scheme := ← fieldOr "http" toText? scheme
    path := ← fieldOr "/health" toText? path }

def gossipOf? (v : SettingValue) : Option GossipSettings := do
  let [bind, encryptionKey, queueCapacity, requireAuth] ←
    v.fields? ["bind_addr", "encryption_key", "queue_capacity", "require_agent_auth"] | none
  return {
    bindAddress := ← fieldOr "0.0.0.0:7946" toText? bind
    encryptionKey := ← fieldOr "" toText? encryptionKey
    queueCapacity := ← fieldOr 1000 toUInt64? queueCapacity
    requireAuth := ← fieldOr false toFlag? requireAuth }

def authOf? (v : SettingValue) : Option AuthSettings := do
  let [tokens, regionStart] ← v.fields? ["service_tokens", "region_prefix"] | none
  return {
    serviceTokens := ← fieldOr [] toTexts? tokens
    regionStart := ← fieldOr "gslb-agent" toText? regionStart }

def storeOf? (v : SettingValue) : Option StoreSettings := do
  let [kind, redisUrl] ← v.fields? ["backend", "redis_url"] | none
  return {
    kind := ← fieldOr .memory (fun v => v.toChoice?.bind StoreKind.ofText?) kind
    redisUrl := ← fieldOr "redis://127.0.0.1:6379" toText? redisUrl }

def ofValue? (v : SettingValue) : Option Settings := do
  let [listen, nodeId, registry, validator, gossip, auth, store] ←
    v.fields? ["listen_addr", "node_id", "registry", "validator", "gossip", "auth", "store"] | none
  return {
    listenAddress := ← fieldOr "127.0.0.1:8080" toText? listen
    nodeId := ← fieldOr none (fun v => v.toText?.map some) nodeId
    registry := ← fieldOr {} registryOf? registry
    validator := ← fieldOr {} validatorOf? validator
    gossip := ← fieldOr {} gossipOf? gossip
    auth := ← fieldOr {} authOf? auth
    store := ← fieldOr {} storeOf? store }

end Settings

end HealthConsensus
