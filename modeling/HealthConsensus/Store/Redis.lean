import HealthConsensus.Number.Literal
import HealthConsensus.Report
import HealthConsensus.Store.Contents
import HealthConsensus.Store.Glob
import HealthConsensus.Web.Url

/-!
A store on a Redis server. Keys are listed page by page; since pages may repeat keys and come in any
order, the keys are sorted and each is asked for once.
-/

namespace HealthConsensus

inductive RedisCommand where
  | scan (cursor : Nat) (pattern : String)
  | get (key : String)
  | set (key : String) (value : Bytes)
  | delete (key : String)
  | ping
deriving DecidableEq, Repr

namespace RedisCommand

def pageSize : Nat := 100

def name : RedisCommand → String
  | scan _ _ => "SCAN"
  | get _ => "GET"
  | set _ _ => "SET"
  | delete _ => "DEL"
  | ping => "PING"

def words (c : RedisCommand) : List Bytes :=
  Bytes.ofString c.name :: match c with
    | scan cursor pattern =>
      [toString cursor, "MATCH", pattern, "COUNT", toString pageSize].map Bytes.ofString
    | get key => [Bytes.ofString key]
    | set key value => [Bytes.ofString key, value]
    | delete key => [Bytes.ofString key]
    | ping => []

end RedisCommand

structure KeyPage where
  next : Nat
  keys : List String
deriving DecidableEq, Repr

structure RedisPeer (σ : Type) where
  scan (cursor : Nat) (pattern : String) : σ → Except Error KeyPage × σ
  get (key : String) : σ → Except Error (Option Bytes) × σ

abbrev RedisTalk (σ : Type) := ExceptT Error (StateT σ Option)

def RedisTalk.ask {σ α : Type} (answer : σ → Except Error α × σ) : RedisTalk σ α :=
  fun s => some (answer s)

theorem RedisTalk.bind_ok {σ α β : Type} {x : RedisTalk σ α} {f : α → RedisTalk σ β} {s t : σ}
    {a : α} (h : x s = some (.ok a, t)) : (x >>= f) s = f a t := by
  change (x s).bind _ = _
  rw [h]
  rfl

theorem RedisTalk.bind_isSome {σ α β : Type} {x : RedisTalk σ α} {f : α → RedisTalk σ β} {s : σ}
    (first : (x s).isSome) (later : ∀ a t, x s = some (.ok a, t) → (f a t).isSome) :
    ((x >>= f) s).isSome := by
  obtain ⟨⟨result, t⟩, h⟩ := Option.isSome_iff_exists.1 first
  cases result with
  | error e =>
    change ((x s).bind _).isSome
    rw [h]
    rfl
  | ok a => exact RedisTalk.bind_ok h ▸ later a t h

namespace RedisPeer

variable {σ : Type}

def pages (peer : RedisPeer σ) (pattern : String) (cursor : Nat) :
    RedisTalk σ (List KeyPage) := do
  let first ← .ask (peer.scan cursor pattern)
  if first.next = 0 then return [first]
  let later ← peer |>.pages pattern first.next
  return first :: later
partial_fixpoint

def values (peer : RedisPeer σ) : List String → RedisTalk σ (List (String × Option Bytes))
  | [] => return []
  | k :: ks => do
    let v ← .ask (peer.get k)
    let later ← peer.values ks
    return (k, v) :: later

theorem values_isSome (peer : RedisPeer σ) (keys : List String) (s : σ) :
    (peer.values keys s).isSome := by
  induction keys generalizing s with
  | nil => rfl
  | cons k ks ih =>
    rw [values]
    refine RedisTalk.bind_isSome rfl fun v t _ => ?_
    exact RedisTalk.bind_isSome (ih t) fun _ _ _ => rfl

end RedisPeer

namespace RedisStore

variable {σ : Type}

def kind : String := "redis"

def withoutRepeats : List String → List String
  | a :: b :: rest => if a = b then withoutRepeats (b :: rest) else a :: withoutRepeats (b :: rest)
  | keys => keys

def sortedKeys (pages : List KeyPage) : List String :=
  withoutRepeats ((pages.flatMap KeyPage.keys).mergeSort fun a b => a ≤ b)

def present (values : List (String × Option Bytes)) : List (String × Bytes) :=
  values.filterMap fun e => e.2.map (e.1, ·)

def list (peer : RedisPeer σ) (start : String) : RedisTalk σ (List (String × Bytes)) := do
  let found ← peer.pages (Glob.ofStart start) 0
  return present (← peer.values (sortedKeys found))

theorem list_isSome {peer : RedisPeer σ} {start : String} {s : σ}
    (ends : (peer.pages (Glob.ofStart start) 0 s).isSome) : (list peer start s).isSome :=
  RedisTalk.bind_isSome ends fun found t _ =>
    RedisTalk.bind_isSome (peer.values_isSome (sortedKeys found) t) fun _ _ _ => rfl

end RedisStore

inductive RedisOpenError where
  | address
  | connection
deriving DecidableEq, Repr

def RedisOpenError.message : RedisOpenError → String
  | address => "Failed to create Redis client"
  | connection => "Failed to connect to Redis"

namespace RedisAddress

def database? (path : List Char) : Option Int :=
  let inner := ((path.dropWhile (· = '/')).reverse.dropWhile (· = '/')).reverse
  if inner.isEmpty then some 0
  else (Literal.int? (String.ofList inner)).filter fun n =>
    Int64.minValue.toInt ≤ n && n ≤ Int64.maxValue.toInt

def isServer (u : Url) : Bool :=
  u.scheme = ['r', 'e', 'd', 'i', 's'] && (database? (u.path.flatMap ('/' :: ·))).isSome

def isSocketPath (cs : List Char) : Bool :=
  match cs with
  | '/' :: '/' :: rest =>
    ["", "localhost"].contains (String.ofList (rest.takeWhile (· ≠ '/')))
  | '/' :: _ => true
  | _ => false

def isUsable (text : String) : Bool :=
  match Url.scheme? (Url.clean text.toList) with
  | none => false
  | some (scheme, rest) =>
    if ["unix", "redis+unix"].contains (String.ofList scheme) then isSocketPath rest
    else (Url.ofText? text).any isServer

def openError (text : String) : RedisOpenError := if isUsable text then .connection else .address

end RedisAddress

end HealthConsensus
