import HealthConsensus.Text.Basic
import HealthConsensus.Time.Duration

namespace HealthConsensus

structure Target where
  address : String
  port : UInt16
  scheme : String
  path : String
  timeout : Duration
deriving DecidableEq, Repr

def Target.hostPort (t : Target) : String :=
  let port := ":" ++ toString t.port.toNat
  if t.address.toList.contains ':' && !startsWith "[" t.address then "[" ++ t.address ++ "]" ++ port
  else t.address ++ port

structure Verdict where
  healthy : Bool
  latency : Duration
  error : Option String
deriving DecidableEq, Repr

namespace Verdict

def good (latency : Duration) : Verdict := ⟨true, latency, none⟩

def bad (latency : Duration) (error : String) : Verdict := ⟨false, latency, some error⟩

def overdueStart : String := "check timed out"

def overdue (timeout : Duration) : Verdict :=
  bad timeout (overdueStart ++ " after " ++ timeout.text)

def isOverdue (v : Verdict) : Bool := v.error.any (startsWith overdueStart)

end Verdict

structure ScriptedCheck where
  delay : Duration
  verdict : Verdict
  crashes : Bool
  removesBackends : Bool

namespace ScriptedCheck

def usualLatency : Duration := .ofMilliseconds 12

def usual : ScriptedCheck := ⟨.zero, .good usualLatency, false, false⟩

instance : Inhabited ScriptedCheck := ⟨usual⟩

def isOverdue (timeout : Duration) (c : ScriptedCheck) : Bool := decide (timeout < c.delay)

def time (timeout : Duration) (c : ScriptedCheck) : Duration :=
  if c.isOverdue timeout then timeout else c.delay

def verdict? (timeout : Duration) (c : ScriptedCheck) : Option Verdict :=
  if c.isOverdue timeout then some (.overdue timeout)
  else if c.crashes then none
  else some c.verdict

def removes (timeout : Duration) (c : ScriptedCheck) : Bool :=
  c.removesBackends && !c.isOverdue timeout && !c.crashes

end ScriptedCheck

end HealthConsensus
