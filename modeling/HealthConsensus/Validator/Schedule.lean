import HealthConsensus.Registry.Update
import HealthConsensus.Validator.Basic

namespace HealthConsensus

namespace Schedule

def firstEnd (ends : List Nat) : Nat := ends.foldl min (ends.headD 0)

/-- When the last of some jobs ends, each started in its turn as soon as one of so many workers is
free; `ends` holds the ends of those at work. -/
def lastEnd (workers start : Nat) (ends : List Nat) : List Nat → Nat
  | [] => ends.foldl max start
  | job :: jobs =>
    if ends.length < workers then lastEnd workers start ((start + job) :: ends) jobs
    else
      let free := firstEnd ends
      lastEnd workers free ((free + job) :: ends.erase free) jobs

def slack : Nat := 5_000_000

def nextDue (period due start : Nat) : Nat := (if start ≤ due + slack then due else start) + period

def bound (period ending : Nat) : Nat := ending / max period 1 + 1

end Schedule

namespace Validator

open Operation

variable (p : RegistryPolicy) (now : Instant) (script : Script) (s : ValidatorSettings)

def workers : Nat := max s.maxConcurrent.toNat 1

def sweepTime (bs : List Backend) : Nat :=
  Schedule.lastEnd (workers s) 0 []
    (bs.map fun b => ((script (b.target s)).time s.timeout).nanoseconds)

def rounds (ending : Nat) : Nat → Nat → Nat → Operation Registry (List Target)
  | 0, _, _ => return []
  | fuel + 1, due, start => do
    if ending ≤ start then return []
    let bs := (← state).all
    let _ ← sweep p now script s
    let due := Schedule.nextDue s.interval.nanoseconds due start
    let later ← rounds ending fuel due (max due (start + sweepTime script s bs))
    return bs.map (Backend.target s) ++ later

def started (checker : String) : LogLine :=
  .info "Validator started" [("interval", s.interval.text), ("timeout", s.timeout.text),
    ("max_concurrent", toString s.maxConcurrent.toNat), ("checker", checker)]

def run (checker : String) (time : Duration) : Operation Registry (List Target) := do
  if s.enabled then
    log (started s checker)
    let targets ← rounds p now script s time.nanoseconds
      (Schedule.bound s.interval.nanoseconds time.nanoseconds) 0 0
    log (.info "Validator shutting down" [])
    return targets
  else
    log (.info "External validation disabled" [])
    return []

end Validator

namespace Sweeper

open Operation

def period (p : RegistryPolicy) : Duration :=
  .ofNanoseconds (max (p.staleAfter.nanoseconds / 2) 1_000_000_000)

structure MovedClock where
  start : Instant
  moves : List (Nat × Duration)

def MovedClock.at (c : MovedClock) (time : Nat) : Instant :=
  (c.moves.filter fun m => m.1 ≤ time).foldl (fun t m => t.advance m.2) c.start

variable (p : RegistryPolicy) (clock : MovedClock)

def rounds (ending : Nat) : Nat → Nat → Operation Registry (List (Nat × StatusChange))
  | 0, _ => return []
  | fuel + 1, start => do
    if ending ≤ start then return []
    let changes ← (Registry.sweep p (clock.at start)).announced
    let later ← rounds ending fuel (start + (period p).nanoseconds)
    return changes.map (start, ·) ++ later

def run (time : Duration) : Operation Registry (List (Nat × StatusChange)) := do
  log (.info "Stale sweeper started" [("interval", (period p).text)])
  let changes ← rounds p clock time.nanoseconds
    (Schedule.bound (period p).nanoseconds time.nanoseconds) 0
  log (.info "Stale sweeper shutting down" [])
  return changes

end Sweeper

end HealthConsensus
