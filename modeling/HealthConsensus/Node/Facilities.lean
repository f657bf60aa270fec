import HealthConsensus.Node.Basic
import HealthConsensus.Validator.Schedule

namespace HealthConsensus

def Places.most : Nat := 0xffffffffffffffff >>> 3

structure Places where
  count : Nat
  positive : 0 < count
  inRange : count ≤ Places.most

def Places.of? (n : Nat) : Option Places :=
  if h : 0 < n ∧ n ≤ most then some ⟨n, h.1, h.2⟩ else none

structure Period where
  time : Duration
  positive : 0 < time.nanoseconds

def Period.of? (d : Duration) : Option Period :=
  if h : 0 < d.nanoseconds then some ⟨d, h⟩ else none

inductive Facility where
  | checks
  | sweeps
  | rounds
  | messages
deriving DecidableEq, Repr

def Facility.demand {α : Type} (f : Facility) : Option α → Except Facility α
  | some a => .ok a
  | none => .error f

structure Facilities where
  checks : Places
  sweeps : Period
  rounds : Option Period
  messages : Places

def Validator.places? (s : ValidatorSettings) : Option Places := Places.of? (workers s)

def Settings.facilities (s : Settings) : Except Facility Facilities := do
  let checks ← Facility.checks.demand (Validator.places? s.validator)
  let sweeps ← Facility.sweeps.demand (Period.of? (Sweeper.period s.registry.policy))
  let rounds ←
    if s.validator.enabled then
      some <$> Facility.rounds.demand (Period.of? s.validator.interval)
    else .ok none
  let messages ← Facility.messages.demand (Places.of? s.gossip.queueCapacity.toNat)
  return ⟨checks, sweeps, rounds, messages⟩

end HealthConsensus
