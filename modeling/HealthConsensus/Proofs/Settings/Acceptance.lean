import HealthConsensus.Node.Facilities
import HealthConsensus.Proofs.Settings.Environment

namespace HealthConsensus

section Checks

variable {ε α : Type}

theorem ite_error_eq_ok_iff {c : Prop} [Decidable c] {e : ε} {x : Except ε α} {a : α} :
    (if c then .error e else x) = .ok a ↔ ¬c ∧ x = .ok a := by
  split
  · next fails => exact ⟨fun h => (nomatch h), fun h => absurd fails h.1⟩
  · next passes => exact ⟨fun h => ⟨passes, h⟩, And.right⟩

theorem map_unit_eq_ok_iff {x : Except ε α} :
    (x.map fun _ => ()) = .ok () ↔ ∃ a, x = .ok a := by
  cases x with
  | error e => exact ⟨fun h => (nomatch h), fun ⟨_, h⟩ => (nomatch h)⟩
  | ok a => exact ⟨fun _ => ⟨a, rfl⟩, fun _ => rfl⟩

end Checks

namespace Places

variable {n : Nat}

theorem of?_of_le (low : 0 < n) (high : n ≤ most) : of? n = some ⟨n, low, high⟩ :=
  dif_pos ⟨low, high⟩

theorem of?_of_gt (h : most < n) : of? n = none := dif_neg fun fit => Nat.not_le.2 h fit.2

end Places

theorem Period.of?_of_pos {d : Duration} (h : 0 < d.nanoseconds) : of? d = some ⟨d, h⟩ := dif_pos h

theorem Duration.nanoseconds_ofSeconds (n : UInt64) :
    (Duration.ofSeconds n.toNat).nanoseconds = n.toNat * 1_000_000_000 := by
  have bound := n.toNat_lt
  simp only [ofSeconds, ofNanoseconds]
  omega

theorem Sweeper.period_positive (p : RegistryPolicy) : 0 < (period p).nanoseconds := by
  simp only [period, Duration.ofNanoseconds]
  omega

namespace Settings

variable {s : Settings}

structure Accepted (s : Settings) : Prop where
  stale : s.registry.staleSeconds ≠ 0
  remove : s.registry.staleSeconds < s.registry.removeSeconds
  smoothing : 0 < s.registry.smoothing ∧ s.registry.smoothing ≤ 1
  interval : s.validator.intervalSeconds ≠ 0
  timeout : s.validator.timeoutSeconds ≠ 0
  checks : s.validator.maxConcurrent ≠ 0
  messages : s.gossip.queueCapacity ≠ 0
  key : ∃ k, s.gossip.key = .ok k

theorem validate_eq_ok_iff : s.validate = .ok () ↔ s.Accepted := by
  simp only [validate, ite_error_eq_ok_iff, map_unit_eq_ok_iff]
  constructor
  · rintro ⟨stale, remove, smoothing, times, checks, messages, key⟩
    obtain ⟨interval, timeout⟩ : s.validator.intervalSeconds ≠ 0 ∧
        s.validator.timeoutSeconds ≠ 0 := by simpa using times
    exact ⟨stale, UInt64.not_le.1 remove, by simpa using smoothing, interval, timeout, checks,
      messages, key⟩
  · intro h
    exact ⟨h.stale, UInt64.not_le.2 h.remove, by simpa using h.smoothing,
      by simpa using ⟨h.interval, h.timeout⟩, h.checks, h.messages, h.key⟩

structure Provides (s : Settings) (f : Facilities) : Prop where
  checks : f.checks.count = s.validator.maxConcurrent.toNat
  sweeps : f.sweeps.time = Sweeper.period s.registry.policy
  rounds : f.rounds.map Period.time =
    if s.validator.enabled then some s.validator.interval else none
  messages : f.messages.count = s.gossip.queueCapacity.toNat

namespace Accepted

variable (h : s.Accepted)
include h

theorem checks_positive : 0 < s.validator.maxConcurrent.toNat :=
  UInt64.lt_iff_toNat_lt.1 (UInt64.pos_iff_ne_zero.2 h.checks)

theorem messages_positive : 0 < s.gossip.queueCapacity.toNat :=
  UInt64.lt_iff_toNat_lt.1 (UInt64.pos_iff_ne_zero.2 h.messages)

theorem places : Validator.places? s.validator = Places.of? s.validator.maxConcurrent.toNat := by
  rw [Validator.places?, Validator.workers, Nat.max_eq_left h.checks_positive]

theorem interval_positive : 0 < s.validator.interval.nanoseconds := by
  have seconds : 0 < s.validator.intervalSeconds.toNat :=
    UInt64.lt_iff_toNat_lt.1 (UInt64.pos_iff_ne_zero.2 h.interval)
  rw [ValidatorSettings.interval, Duration.nanoseconds_ofSeconds]
  omega

theorem facilities_eq : ∃ (sweeps : Period) (rounds : Option Period),
    sweeps.time = Sweeper.period s.registry.policy ∧
      rounds.map Period.time =
        (if s.validator.enabled then some s.validator.interval else none) ∧
      s.facilities = do
        let checks ← Facility.checks.demand (Places.of? s.validator.maxConcurrent.toNat)
        let messages ← Facility.messages.demand (Places.of? s.gossip.queueCapacity.toNat)
        return ⟨checks, sweeps, rounds, messages⟩ := by
  have sweeps := Period.of?_of_pos (Sweeper.period_positive s.registry.policy)
  have rounds := Period.of?_of_pos h.interval_positive
  cases enabled : s.validator.enabled with
  | true =>
    refine ⟨⟨_, Sweeper.period_positive _⟩, some ⟨_, h.interval_positive⟩, rfl, rfl, ?_⟩
    rw [facilities, h.places, sweeps, rounds, enabled]
    rfl
  | false =>
    refine ⟨⟨_, Sweeper.period_positive _⟩, none, rfl, rfl, ?_⟩
    rw [facilities, h.places, sweeps, enabled]
    rfl

theorem facilities_of_fit (checks : s.validator.maxConcurrent.toNat ≤ Places.most)
    (messages : s.gossip.queueCapacity.toNat ≤ Places.most) :
    ∃ f, s.facilities = .ok f ∧ s.Provides f := by
  obtain ⟨sweeps, rounds, own, others, same⟩ := h.facilities_eq
  rw [Places.of?_of_le h.checks_positive checks, Places.of?_of_le h.messages_positive messages]
    at same
  exact ⟨_, same, rfl, own, others, rfl⟩

theorem facilities_of_many_checks (many : Places.most < s.validator.maxConcurrent.toNat) :
    s.facilities = .error .checks := by
  obtain ⟨sweeps, rounds, -, -, same⟩ := h.facilities_eq
  rw [Places.of?_of_gt many] at same
  exact same

theorem facilities_of_long_queue (checks : s.validator.maxConcurrent.toNat ≤ Places.most)
    (long : Places.most < s.gossip.queueCapacity.toNat) : s.facilities = .error .messages := by
  obtain ⟨sweeps, rounds, -, -, same⟩ := h.facilities_eq
  rw [Places.of?_of_le h.checks_positive checks, Places.of?_of_gt long] at same
  exact same

theorem smoothing_kept : s.registry.policy.smoothing = s.registry.smoothing :=
  if_pos (by simpa using h.smoothing)

theorem stale_before_removed : s.registry.policy.staleAfter < s.registry.policy.removeAfter := by
  have less := UInt64.lt_iff_toNat_lt.1 h.remove
  change (Duration.ofSeconds _).nanoseconds < (Duration.ofSeconds _).nanoseconds
  rw [Duration.nanoseconds_ofSeconds, Duration.nanoseconds_ofSeconds]
  omega

end Accepted

/-- Accepted settings are taken as they stand, and all is set up in the sizes that they give. Only a
size that is too great, with which they are accepted as well, cannot be had. -/
theorem accepted_honoured (s : Settings) (h : s.validate = .ok ()) :
    (s.validator.maxConcurrent.toNat ≤ Places.most → s.gossip.queueCapacity.toNat ≤ Places.most →
      ∃ f, s.facilities = .ok f ∧ s.Provides f) ∧
    (Places.most < s.validator.maxConcurrent.toNat → s.facilities = .error .checks) ∧
    (s.validator.maxConcurrent.toNat ≤ Places.most → Places.most < s.gossip.queueCapacity.toNat →
      s.facilities = .error .messages) ∧
    0 < s.validator.maxConcurrent.toNat ∧ 0 < s.gossip.queueCapacity.toNat ∧
    0 < (Sweeper.period s.registry.policy).nanoseconds ∧ 0 < s.validator.interval.nanoseconds ∧
    s.registry.policy.smoothing = s.registry.smoothing ∧
    s.registry.policy.staleAfter < s.registry.policy.removeAfter := by
  have accepted := validate_eq_ok_iff.1 h
  exact ⟨accepted.facilities_of_fit, accepted.facilities_of_many_checks,
    accepted.facilities_of_long_queue, accepted.checks_positive, accepted.messages_positive,
    Sweeper.period_positive _, accepted.interval_positive, accepted.smoothing_kept,
    accepted.stale_before_removed⟩

def keyedSettings (checks messages : UInt64) : Settings where
  validator := { maxConcurrent := checks }
  gossip := { encryptionKey := countingText, queueCapacity := messages }

theorem accepted_honoured_at_the_limit :
    (keyedSettings 0x1fffffffffffffff 0x1fffffffffffffff).validate = .ok () ∧
      (∃ f, (keyedSettings 0x1fffffffffffffff 0x1fffffffffffffff).facilities = .ok f ∧
        f.checks.count = Places.most ∧ f.messages.count = Places.most) ∧
      (keyedSettings 0x2000000000000000 1).facilities = .error .checks ∧
      (keyedSettings 1 0x2000000000000000).facilities = .error .messages := by
  have fit : (keyedSettings 0x1fffffffffffffff 0x1fffffffffffffff).validate = .ok () := by
    decide +kernel
  obtain ⟨provided, -⟩ := accepted_honoured _ fit
  obtain ⟨-, many, -⟩ := accepted_honoured (keyedSettings 0x2000000000000000 1) (by decide +kernel)
  obtain ⟨-, -, long, -⟩ := accepted_honoured (keyedSettings 1 0x2000000000000000)
    (by decide +kernel)
  obtain ⟨f, had, own⟩ := provided (by decide) (by decide)
  exact ⟨fit, ⟨f, had, own.checks, own.messages⟩, many (by decide), long (by decide) (by decide)⟩

theorem endless_sizes_accepted :
    let started (file : String) := (load (some file) [keyVariable] {}).toOption.map fun s =>
      (s.validate, s.facilities.map fun _ => ())
    started "[validator]\nmax_concurrent = 2305843009213693952\n" =
        some (.ok (), .error .checks) ∧
      started "[gossip]\nqueue_capacity = 2305843009213693952\n" =
        some (.ok (), .error .messages) := by
  decide +kernel

end Settings

end HealthConsensus
