import HealthConsensus.Proofs.Registry.Creation

namespace HealthConsensus

namespace LatencyStats

def average (smoothing : Float) (smoothed sample : Duration) : Duration :=
  (Duration.ofFloat? (smoothing * sample.toFloat + (1 - smoothing) * smoothed.toFloat)).getD sample

def averageOf (smoothing : Float) : List Duration → Duration
  | [] => .zero
  | first :: later => later.foldl (average smoothing) first

def mostSamples : Nat := UInt64.size - 1

structure Reflects (smoothing : Float) (samples : List Duration) (s : LatencyStats) : Prop where
  count : s.samples.toNat = min mostSamples samples.length
  last : s.last = samples.getLast?.getD .zero
  smoothed : s.smoothed = averageOf smoothing samples

theorem averageOf_concat {smoothing : Float} {samples : List Duration} (h : samples ≠ [])
    (sample : Duration) : averageOf smoothing (samples ++ [sample]) =
      average smoothing (averageOf smoothing samples) sample := by
  cases samples with
  | nil => exact absurd rfl h
  | cons first later => exact List.foldl_concat _ _ _ _

theorem record_samples (smoothing : Float) (sample : Duration) (s : LatencyStats) :
    (s.record smoothing sample).samples.toNat = min mostSamples (s.samples.toNat + 1) := by
  have below := s.samples.toNat_lt
  change (if s.samples.toNat + 1 < 2 ^ 64 then s.samples + 1 else s.samples).toNat = _
  split
  · next room =>
    rw [UInt64.toNat_add, UInt64.toNat_one, mostSamples, UInt64.size]
    omega
  · next full =>
    rw [mostSamples, UInt64.size]
    omega

variable {smoothing : Float} {samples : List Duration} {s : LatencyStats}

theorem Reflects.samples_eq_zero_iff (h : s.Reflects smoothing samples) :
    s.samples = 0 ↔ samples = [] := by
  rw [← UInt64.toNat_inj, h.count, mostSamples, UInt64.size, ← List.length_eq_zero_iff]
  change _ = 0 ↔ _
  omega

theorem Reflects.record (h : s.Reflects smoothing samples) (sample : Duration) :
    (s.record smoothing sample).Reflects smoothing (samples ++ [sample]) where
  count := by
    rw [record_samples, h.count, List.length_append, List.length_singleton]
    omega
  last := by simp [LatencyStats.record]
  smoothed := by
    by_cases first : samples = []
    · have none : s.samples = 0 := h.samples_eq_zero_iff.2 first
      rw [first]
      exact if_pos none
    · have some : s.samples ≠ 0 := fun none => first (h.samples_eq_zero_iff.1 none)
      rw [averageOf_concat first, ← h.smoothed]
      exact if_neg some

theorem reflects_foldl (smoothing : Float) (samples : List Duration) :
    Reflects smoothing samples
      (samples.foldl (fun s sample => s.record smoothing sample) default) := by
  -- from the end, as a sample is recorded after all those before it
  induction samples using List.reverseRecOn with
  | nil => exact ⟨rfl, rfl, rfl⟩
  | append_singleton samples sample ih =>
    rw [List.foldl_concat]
    exact ih.record sample

theorem Reflects.smoothed_of_one (h : s.Reflects smoothing samples) (one : s.samples = 1) :
    s.smoothed = s.last := by
  have single : samples.length = 1 := by
    have count := h.count
    rw [one, mostSamples, UInt64.size, UInt64.toNat_one] at count
    omega
  obtain ⟨sample, rfl⟩ := List.length_eq_one_iff.1 single
  rw [h.smoothed, h.last]
  rfl

end LatencyStats

namespace RegistryStep

variable {p : RegistryPolicy} {k : BackendKey} {b b' : Backend} {s : RegistryStep}

theorem sample?_eq_some_iff {sample : Duration} : s.sample? k = some sample ↔
    ∃ error, s.call = .validate k true error sample ∧ .zero < sample := by
  have positive (d : Duration) : d.isZero = false ↔ .zero < d := by
    rw [Duration.isZero, beq_eq_false_iff_ne, ← Nat.pos_iff_ne_zero]
    rfl
  obtain ⟨now, order, call⟩ := s
  cases call with
  | validate k' healthy error latency =>
    simp only [sample?, Option.ite_none_right_eq_some, Option.some.injEq, Bool.and_eq_true,
      Bool.not_eq_true', positive, RegistryCall.validate.injEq]
    constructor
    · rintro ⟨⟨rfl, rfl, some⟩, rfl⟩
      exact ⟨error, ⟨rfl, rfl, rfl, rfl⟩, some⟩
    · rintro ⟨_, ⟨rfl, rfl, rfl, rfl⟩, some⟩
      exact ⟨⟨rfl, rfl, some⟩, rfl⟩
  | _ => simp [sample?]

theorem onRecord_latency (h : s.onRecord p k (some b) = some b') (unsampled : s.sample? k = none) :
    b'.latency = b.latency := by
  obtain ⟨now, order, call⟩ := s
  rw [onRecord] at h
  cases call with
  | register r =>
    rw [RegistryCall.onRecord] at h
    split at h <;> cases h <;> rfl
  | deregister k' =>
    rw [RegistryCall.onRecord] at h
    split at h <;> cases h
    rfl
  | validate k' healthy error latency =>
    rw [RegistryCall.onRecord] at h
    split at h
    · next own =>
      have bad : ¬(healthy && !latency.isZero) = true := fun good =>
        Option.some_ne_none _ ((if_pos ⟨own, good⟩).symm.trans unsampled)
      cases h
      exact if_neg bad
    · cases h
      rfl
  | setOverride k' healthy reason operator =>
    rw [RegistryCall.onRecord] at h
    split at h <;> cases h <;> rfl
  | clearOverride k' =>
    rw [RegistryCall.onRecord] at h
    split at h
    · obtain ⟨b, there, rfl⟩ := Option.map_eq_some_iff.1 h
      cases there
      split <;> rfl
    · cases h
      rfl
  | drain agentId signal =>
    rw [RegistryCall.onRecord] at h
    obtain ⟨b, there, rfl⟩ := Option.map_eq_some_iff.1 h
    cases there
    split <;> rfl
  | sweep =>
    obtain ⟨b, there, -, rfl⟩ := RegistryCall.onRecord_sweep h
    cases there
    rfl

end RegistryStep

namespace Chronicle

variable {p : RegistryPolicy} {k : BackendKey} {b : Backend}

theorem reflects_record? {steps : List RegistryStep} (h : record? p k steps.reverse = some b) :
    b.latency.Reflects p.smoothing (steps.filterMap (RegistryStep.sample? k)) := by
  obtain ⟨⟨r, heard⟩, -, h⟩ := Option.bind_eq_some_iff.1 h
  obtain ⟨judged, -, h⟩ := Option.bind_eq_some_iff.1 h
  cases h
  have oldestFirst : (described p k steps.reverse r heard).latency =
      (steps.filterMap (RegistryStep.sample? k)).foldl
        (fun s sample => s.record p.smoothing sample) default := by
    rw [described, samples, List.filterMap_reverse, List.foldr_reverse]
  exact oldestFirst ▸ LatencyStats.reflects_foldl _ _

end Chronicle

theorem LatencyStats.foldl_most (ss : List LatencyStats) (first : LatencyStats) :
    let most := ss.foldl (fun best s => if best.samples ≤ s.samples then s else best) first
    (most = first ∨ most ∈ ss) ∧ first.samples ≤ most.samples ∧
      ∀ s ∈ ss, s.samples ≤ most.samples := by
  induction ss generalizing first with
  | nil => exact ⟨.inl rfl, UInt64.le_refl _, nofun⟩
  | cons s ss ih =>
    rw [List.foldl_cons]
    split
    · next more =>
      obtain ⟨found, start, rest⟩ := ih s
      refine ⟨.inr (List.mem_cons.2 found), UInt64.le_trans more start, ?_⟩
      exact List.forall_mem_cons.2 ⟨start, rest⟩
    · next fewer =>
      obtain ⟨found, start, rest⟩ := ih first
      have less : s.samples ≤ first.samples := (UInt64.le_total _ _).resolve_left fewer
      refine ⟨found.imp_right (List.mem_cons_of_mem s), start, ?_⟩
      exact List.forall_mem_cons.2 ⟨UInt64.le_trans less start, rest⟩

namespace Registry

variable {p : RegistryPolicy} {k : BackendKey} {b : Backend} {r : Registry} {address : String}
  {port : UInt16}

def IsAt (r : Registry) (address : String) (port : UInt16) (b : Backend) : Prop :=
  (∃ k, r.get? k = some b) ∧ b.address = address ∧ b.port = port

theorem mem_atAddress : b ∈ r.atAddress address port ↔ r.IsAt address port b := by
  simp [atAddress, IsAt, mem_values]

theorem samples_le_latency (h : r.IsAt address port b) :
    b.latency.samples ≤ (r.latency address port).samples :=
  (LatencyStats.foldl_most _ default).2.2 _ (List.mem_map_of_mem (mem_atAddress.2 h))

theorem latency_of_hasData (h : (r.latency address port).hasData = true) :
    ∃ b, r.IsAt address port b ∧ b.latency = r.latency address port := by
  rcases (LatencyStats.foldl_most ((r.atAddress address port).map Backend.latency) default).1 with
    none | some
  · have empty : r.latency address port = default := none
    rw [empty] at h
    cases h
  · obtain ⟨b, there, same⟩ := List.mem_map.1 some
    exact ⟨b, mem_atAddress.1 there, same⟩

theorem latency_hasData_iff : (r.latency address port).hasData = true ↔
    ∃ b, r.IsAt address port b ∧ b.latency.hasData = true := by
  constructor
  · intro data
    obtain ⟨b, there, same⟩ := latency_of_hasData data
    exact ⟨b, there, same ▸ data⟩
  · rintro ⟨b, there, data⟩
    have some : 0 < b.latency.samples := of_decide_eq_true data
    exact decide_eq_true (UInt64.lt_of_lt_of_le some (samples_le_latency there))

/-- A backend's latency is that of the good samples since its creation, no other step changes it,
and an endpoint shows the latency of a backend there that has the most samples. -/
theorem latency_counts_good_samples (p : RegistryPolicy) :
    (∀ (s : RegistryStep) k sample, s.sample? k = some sample ↔
      ∃ error, s.call = .validate k true error sample ∧ .zero < sample) ∧
    (∀ steps k b, (history p steps .empty).state.get? k = some b →
      ∃ before s after, steps = before ++ s :: after ∧
        (history p before .empty).state.get? k = none ∧
        (∀ l, l <+: after → (history p (before ++ s :: l) .empty).state.get? k ≠ none) ∧
        b.latency.Reflects p.smoothing ((s :: after).filterMap (RegistryStep.sample? k)) ∧
        (b.latency.samples = 1 → b.latency.smoothed = b.latency.last)) ∧
    (∀ (s : RegistryStep) k, s.sample? k = none → ∀ (r : Registry) b b', r.get? k = some b →
      (step p s r).state.get? k = some b' → b'.latency = b.latency) ∧
    ∀ (r : Registry) address port,
      ((r.latency address port).hasData = true ↔
        ∃ b, r.IsAt address port b ∧ b.latency.hasData = true) ∧
      ((r.latency address port).hasData = true →
        ∃ b, r.IsAt address port b ∧ r.latency address port = b.latency ∧
          ∀ b', r.IsAt address port b' → b'.latency.samples ≤ b.latency.samples) := by
  refine ⟨fun s k sample => RegistryStep.sample?_eq_some_iff, fun steps k b found => ?_,
    fun s k unsampled r b b' found after => ?_,
    fun r address port => ⟨latency_hasData_iff, fun data => ?_⟩⟩
  · obtain ⟨before, s, after, split, absent, present, recounted⟩ := history_created steps b found
    have figures := Chronicle.reflects_record? recounted
    exact ⟨before, s, after, split, absent, present, figures, figures.smoothed_of_one⟩
  · rw [step_get?, found] at after
    exact RegistryStep.onRecord_latency after unsampled
  · obtain ⟨b, there, same⟩ := latency_of_hasData data
    exact ⟨b, there, same.symm, fun b' there' => same ▸ samples_le_latency there'⟩

def measured : BackendKey := ⟨"web", "10.0.0.1", 80⟩

def sameEndpoint : BackendKey := ⟨"api", "10.0.0.1", 80⟩

def failedProbe : RegistryStep :=
  ⟨atSecond 9, .unchanged, .validate measured false (some "refused") (.ofMilliseconds 7)⟩

def measuredSteps : List RegistryStep :=
  [⟨atSecond 1, .unchanged, .register ⟨"a1", "eu", "web", "10.0.0.1", 80, 100, true⟩⟩,
    ⟨atSecond 2, .unchanged, .validate measured true none (.ofMilliseconds 5)⟩,
    ⟨atSecond 3, .unchanged, .register ⟨"a1", "eu", "api", "10.0.0.1", 80, 100, true⟩⟩,
    ⟨atSecond 4, .unchanged, .deregister measured⟩,
    ⟨atSecond 5, .unchanged, .register ⟨"a2", "us", "web", "10.0.0.1", 80, 50, true⟩⟩,
    ⟨atSecond 6, .backwards, .validate measured true none .zero⟩,
    ⟨atSecond 6, .unchanged, .validate measured true none (.ofMilliseconds 20)⟩,
    ⟨atSecond 7, .unchanged, .validate sameEndpoint true none (.ofMilliseconds 30)⟩,
    ⟨atSecond 7, .unchanged, .validate sameEndpoint true none (.ofMilliseconds 10)⟩,
    ⟨atSecond 8, .unchanged, .register ⟨"a1", "eu", "web", "10.0.0.1", 80, 10, true⟩⟩,
    ⟨atSecond 8, .backwards, .sweep⟩]

def measuredRegistry : Registry := (history defaultPolicy measuredSteps .empty).state

theorem latency_after_recreation :
    ∃ b b' c : Backend, measuredRegistry.get? measured = some b ∧
      b.latency.samples = 1 ∧ b.latency.last = .ofMilliseconds 20 ∧
      b.latency.smoothed = .ofMilliseconds 20 ∧
      (step defaultPolicy failedProbe measuredRegistry).state.get? measured = some b' ∧
      b'.latency = b.latency ∧
      measuredRegistry.IsAt "10.0.0.1" 80 c ∧ measuredRegistry.latency "10.0.0.1" 80 = c.latency ∧
      c.latency.samples = 2 ∧ b.latency.samples ≤ c.latency.samples := by
  obtain ⟨-, counted, kept, endpoints⟩ := latency_counts_good_samples defaultPolicy
  have figures : (measuredRegistry.get? measured).map
      (fun b => (b.latency.samples, b.latency.last, b.address, b.port)) =
        some (1, .ofMilliseconds 20, "10.0.0.1", 80) := by decide +kernel
  obtain ⟨b, found, shown⟩ := Option.map_eq_some_iff.1 figures
  simp only [Prod.mk.injEq] at shown
  obtain ⟨one, last, address, port⟩ := shown
  obtain ⟨_, _, _, -, -, -, -, single⟩ := counted measuredSteps measured b found
  have after : ((step defaultPolicy failedProbe measuredRegistry).state.get? measured).isSome =
      true := by decide +kernel
  obtain ⟨b', found'⟩ := Option.isSome_iff_exists.1 after
  have two : (measuredRegistry.latency "10.0.0.1" 80).samples = 2 := by decide +kernel
  obtain ⟨-, most⟩ := endpoints measuredRegistry "10.0.0.1" 80
  obtain ⟨c, there, same, others⟩ := most (decide_eq_true (two ▸ by decide))
  exact ⟨b, b', c, found, one, last, (single one).trans last, found',
    kept failedProbe measured rfl measuredRegistry b b' found found', there, same, same ▸ two,
    others b ⟨⟨measured, found⟩, address, port⟩⟩

end Registry

end HealthConsensus
