import HealthConsensus.Proofs.Registry.Locality

/-!
Chronicles: the record under a key is what the steps since its last creation say, each part of it by
the last step that says something of it. Chronicles list the latest step first.
-/

namespace HealthConsensus

namespace RegistryStep

variable (k : BackendKey) (s : RegistryStep)

def registration? : Option (Registration × Instant) :=
  match s.call with
  | .register r => if r.key = k ∧ k.isRegistrable then some (r, s.now) else none
  | _ => none

def validation? : Option Validation :=
  match s.call with
  | .validate k' healthy error _ => if k' = k then some ⟨healthy, s.now, error⟩ else none
  | _ => none

def sample? : Option Duration :=
  match s.call with
  | .validate k' healthy _ latency =>
    if k' = k ∧ (healthy && !latency.isZero) = true then some latency else none
  | _ => none

def override? : Option (Option Override) :=
  match s.call with
  | .setOverride k' healthy reason operator =>
    if k' = k then some (some ⟨healthy, reason, operator, s.now⟩) else none
  | .clearOverride k' => if k' = k then some none else none
  | _ => none

def signal? (owner : Option String) : Option (Drain × Instant) :=
  match s.call with
  | .drain agentId signal => if owner = some agentId then some (signal, s.now) else none
  | _ => none

end RegistryStep

abbrev Chronicle := List RegistryStep

namespace Chronicle

def registration? (k : BackendKey) (c : Chronicle) : Option (Registration × Instant) :=
  c.findSome? (RegistryStep.registration? k)

def owner? (k : BackendKey) (c : Chronicle) : Option String :=
  (registration? k c).map fun e => e.1.agentId

def validation? (k : BackendKey) (c : Chronicle) : Option Validation :=
  c.findSome? (RegistryStep.validation? k)

def override? (k : BackendKey) (c : Chronicle) : Option Override :=
  (c.findSome? (RegistryStep.override? k)).join

def samples (k : BackendKey) (c : Chronicle) : List Duration :=
  c.filterMap (RegistryStep.sample? k)

def signals (k : BackendKey) : Chronicle → List (Drain × Instant)
  | [] => []
  | s :: earlier => (s.signal? (owner? k earlier)).toList ++ signals k earlier

def drainStart : List (Drain × Instant) → Option Instant
  | [] => none
  | (signal, now) :: earlier =>
    if signal.draining then some ((signal.since.or (drainStart earlier)).getD now) else none

def drain (signals : List (Drain × Instant)) : Drain :=
  match signals with
  | [] => .none
  | (signal, _) :: _ => { signal with since := drainStart signals }

def judges (k : BackendKey) (earlier : Chronicle) (s : RegistryStep) : Bool :=
  match s.call with
  | .register _ => (s.registration? k).isSome
  | .deregister _ => false
  | .validate k' _ _ _ => k' = k
  | .setOverride k' _ _ _ => k' = k
  | .clearOverride k' => k' = k && (override? k earlier).isSome
  | .drain agentId _ => owner? k earlier = some agentId
  | .sweep => true

def judgedAt (k : BackendKey) : Chronicle → Option Instant
  | [] => none
  | s :: earlier => if judges k earlier s then some s.now else judgedAt k earlier

def described (p : RegistryPolicy) (k : BackendKey) (c : Chronicle) (r : Registration)
    (heard : Instant) : Backend where
  service := k.service
  address := k.address
  port := k.port
  weight := r.weight
  agentId := r.agentId
  region := r.region
  agentHealthy := r.healthy
  lastSeen := heard
  validation := validation? k c
  override := override? k c
  drain := drain (signals k c)
  status := .healthy
  latency := (samples k c).foldr (LatencyStats.record p.smoothing) default

def record? (p : RegistryPolicy) (k : BackendKey) (c : Chronicle) : Option Backend := do
  let (r, heard) ← registration? k c
  let judged ← judgedAt k c
  return (described p k c r heard).refresh judged p.staleAfter

def ends (p : RegistryPolicy) (k : BackendKey) (c : Chronicle) (s : RegistryStep) : Bool :=
  match s.call with
  | .deregister k' => k' = k
  | .sweep => (registration? k c).any fun e => p.removeAfter < s.now.since e.2
  | _ => false

def extend (p : RegistryPolicy) (k : BackendKey) (c : Chronicle) (s : RegistryStep) : Chronicle :=
  if c.isEmpty then (if (s.registration? k).isSome then [s] else [])
  else if ends p k c s then []
  else s :: c

def sinceCreation (p : RegistryPolicy) (k : BackendKey) (steps : List RegistryStep) : Chronicle :=
  steps.foldl (extend p k) []

section Latest

variable (k : BackendKey) (s : RegistryStep) (c : Chronicle)

theorem registration?_cons :
    registration? k (s :: c) = (s.registration? k).or (registration? k c) := by
  rw [registration?, List.findSome?_cons]
  cases s.registration? k <;> rfl

theorem validation?_cons : validation? k (s :: c) = (s.validation? k).or (validation? k c) := by
  rw [validation?, List.findSome?_cons]
  cases s.validation? k <;> rfl

theorem override?_cons : override? k (s :: c) = (s.override? k).getD (override? k c) := by
  rw [override?, List.findSome?_cons]
  cases s.override? k <;> rfl

theorem samples_cons : samples k (s :: c) = (s.sample? k).toList ++ samples k c := by
  rw [samples, List.filterMap_cons]
  cases s.sample? k <;> rfl

theorem signals_cons :
    signals k (s :: c) = (s.signal? (owner? k c)).toList ++ signals k c := rfl

theorem drain_cons (signal : Drain) (now : Instant) (earlier : List (Drain × Instant)) :
    drain ((signal, now) :: earlier) = (drain earlier).after signal now := by
  have start : (drain earlier).since = drainStart earlier := by
    cases earlier <;> rfl
  rw [Drain.after, start]
  rfl

theorem judgedAt_cons :
    judgedAt k (s :: c) = if judges k c s then some s.now else judgedAt k c := rfl

end Latest

structure Living (k : BackendKey) (c : Chronicle) : Prop where
  registered : ∃ r heard, registration? k c = some (r, heard)
  judged : ∃ t, judgedAt k c = some t

variable {p : RegistryPolicy} {k : BackendKey} {c : Chronicle} {s : RegistryStep}

theorem record?_eq_some {r : Registration} {heard t : Instant}
    (registered : registration? k c = some (r, heard)) (judged : judgedAt k c = some t) :
    record? p k c = some ((described p k c r heard).refresh t p.staleAfter) := by
  simp [record?, registered, judged]

theorem described_cons (r : Registration) (heard : Instant) :
    described p k (s :: c) r heard =
      { described p k c r heard with
        validation := (s.validation? k).or (validation? k c)
        override := (s.override? k).getD (override? k c)
        drain := drain ((s.signal? (owner? k c)).toList ++ signals k c)
        latency := (s.sample? k).toList.foldr (LatencyStats.record p.smoothing)
          ((samples k c).foldr (LatencyStats.record p.smoothing) default) } := by
  rw [described, validation?_cons, override?_cons, samples_cons, signals_cons, List.foldr_append]
  rfl

structure Silent (k : BackendKey) (c : Chronicle) (s : RegistryStep) : Prop where
  registration : s.registration? k = none
  validation : s.validation? k = none
  sample : s.sample? k = none
  override : (s.override? k).getD (override? k c) = override? k c
  signal : s.signal? (owner? k c) = none
  judges : judges k c s = false

theorem Silent.record?_cons (h : Silent k c s) : record? p k (s :: c) = record? p k c := by
  have same (r : Registration) (heard : Instant) :
      described p k (s :: c) r heard = described p k c r heard := by
    rw [described_cons, h.validation, h.override, h.signal, h.sample]
    rfl
  have registered : registration? k (s :: c) = registration? k c := by
    rw [registration?_cons, h.registration, Option.none_or]
  have judged : judgedAt k (s :: c) = judgedAt k c := by
    rw [judgedAt_cons, h.judges, if_neg Bool.false_ne_true]
  simp only [record?, registered, judged, same]

theorem record?_of_judges {r : Registration} {heard : Instant} (judges : judges k c s = true)
    (registered : registration? k (s :: c) = some (r, heard)) :
    record? p k (s :: c) = some ((described p k (s :: c) r heard).refresh s.now p.staleAfter) := by
  apply record?_eq_some registered
  rw [judgedAt_cons, judges, if_pos rfl]

theorem record?_first (h : s.registration? k ≠ none) :
    record? p k [s] = s.onRecord p k none := by
  obtain ⟨now, order, call⟩ := s
  cases call with
  | register r =>
    have accepted : r.key = k ∧ k.isRegistrable = true := by
      by_contra refused
      exact h (if_neg refused)
    have registered : RegistryStep.registration? k ⟨now, order, .register r⟩ = some (r, now) :=
      if_pos accepted
    have judged : judges k [] ⟨now, order, .register r⟩ = true := Option.isSome_of_eq_some registered
    have heard : registration? k [⟨now, order, .register r⟩] = some (r, now) := by
      rw [registration?_cons, registered]
      rfl
    rw [record?_of_judges judged heard, RegistryStep.onRecord, RegistryCall.onRecord,
      if_pos accepted]
    obtain ⟨rfl, -⟩ := accepted
    rfl
  | _ => exact absurd rfl h

theorem onRecord_none (h : s.registration? k = none) : s.onRecord p k none = none := by
  obtain ⟨now, order, call⟩ := s
  cases call with
  | register r =>
    have refused : ¬(r.key = k ∧ k.isRegistrable = true) := by
      intro accepted
      have registered : RegistryStep.registration? k ⟨now, order, .register r⟩ = some (r, now) :=
        if_pos accepted
      cases h.symm.trans registered
    exact if_neg refused
  | _ => simp [RegistryStep.onRecord, RegistryCall.onRecord]

theorem onRecord_of_ends (h : ends p k c s = true) : s.onRecord p k (record? p k c) = none := by
  obtain ⟨now, order, call⟩ := s
  cases call with
  | deregister k' =>
    have own : k' = k := of_decide_eq_true h
    exact if_pos own
  | sweep =>
    obtain ⟨⟨r, heard⟩, registered, late⟩ := (Option.any_eq_true _ _).1 h
    have late : p.removeAfter < now.since heard := of_decide_eq_true late
    cases judged : judgedAt k c with
    | none =>
      have nothing : record? p k c = none := by simp [record?, registered, judged]
      rw [nothing]
      rfl
    | some t =>
      have expired : ((described p k c r heard).refresh t p.staleAfter).isExpired p now = true :=
        decide_eq_true late
      rw [record?_eq_some registered judged, RegistryStep.onRecord, RegistryCall.onRecord,
        Option.filter_some, expired]
      rfl
  | register _ => cases h
  | validate _ _ _ _ => cases h
  | setOverride _ _ _ _ => cases h
  | clearOverride _ => cases h
  | drain _ _ => cases h

theorem silent_of_refused {now : Instant} {order : Table.Arrangement BackendKey Backend}
    {r : Registration} (refused : ¬(r.key = k ∧ k.isRegistrable = true)) :
    Silent k c ⟨now, order, .register r⟩ := by
  have unsaid : RegistryStep.registration? k ⟨now, order, .register r⟩ = none := if_neg refused
  have unjudged : judges k c ⟨now, order, .register r⟩ = false :=
    Option.isSome_eq_false_iff.2 (Option.isNone_iff_eq_none.2 unsaid)
  exact ⟨unsaid, rfl, rfl, rfl, rfl, unjudged⟩

theorem silent_of_elsewhere {k' : BackendKey} (h : s.call.key? = some k') (other : k' ≠ k) :
    Silent k c s := by
  obtain ⟨now, order, call⟩ := s
  cases call with
  | register r =>
    cases h
    exact silent_of_refused fun accepted => other accepted.1
  | deregister k' => exact ⟨rfl, rfl, rfl, rfl, rfl, rfl⟩
  | validate k' healthy error latency =>
    cases h
    exact ⟨rfl, if_neg other, if_neg fun sample => other sample.1, rfl, rfl, decide_eq_false other⟩
  | setOverride k' healthy reason operator =>
    cases h
    have unsaid : RegistryStep.override? k ⟨now, order, .setOverride k' healthy reason operator⟩ =
      none := if_neg other
    exact ⟨rfl, rfl, rfl, by rw [unsaid]; rfl, rfl, decide_eq_false other⟩
  | clearOverride k' =>
    cases h
    have unsaid : RegistryStep.override? k ⟨now, order, .clearOverride k'⟩ = none := if_neg other
    exact ⟨rfl, rfl, rfl, by rw [unsaid]; rfl, rfl, by simp [judges, other]⟩
  | drain agentId signal => cases h
  | sweep => cases h

section Written

variable {now : Instant} {order : Table.Arrangement BackendKey Backend}

theorem record?_cons_register {x : Registration} (h : Living k c) :
    record? p k (⟨now, order, .register x⟩ :: c) =
      RegistryStep.onRecord p k (record? p k c) ⟨now, order, .register x⟩ := by
  obtain ⟨r, heard, registered⟩ := h.registered
  obtain ⟨t, judged⟩ := h.judged
  by_cases accepted : x.key = k ∧ k.isRegistrable = true
  · have said : RegistryStep.registration? k ⟨now, order, .register x⟩ = some (x, now) :=
      if_pos accepted
    have renewed : registration? k (⟨now, order, .register x⟩ :: c) = some (x, now) := by
      rw [registration?_cons, said]
      rfl
    have judges : judges k c ⟨now, order, .register x⟩ = true := Option.isSome_of_eq_some said
    rw [record?_of_judges judges renewed, record?_eq_some registered judged,
      RegistryStep.onRecord, RegistryCall.onRecord, if_pos accepted, described_cons]
    rfl
  · rw [(silent_of_refused accepted).record?_cons, RegistryStep.onRecord, RegistryCall.onRecord, if_neg accepted]

theorem record?_cons_validate {healthy : Bool} {error : Option String} {latency : Duration}
    (h : Living k c) :
    record? p k (⟨now, order, .validate k healthy error latency⟩ :: c) =
      RegistryStep.onRecord p k (record? p k c) ⟨now, order, .validate k healthy error latency⟩ := by
  obtain ⟨r, heard, registered⟩ := h.registered
  obtain ⟨t, judged⟩ := h.judged
  have judges : judges k c ⟨now, order, .validate k healthy error latency⟩ = true := by
    simp [judges]
  rw [record?_of_judges judges registered, record?_eq_some registered judged, described_cons,
    RegistryStep.onRecord, RegistryCall.onRecord, if_pos rfl]
  simp only [RegistryStep.validation?, RegistryStep.sample?, RegistryStep.override?,
    RegistryStep.signal?, Backend.validate, Option.map_some, if_pos, true_and]
  cases healthy && !latency.isZero <;> rfl

theorem record?_cons_setOverride {healthy : Bool} {reason operator : String} (h : Living k c) :
    record? p k (⟨now, order, .setOverride k healthy reason operator⟩ :: c) =
      RegistryStep.onRecord p k (record? p k c)
        ⟨now, order, .setOverride k healthy reason operator⟩ := by
  obtain ⟨r, heard, registered⟩ := h.registered
  obtain ⟨t, judged⟩ := h.judged
  have judges : judges k c ⟨now, order, .setOverride k healthy reason operator⟩ = true := by
    simp [judges]
  rw [record?_of_judges judges registered, record?_eq_some registered judged, described_cons,
    RegistryStep.onRecord, RegistryCall.onRecord, if_pos rfl]
  simp only [RegistryStep.override?, if_pos]
  rfl

theorem record?_cons_clearOverride (h : Living k c) :
    record? p k (⟨now, order, .clearOverride k⟩ :: c) =
      RegistryStep.onRecord p k (record? p k c) ⟨now, order, .clearOverride k⟩ := by
  obtain ⟨r, heard, registered⟩ := h.registered
  obtain ⟨t, judged⟩ := h.judged
  have cleared : RegistryStep.override? k ⟨now, order, .clearOverride k⟩ = some none := if_pos rfl
  -- clearing what was never set does not judge the record anew
  cases overruled : override? k c with
  | some o =>
    have judges : judges k c ⟨now, order, .clearOverride k⟩ = true := by simp [judges, overruled]
    rw [record?_of_judges judges registered, record?_eq_some registered judged, described_cons,
      cleared, RegistryStep.onRecord, RegistryCall.onRecord, if_pos rfl, Option.map_some, if_pos]
    · rfl
    · exact Option.isSome_of_eq_some overruled
  | none =>
    have silent : Silent k c ⟨now, order, .clearOverride k⟩ :=
      ⟨rfl, rfl, rfl, by rw [cleared, overruled]; rfl, rfl, by simp [judges, overruled]⟩
    rw [silent.record?_cons, record?_eq_some registered judged, RegistryStep.onRecord,
      RegistryCall.onRecord, if_pos rfl, Option.map_some, if_neg]
    simp [Backend.refresh, described, overruled]

theorem record?_cons_drain {agentId : String} {signal : Drain} (h : Living k c) :
    record? p k (⟨now, order, .drain agentId signal⟩ :: c) =
      RegistryStep.onRecord p k (record? p k c) ⟨now, order, .drain agentId signal⟩ := by
  obtain ⟨r, heard, registered⟩ := h.registered
  obtain ⟨t, judged⟩ := h.judged
  have owner : owner? k c = some r.agentId := by rw [owner?, registered]; rfl
  by_cases own : r.agentId = agentId
  · have judges : judges k c ⟨now, order, .drain agentId signal⟩ = true := by
      simp [judges, owner, own]
    have signalled : RegistryStep.signal? ⟨now, order, .drain agentId signal⟩ (owner? k c) =
        some (signal, now) := by simp [RegistryStep.signal?, owner, own]
    rw [record?_of_judges judges registered, record?_eq_some registered judged, described_cons,
      signalled, Option.toList_some, List.singleton_append, drain_cons]
    exact congrArg some (if_pos own).symm
  · have unsaid : RegistryStep.signal? ⟨now, order, .drain agentId signal⟩ (owner? k c) = none := by
      simp [RegistryStep.signal?, owner, own]
    have silent : Silent k c ⟨now, order, .drain agentId signal⟩ :=
      ⟨rfl, rfl, rfl, rfl, unsaid, by simp [judges, owner, own]⟩
    rw [silent.record?_cons, record?_eq_some registered judged]
    exact congrArg some (if_neg own).symm

theorem record?_cons_sweep (h : Living k c) (stays : ends p k c ⟨now, order, .sweep⟩ = false) :
    record? p k (⟨now, order, .sweep⟩ :: c) =
      RegistryStep.onRecord p k (record? p k c) ⟨now, order, .sweep⟩ := by
  obtain ⟨r, heard, registered⟩ := h.registered
  obtain ⟨t, judged⟩ := h.judged
  have recent : ((described p k c r heard).refresh t p.staleAfter).isExpired p now = false := by
    rw [ends, registered] at stays
    exact stays
  rw [record?_of_judges rfl registered, record?_eq_some registered judged, described_cons,
    RegistryStep.onRecord, RegistryCall.onRecord, Option.filter_some, recent]
  rfl

end Written

theorem record?_cons (h : Living k c) (stays : ends p k c s = false) :
    record? p k (s :: c) = s.onRecord p k (record? p k c) := by
  by_cases elsewhere : ∃ k', s.call.key? = some k' ∧ k' ≠ k
  · obtain ⟨k', keyed, other⟩ := elsewhere
    rw [(silent_of_elsewhere keyed other).record?_cons]
    exact (RegistryCall.onRecord_elsewhere keyed other).symm
  · obtain ⟨now, order, call⟩ := s
    cases call with
    | register x => exact record?_cons_register h
    | deregister k' =>
      have own : k' = k := by simpa [RegistryCall.key?] using elsewhere
      exact absurd own (of_decide_eq_false stays)
    | validate k' healthy error latency =>
      obtain rfl : k' = k := by simpa [RegistryCall.key?] using elsewhere
      exact record?_cons_validate h
    | setOverride k' healthy reason operator =>
      obtain rfl : k' = k := by simpa [RegistryCall.key?] using elsewhere
      exact record?_cons_setOverride h
    | clearOverride k' =>
      obtain rfl : k' = k := by simpa [RegistryCall.key?] using elsewhere
      exact record?_cons_clearOverride h
    | drain agentId signal => exact record?_cons_drain h
    | sweep => exact record?_cons_sweep h stays

end Chronicle

end HealthConsensus
