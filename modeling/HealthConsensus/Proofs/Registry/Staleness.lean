import HealthConsensus.Proofs.Registry.Locality
import HealthConsensus.Proofs.Time.Order

namespace HealthConsensus

namespace Backend

variable {p : RegistryPolicy} {b b' : Backend} {since now t : Instant}

structure OnClaim (b : Backend) : Prop where
  override : b.override = none
  drain : b.drain.draining = false
  validation : b.validation = none

structure Lags (p : RegistryPolicy) (now : Instant) (b : Backend) : Prop where
  onClaim : b.OnClaim
  silent : p.staleAfter < b.heartbeatAge now
  claimed : b.status = .ofVerdict b.agentHealthy

structure Judged (p : RegistryPolicy) (since now : Instant) (b : Backend) : Prop where
  heard : b.lastSeen.isLeap = false
  judged : ∃ t, since ≤ t ∧ t ≤ now ∧ t.isLeap = false ∧ b.status = b.statusAt t p.staleAfter

theorem OnClaim.statusAt (h : b.OnClaim) (t : Instant) (staleAfter : Duration) :
    b.statusAt t staleAfter =
      if staleAfter < b.heartbeatAge t then .stale else .ofVerdict b.agentHealthy := by
  simp [Backend.statusAt, h.override, h.drain, h.validation]

theorem statusAt_of_not_onClaim (h : ¬b.OnClaim) (t t' : Instant) (staleAfter : Duration) :
    b.statusAt t staleAfter = b.statusAt t' staleAfter := by
  unfold Backend.statusAt
  split
  · rfl
  · rfl
  · rfl
  · next override drain validation => exact absurd ⟨override, drain, validation⟩ h

theorem ofVerdict_ne_stale (healthy : Bool) : BackendStatus.ofVerdict healthy ≠ .stale := by
  cases healthy <;> decide

theorem Judged.current_or_lags (h : b.Judged p since now) (regular : now.isLeap = false) :
    b.status = b.statusAt now p.staleAfter ∨ b.Lags p now := by
  obtain ⟨t, -, before, ht, judged⟩ := h.judged
  by_cases onClaim : b.OnClaim
  · -- time only adds to the age: a claim can turn stale unseen, but nothing stale turns back
    have older := Instant.since_mono before ht regular h.heard
    rw [onClaim.statusAt] at judged ⊢
    by_cases silent : p.staleAfter < b.heartbeatAge now
    · by_cases early : p.staleAfter < b.heartbeatAge t
      · left
        rw [judged, if_pos silent, if_pos early]
      · right
        rw [if_neg early] at judged
        exact ⟨onClaim, silent, judged⟩
    · have early : ¬p.staleAfter < b.heartbeatAge t := fun early =>
        silent (Nat.lt_of_lt_of_le early older)
      left
      rw [judged, if_neg silent, if_neg early]
  · left
    rw [judged]
    exact statusAt_of_not_onClaim onClaim t now p.staleAfter

theorem Judged.age_le (h : b.Judged p since now) (onClaim : b.OnClaim) (shows : b.status ≠ .stale)
    (hs : since.isLeap = false) (regular : now.isLeap = false) :
    (b.heartbeatAge now).nanoseconds ≤
      p.staleAfter.nanoseconds + (now.since since).nanoseconds := by
  obtain ⟨t, after, before, ht, judged⟩ := h.judged
  have young : ¬p.staleAfter < b.heartbeatAge t := by
    intro silent
    rw [onClaim.statusAt, if_pos silent] at judged
    exact shows judged
  have young : (t.since b.lastSeen).nanoseconds ≤ p.staleAfter.nanoseconds := Nat.le_of_not_lt young
  have elapsed := Instant.since_le_add before ht regular h.heard
  have shorter : (now.since t).nanoseconds ≤ (now.since since).nanoseconds := by
    have order := Instant.ordinal_le after hs
    rw [Instant.since_nanoseconds regular ht, Instant.since_nanoseconds regular hs]
    omega
  change (now.since b.lastSeen).nanoseconds ≤ _
  omega

theorem judged_refresh (heard : b.lastSeen.isLeap = false) (after : since ≤ t) (before : t ≤ now)
    (ht : t.isLeap = false) : (b.refresh t p.staleAfter).Judged p since now :=
  ⟨heard, t, after, before, ht, rfl⟩

def Spared (p : RegistryPolicy) (t : Instant) (b : Backend) : Prop :=
  (b.heartbeatAge t).nanoseconds ≤ p.removeAfter.nanoseconds

theorem Spared.age_le (h : b.Spared p t) (before : t ≤ now) (ht : t.isLeap = false)
    (regular : now.isLeap = false) (heard : b.lastSeen.isLeap = false) :
    (b.heartbeatAge now).nanoseconds ≤ p.removeAfter.nanoseconds + (now.since t).nanoseconds := by
  have elapsed := Instant.since_le_add before ht regular heard
  change (now.since b.lastSeen).nanoseconds ≤ _
  change (t.since b.lastSeen).nanoseconds ≤ _ at h
  omega

end Backend

namespace RegistryStep

open RegistryCall Backend

variable {p : RegistryPolicy} {k : BackendKey} {o : Option Backend} {b : Backend}
  {s : RegistryStep} {since now : Instant}

structure Within (since now : Instant) (s : RegistryStep) : Prop where
  after : since ≤ s.now
  before : s.now ≤ now
  regular : s.now.isLeap = false

theorem judged_onRecord (hs : s.Within since now) (h : ∀ b ∈ o, b.Judged p since now) :
    ∀ b ∈ s.onRecord p k o, b.Judged p since now := by
  intro b' hb
  cases onRecord_leaves hb with
  | untouched _ there => exact h b' there
  | heard b here =>
    apply judged_refresh _ hs.after hs.before hs.regular
    rw [here]
    exact hs.regular
  | judged b b₀ there same =>
    apply judged_refresh _ hs.after hs.before hs.regular
    rw [same]
    exact (h b₀ there).heard

theorem spared_onRecord (hs : s.Within since now) (regular : since.isLeap = false)
    (h : ∀ b ∈ o, b.Spared p since) : ∀ b ∈ s.onRecord p k o, b.Spared p since := by
  intro b' hb
  cases onRecord_leaves hb with
  | untouched _ there => exact h b' there
  | heard b here =>
    change (since.since b.lastSeen).nanoseconds ≤ _
    rw [here, Instant.since_eq_zero hs.after regular hs.regular]
    exact Nat.zero_le _
  | judged b b₀ there same =>
    change (since.since b.lastSeen).nanoseconds ≤ _
    rw [same]
    exact h b₀ there

theorem onRecord_swept (sweep : s.call = .sweep) (regular : s.now.isLeap = false)
    (before : s.now ≤ now) (h : ∀ b ∈ o, b.Judged p since now) :
    ∀ b ∈ s.onRecord p k o, b.Judged p s.now now ∧ b.Spared p s.now := by
  intro b' hb
  rw [onRecord, sweep] at hb
  obtain ⟨b, there, kept, rfl⟩ := onRecord_sweep hb
  constructor
  · exact judged_refresh (h b there).heard (Instant.le_refl _) before regular
  · apply Nat.le_of_not_lt
    intro long
    rw [isExpired, decide_eq_false_iff_not] at kept
    exact kept long

end RegistryStep

namespace Registry

open RegistryStep

variable {p : RegistryPolicy} {r : Registry} {since now : Instant} {k : BackendKey} {b : Backend}

theorem history_induction (good : Backend → Prop) {steps : List RegistryStep}
    (step : ∀ s ∈ steps, ∀ o, (∀ b ∈ o, good b) → ∀ b ∈ s.onRecord p k o, good b)
    (h : ∀ b ∈ r.get? k, good b) : ∀ b ∈ (history p steps r).state.get? k, good b := by
  rw [history_get?]
  generalize r.get? k = o at h
  induction steps generalizing o with
  | nil => exact h
  | cons s steps ih =>
    apply ih
    · exact fun s' hs' => step s' (List.mem_cons_of_mem s hs')
    · exact step s List.mem_cons_self o h

theorem load_judged (listing : Option (Except Error (List (String × Bytes)))) (before : since ≤ now)
    (regular : since.isLeap = false)
    (heard : ∀ k b, (load p since listing .empty).state.get? k = some b → b.lastSeen.isLeap = false)
    (k : BackendKey) : ∀ b ∈ (load p since listing .empty).state.get? k, b.Judged p since now := by
  intro b found
  have judged : b.status = b.statusAt since p.staleAfter := by
    match listing with
    | none => cases found
    | some (.error _) => cases found
    | some (.ok records) =>
      rw [load, Loader.load_state] at found
      rcases Table.mem_of_get?_setAll found with read | there
      · obtain ⟨record, -, read⟩ := List.mem_filterMap.1 read
        obtain ⟨b₀, -, rfl⟩ := Option.map_eq_some_iff.1 read
        rfl
      · cases there
  exact ⟨heard k b found, since, Instant.le_refl _, before, regular, judged⟩

def clockReadings (start : Instant) (steps : List RegistryStep) (now : Instant) : List Instant :=
  start :: steps.map RegistryStep.now ++ [now]

theorem within_of_clockReadings {start : Instant} {steps : List RegistryStep}
    (forward : (clockReadings start steps now).Pairwise (· ≤ ·))
    (regular : ∀ t ∈ clockReadings start steps now, t.isLeap = false) :
    ∀ s ∈ steps, s.Within start now := by
  intro s hs
  have here : s.now ∈ steps.map RegistryStep.now := List.mem_map_of_mem hs
  rw [clockReadings, List.cons_append, List.pairwise_cons] at forward
  refine ⟨forward.1 _ (List.mem_append_left _ here), ?_, ?_⟩
  · exact (List.pairwise_append.1 forward.2).2.2 _ here _ (List.mem_singleton_self now)
  · exact regular _ (List.mem_append_left _ (List.mem_cons_of_mem _ here))

theorem clockReadings_suffix {start : Instant} {s : RegistryStep} (before after : List RegistryStep)
    (now : Instant) :
    clockReadings s.now after now <:+ clockReadings start (before ++ s :: after) now := by
  refine ⟨start :: before.map RegistryStep.now, ?_⟩
  simp [clockReadings]

theorem swept_since {start : Instant} {before after : List RegistryStep} {s : RegistryStep}
    (forward : (clockReadings start (before ++ s :: after) now).Pairwise (· ≤ ·))
    (regular : ∀ t ∈ clockReadings start (before ++ s :: after) now, t.isLeap = false)
    (sweep : s.call = .sweep) (h : ∀ b ∈ r.get? k, b.Judged p start now) :
    ∀ b ∈ (history p (before ++ s :: after) r).state.get? k,
      b.Judged p s.now now ∧ b.Spared p s.now := by
  have within := within_of_clockReadings forward regular
  have suffix : clockReadings s.now after now <:+ clockReadings start (before ++ s :: after) now :=
    clockReadings_suffix before after now
  have later := within_of_clockReadings (forward.sublist suffix.sublist)
    fun t ht => regular t (suffix.subset ht)
  have here := within s (List.mem_append_right _ List.mem_cons_self)
  have judged : ∀ b ∈ (history p before r).state.get? k, b.Judged p start now := by
    apply history_induction (fun b => b.Judged p start now) _ h
    exact fun s' hs' o => judged_onRecord (within s' (List.mem_append_left _ hs'))
  -- what holds after the sweep itself is kept by the later steps, whose clock starts at the sweep
  rw [history_get?, List.foldl_append, ← history_get?, List.foldl_cons, ← step_get?, ← history_get?]
  refine history_induction (fun b => b.Judged p s.now now ∧ b.Spared p s.now) ?_ ?_
  · intro s' hs' o ho b hb
    constructor
    · exact judged_onRecord (later s' hs') (fun b hb => (ho b hb).1) b hb
    · exact spared_onRecord (later s' hs') here.regular (fun b hb => (ho b hb).2) b hb
  · rw [step_get?]
    exact onRecord_swept sweep here.regular here.before judged

theorem staleness_bounded (p : RegistryPolicy) (start now : Instant)
    (listing : Option (Except Error (List (String × Bytes)))) (steps : List RegistryStep)
    (forward : (clockReadings start steps now).Pairwise (· ≤ ·))
    (regular : ∀ t ∈ clockReadings start steps now, t.isLeap = false)
    (heard : ∀ k b, (load p start listing .empty).state.get? k = some b → b.lastSeen.isLeap = false)
    (k : BackendKey) (b : Backend)
    (found : (history p steps (load p start listing .empty).state).state.get? k = some b) :
    (b.status = b.statusAt now p.staleAfter ∨ b.Lags p now) ∧
      ∀ s ∈ steps, s.call = .sweep →
        (b.Lags p now ∨ b.OnClaim ∧ b.status = .healthy →
          (b.heartbeatAge now).nanoseconds ≤
            p.staleAfter.nanoseconds + (now.since s.now).nanoseconds) ∧
        (b.heartbeatAge now).nanoseconds ≤
          p.removeAfter.nanoseconds + (now.since s.now).nanoseconds := by
  have last : now ∈ clockReadings start steps now := List.mem_append_right _ List.mem_cons_self
  have first : start ∈ clockReadings start steps now := List.mem_cons_self
  have ends : start ≤ now := by
    rw [clockReadings, List.cons_append, List.pairwise_cons] at forward
    exact forward.1 now (List.mem_append_right _ List.mem_cons_self)
  have loaded := load_judged listing ends (regular start first) heard k
  have within := within_of_clockReadings forward regular
  have judged : b.Judged p start now := by
    refine history_induction (fun b => b.Judged p start now) ?_ loaded b found
    exact fun s hs o => judged_onRecord (within s hs)
  refine ⟨judged.current_or_lags (regular now last), fun s hs sweep => ?_⟩
  obtain ⟨before, after, rfl⟩ := List.append_of_mem hs
  have here := within s hs
  obtain ⟨swept, spared⟩ := swept_since forward regular sweep loaded b found
  constructor
  · rintro (lags | ⟨onClaim, healthy⟩)
    · apply swept.age_le lags.onClaim _ here.regular (regular now last)
      rw [lags.claimed]
      exact Backend.ofVerdict_ne_stale b.agentHealthy
    · apply swept.age_le onClaim _ here.regular (regular now last)
      rw [healthy]
      decide
  · exact spared.age_le here.before here.regular (regular now last) judged.heard

def ahead : Backend := .ofRegistration ⟨"a1", "eu", "web", "10.0.0.1", 80, 100, true⟩ (atSecond 20)

def quietListing : Option (Except Error (List (String × Bytes))) :=
  some (.ok [(ahead.key.storeKey, ahead.toJson.text), ("backends/broken", [])])

def quietSpell : List RegistryStep :=
  [⟨atSecond 5, .unchanged, .register ⟨"a2", "eu", "web", "10.0.0.2", 80, 100, true⟩⟩,
    ⟨atSecond 45, .backwards, .sweep⟩, ⟨atSecond 48, .unchanged, .clearOverride ahead.key⟩]

theorem staleness_in_quiet_spell :
    ∃ b, (history defaultPolicy quietSpell
        (load defaultPolicy (atSecond 0) quietListing .empty).state).state.get? ahead.key = some b ∧
      b.Lags defaultPolicy (atSecond 60) ∧
      b.heartbeatAge (atSecond 60) = .ofSeconds 40 ∧
      (b.heartbeatAge (atSecond 60)).nanoseconds ≤
        defaultPolicy.staleAfter.nanoseconds + ((atSecond 60).since (atSecond 45)).nanoseconds := by
  have heard : ∀ k b, (load defaultPolicy (atSecond 0) quietListing .empty).state.get? k = some b →
      b.lastSeen.isLeap = false := by
    have all : ∀ e ∈ (load defaultPolicy (atSecond 0) quietListing .empty).state.entries,
        e.2.lastSeen.isLeap = false := by decide +kernel
    intro k b found
    exact all (k, b) (Table.get?_eq_some_iff.1 found)
  let final := (history defaultPolicy quietSpell
    (load defaultPolicy (atSecond 0) quietListing .empty).state).state.get? ahead.key
  obtain ⟨b, found⟩ : ∃ b, final = some b := Option.isSome_iff_exists.1 (by decide +kernel)
  have ages : final.map (fun b => b.heartbeatAge (atSecond 60)) = some (.ofSeconds 40) := by
    decide +kernel
  have shows : final.map (fun b =>
      decide (b.status = b.statusAt (atSecond 60) defaultPolicy.staleAfter)) = some false := by
    decide +kernel
  obtain ⟨lagging, swept⟩ := staleness_bounded defaultPolicy (atSecond 0) (atSecond 60) quietListing
    quietSpell (by decide +kernel) (by decide +kernel) heard ahead.key b found
  rw [found] at ages shows
  have outdated : b.status ≠ b.statusAt (atSecond 60) defaultPolicy.staleAfter := by
    simpa using shows
  have lags := lagging.resolve_left outdated
  obtain ⟨bound, -⟩ := swept ⟨atSecond 45, .backwards, .sweep⟩
    (List.mem_cons_of_mem _ List.mem_cons_self) rfl
  exact ⟨b, found, lags, Option.some.inj ages, bound (.inl lags)⟩

end Registry

end HealthConsensus
