import HealthConsensus.Proofs.Registry.Chronicle
import Mathlib.Data.List.Induction
import Mathlib.Data.Set.Card

namespace HealthConsensus

namespace Drain

def IsTimed (d : Drain) : Prop := d.draining = true ↔ d.since.isSome = true

theorem isTimed_none : none.IsTimed := by simp [IsTimed, none]

theorem isTimed_after (before signal : Drain) (now : Instant) :
    (before.after signal now).IsTimed := by
  cases draining : signal.draining <;> simp [IsTimed, after, draining]

theorem IsTimed.since_eq_none {d : Drain} (h : d.IsTimed) (idle : d.draining = false) :
    d.since = .none := by
  cases start : d.since with
  | none => rfl
  | some t =>
    have draining := h.2 (Option.isSome_of_eq_some start)
    cases idle.symm.trans draining

def signalled (d : Drain) : Option (Drain × Instant) → Drain
  | .none => d
  | some (signal, now) => d.after signal now

theorem IsTimed.signalled {d : Drain} (h : d.IsTimed) (signal : Option (Drain × Instant)) :
    (d.signalled signal).IsTimed := by
  cases signal with
  | none => exact h
  | some e => exact isTimed_after d e.1 e.2

def ofRecord (o : Option Backend) : Drain := (o.map Backend.drain).getD none

end Drain

namespace RegistryStep

variable {p : RegistryPolicy} {k : BackendKey} {o : Option Backend} {b' : Backend}
  {s : RegistryStep}

theorem signal?_time {owner : Option String} {signal : Drain} {t : Instant}
    (h : s.signal? owner = some (signal, t)) : t = s.now := by
  obtain ⟨now, order, call⟩ := s
  cases call with
  | drain agentId signal' =>
    obtain ⟨-, same⟩ := Option.ite_none_right_eq_some.1 h
    cases same
    rfl
  | _ => cases h

theorem onRecord_drain (h : s.onRecord p k o = some b') :
    b'.drain = (Drain.ofRecord o).signalled (s.signal? (o.map Backend.agentId)) := by
  obtain ⟨now, order, call⟩ := s
  rw [onRecord] at h
  have kept (there : o = some b') :
      b'.drain = (Drain.ofRecord o).signalled none := there ▸ rfl
  cases call with
  | register r =>
    rw [RegistryCall.onRecord] at h
    split at h
    · cases h
      cases o <;> rfl
    · exact kept h
  | deregister k' =>
    rw [RegistryCall.onRecord] at h
    split at h
    · cases h
    · exact kept h
  | validate k' healthy error latency =>
    rw [RegistryCall.onRecord] at h
    split at h
    · obtain ⟨b, rfl, rfl⟩ := Option.map_eq_some_iff.1 h
      rfl
    · exact kept h
  | setOverride k' healthy reason operator =>
    rw [RegistryCall.onRecord] at h
    split at h
    · obtain ⟨b, rfl, rfl⟩ := Option.map_eq_some_iff.1 h
      rfl
    · exact kept h
  | clearOverride k' =>
    rw [RegistryCall.onRecord] at h
    split at h
    · obtain ⟨b, rfl, rfl⟩ := Option.map_eq_some_iff.1 h
      split <;> rfl
    · exact kept h
  | drain agentId signal =>
    obtain ⟨b, rfl, rfl⟩ := Option.map_eq_some_iff.1 h
    by_cases owner : b.agentId = agentId
    · simp [signal?, owner, Backend.applyDrain, Backend.refresh, Drain.ofRecord, Drain.signalled]
    · simp [signal?, owner, Drain.ofRecord, Drain.signalled]
  | sweep =>
    obtain ⟨b, rfl, -, rfl⟩ := RegistryCall.onRecord_sweep h
    rfl

def start? (owner : Option String) (s : RegistryStep) : Option Instant :=
  (s.signal? owner).bind fun e => e.1.since

end RegistryStep

namespace Registry

variable {p : RegistryPolicy} {k : BackendKey} {b : Backend}

theorem history_concat_get? (steps : List RegistryStep) (s : RegistryStep) (r : Registry) :
    (history p (steps ++ [s]) r).state.get? k =
      s.onRecord p k ((history p steps r).state.get? k) := by
  rw [history_get?, history_get?, List.foldl_append]
  rfl

theorem isTimed_history (steps : List RegistryStep) :
    (Drain.ofRecord ((history p steps .empty).state.get? k)).IsTimed := by
  induction steps using List.reverseRecOn with
  | nil => exact Drain.isTimed_none
  | append_singleton steps s ih =>
    rw [history_concat_get?]
    cases after : s.onRecord p k ((history p steps .empty).state.get? k) with
    | none => exact Drain.isTimed_none
    | some b =>
      have drain : Drain.ofRecord (some b) = b.drain := rfl
      rw [drain, RegistryStep.onRecord_drain after]
      exact ih.signalled _

section Signals

variable {now : Instant} {agentId : String} {signal : Drain} {r : Registry}

theorem drain_result (r : Registry) :
    (drain p now agentId signal r).result =
      {k | ∃ b, r.get? k = some b ∧ b.agentId = agentId}.ncard := by
  let owned := r.entries.filter fun e => e.2.agentId == agentId
  have keys : {k | ∃ b, r.get? k = some b ∧ b.agentId = agentId} =
      ((owned.map Prod.fst).toFinset : Set BackendKey) := by
    ext k
    simp [owned, Table.get?_eq_some_iff]
  have distinct : (owned.map Prod.fst).Nodup :=
    r.distinct.sublist (List.filter_sublist.map Prod.fst)
  rw [keys, Set.ncard_coe_finset, List.toFinset_card_of_nodup distinct, List.length_map]
  simp [drain_apply, Table.values, List.filter_map, owned, Function.comp_def]

theorem drain_others (h : ¬∃ b, r.get? k = some b ∧ b.agentId = agentId) :
    (drain p now agentId signal r).state.get? k = r.get? k := by
  rw [drain_get?, RegistryCall.onRecord]
  cases found : r.get? k with
  | none => rfl
  | some b =>
    have other : b.agentId ≠ agentId := fun owner => h ⟨b, found, owner⟩
    exact congrArg some (if_neg other)

theorem drain_owned (found : r.get? k = some b) (owner : b.agentId = agentId) :
    (drain p now agentId signal r).state.get? k =
      some (b.applyDrain signal now p.staleAfter) := by
  rw [drain_get?, RegistryCall.onRecord, found]
  exact congrArg some (if_pos owner)

end Signals

def isDraining (o : Option Backend) : Bool := (Drain.ofRecord o).draining

/-- Steps over which a backend is there and draining without a break; the first one begins it. -/
structure Episode (p : RegistryPolicy) (k : BackendKey) (before : List RegistryStep)
    (first : RegistryStep) (later : List RegistryStep) : Prop where
  begins : isDraining ((history p before .empty).state.get? k) = false
  lasts : ∀ l, l <+: later →
    isDraining ((history p (before ++ first :: l) .empty).state.get? k) = true

def starts (p : RegistryPolicy) (k : BackendKey) : Registry → List RegistryStep → List Instant
  | _, [] => []
  | r, s :: steps =>
    (s.start? ((r.get? k).map Backend.agentId)).toList ++ starts p k (step p s r).state steps

theorem starts_concat (steps : List RegistryStep) (s : RegistryStep) (r : Registry) :
    starts p k r (steps ++ [s]) = starts p k r steps ++
      (s.start? (((history p steps r).state.get? k).map Backend.agentId)).toList := by
  induction steps generalizing r with
  | nil => simp [starts, history]
  | cons s' steps ih => rw [List.cons_append, starts, starts, ih, history_cons, List.append_assoc]

theorem present_of_isDraining {o : Option Backend} (h : isDraining o = true) :
    ∃ b, o = some b ∧ b.drain.draining = true := by
  cases o with
  | none => cases h
  | some b => exact ⟨b, rfl, h⟩

theorem since_of_draining {o : Option Backend} {s : RegistryStep}
    (timed : (Drain.ofRecord o).IsTimed) (after : s.onRecord p k o = some b)
    (draining : b.drain.draining = true) :
    b.drain.since = some (((s.start? (o.map Backend.agentId)).or (Drain.ofRecord o).since).getD
      s.now) := by
  have drain := RegistryStep.onRecord_drain after
  rw [RegistryStep.start?]
  cases said : s.signal? (o.map Backend.agentId) with
  | none =>
    rw [said] at drain
    have same : b.drain = Drain.ofRecord o := drain
    rw [same] at draining ⊢
    obtain ⟨t, start⟩ := Option.isSome_iff_exists.1 (timed.1 draining)
    rw [start]
    rfl
  | some e =>
    obtain ⟨signal, t⟩ := e
    obtain rfl := RegistryStep.signal?_time said
    rw [said] at drain
    have applied : b.drain = (Drain.ofRecord o).after signal s.now := drain
    rw [applied] at draining ⊢
    exact if_pos draining

theorem Episode.since_eq {before later : List RegistryStep} {first : RegistryStep}
    (h : Episode p k before first later) :
    ∃ b, (history p (before ++ first :: later) .empty).state.get? k = some b ∧
      b.drain.since = some ((starts p k (history p before .empty).state
        (first :: later)).getLast?.getD first.now) := by
  have idle : (Drain.ofRecord ((history p before .empty).state.get? k)).since = none :=
    (isTimed_history before).since_eq_none h.begins
  induction later using List.reverseRecOn with
  | nil =>
    obtain ⟨b, found, draining⟩ := present_of_isDraining (h.lasts [] List.nil_prefix)
    refine ⟨b, found, ?_⟩
    rw [history_concat_get?] at found
    rw [since_of_draining (isTimed_history before) found draining, idle, starts, starts,
      List.append_nil, Option.or_none]
    cases first.start? _ <;> rfl
  | append_singleton later s ih =>
    obtain ⟨b, found, since⟩ := ih
      ⟨h.begins, fun l inner => h.lasts l (inner.trans (List.prefix_append _ _))⟩
    obtain ⟨b', found', draining⟩ := present_of_isDraining (h.lasts _ List.prefix_rfl)
    refine ⟨b', found', ?_⟩
    have split : before ++ first :: (later ++ [s]) = before ++ first :: later ++ [s] := by simp
    have recorded : (history p (first :: later) (history p before .empty).state).state.get? k =
        some b := by
      rw [history_get?, history_get?, ← List.foldl_append, ← history_get?]
      exact found
    rw [split, history_concat_get?, found] at found'
    have timed : (Drain.ofRecord (some b)).IsTimed := found ▸ isTimed_history _
    have before' : (Drain.ofRecord (some b)).since = b.drain.since := rfl
    rw [since_of_draining timed found' draining, before', since, ← List.cons_append,
      starts_concat, recorded]
    cases s.start? _ <;> simp

/-- A drain has a start exactly while it goes on, a signal reaches the backends of its agent and no
others, and over an unbroken drain the last start that a signal brought stands, or its beginning. -/
theorem drains_come_in_episodes (p : RegistryPolicy) :
    (∀ steps k b, (history p steps .empty).state.get? k = some b →
      (b.drain.draining = true ↔ b.drain.since.isSome = true)) ∧
    (∀ (r : Registry) (now : Instant) (agentId : String) (signal : Drain),
      (drain p now agentId signal r).result =
        {k | ∃ b, r.get? k = some b ∧ b.agentId = agentId}.ncard ∧
      (∀ k, (¬∃ b, r.get? k = some b ∧ b.agentId = agentId) →
        (drain p now agentId signal r).state.get? k = r.get? k) ∧
      ∀ k b, r.get? k = some b → b.agentId = agentId →
        ∃ b', (drain p now agentId signal r).state.get? k = some b' ∧
          (signal.draining = false → b'.drain.draining = false ∧ b'.drain.since = none)) ∧
    ∀ k before first later, Episode p k before first later →
      ∃ b, (history p (before ++ first :: later) .empty).state.get? k = some b ∧
        b.drain.since = some ((starts p k (history p before .empty).state
          (first :: later)).getLast?.getD first.now) := by
  refine ⟨fun steps k b found => ?_, fun r now agentId signal => ⟨drain_result r, ?_, ?_⟩, ?_⟩
  · have timed : (Drain.ofRecord (some b)).IsTimed := found ▸ isTimed_history steps
    exact timed
  · exact fun k others => drain_others others
  · intro k b found owner
    refine ⟨_, drain_owned found owner, fun off => ⟨off, ?_⟩⟩
    exact if_neg (ne_true_of_eq_false off)
  · exact fun k before first later episode => episode.since_eq

def handedOver : BackendKey := ⟨"web", "10.0.0.1", 80⟩

def beforeHandover : List RegistryStep :=
  [⟨atSecond 1, .unchanged, .register ⟨"a1", "eu", "web", "10.0.0.1", 80, 100, true⟩⟩,
    ⟨atSecond 2, .unchanged, .drain "a1" ⟨true, "load", some (atSecond 1), 0, 0, 0⟩⟩,
    ⟨atSecond 3, .unchanged, .drain "a1" ⟨false, "", some (atSecond 1), 0, 0, 0⟩⟩]

def handoverDrain : RegistryStep :=
  ⟨atSecond 4, .unchanged, .drain "a1" ⟨true, "load", none, 0, 0, 0⟩⟩

def handover : List RegistryStep :=
  [⟨atSecond 5, .unchanged, .register ⟨"a2", "us", "web", "10.0.0.1", 80, 50, true⟩⟩,
    ⟨atSecond 6, .backwards, .drain "a2" ⟨true, "", none, 0, 0, 0⟩⟩,
    ⟨atSecond 7, .unchanged, .drain "a2" ⟨true, "", some (atSecond 2), 0, 0, 0⟩⟩,
    ⟨atSecond 8, .unchanged, .drain "a1" ⟨false, "", none, 0, 0, 0⟩⟩,
    ⟨atSecond 9, .backwards, .sweep⟩]

theorem episode_handover :
    Episode defaultPolicy handedOver beforeHandover handoverDrain handover where
  begins := by decide +kernel
  lasts l inner := by
    have all : ∀ l ∈ handover.inits, isDraining ((history defaultPolicy
        (beforeHandover ++ handoverDrain :: l) .empty).state.get? handedOver) = true := by
      decide +kernel
    exact all l ((List.mem_inits l handover).2 inner)

def afterHandover : Registry :=
  (history defaultPolicy (beforeHandover ++ handoverDrain :: handover) .empty).state

theorem drain_handed_over :
    ∃ b, afterHandover.get? handedOver = some b ∧ b.agentId = "a2" ∧
      b.drain.since = some (atSecond 2) ∧ b.drain.draining = true ∧
      (drain defaultPolicy (atSecond 10) "a1" .none afterHandover).state.get? handedOver = some b ∧
      ∃ b', (drain defaultPolicy (atSecond 10) "a2" .none afterHandover).state.get? handedOver =
        some b' ∧ b'.drain.since = none := by
  obtain ⟨timed, signals, episodes⟩ := drains_come_in_episodes defaultPolicy
  obtain ⟨b, found, since⟩ := episodes _ _ _ _ episode_handover
  have brought : starts defaultPolicy handedOver (history defaultPolicy beforeHandover .empty).state
      (handoverDrain :: handover) = [atSecond 2] := by decide +kernel
  rw [brought] at since
  have owned : (afterHandover.get? handedOver).map Backend.agentId = some "a2" := by decide +kernel
  have there : afterHandover.get? handedOver = some b := found
  have owner : b.agentId = "a2" := by
    rw [there] at owned
    exact Option.some.inj owned
  have draining : b.drain.draining = true :=
    (timed _ _ b found).2 (Option.isSome_of_eq_some since)
  obtain ⟨-, others, -⟩ := signals afterHandover (atSecond 10) "a1" .none
  obtain ⟨-, -, own⟩ := signals afterHandover (atSecond 10) "a2" .none
  have spared : ¬∃ c, afterHandover.get? handedOver = some c ∧ c.agentId = "a1" := by
    rintro ⟨c, found', owner'⟩
    obtain rfl := Option.some.inj (there.symm.trans found')
    exact absurd (owner.symm.trans owner') (by decide)
  obtain ⟨b', found', ended⟩ := own handedOver b there owner
  exact ⟨b, there, owner, since, draining, (others handedOver spared).trans there, b', found',
    (ended rfl).2⟩

end Registry

end HealthConsensus
