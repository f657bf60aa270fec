import HealthConsensus.Proofs.Registry.Chronicle
import Mathlib.Data.List.Induction

namespace HealthConsensus

def RegistryStep.Concerns (k : BackendKey) (owner : Option String) (s : RegistryStep) : Prop :=
  match s.call with
  | .drain agentId _ => owner = some agentId
  | .sweep => True
  | call => call.key? = some k

theorem RegistryStep.onRecord_of_not_concerns {p : RegistryPolicy} {k : BackendKey}
    {o : Option Backend} {s : RegistryStep} (h : ¬s.Concerns k (o.map Backend.agentId)) :
    s.onRecord p k o = o := by
  obtain ⟨now, order, call⟩ := s
  cases call with
  | drain agentId signal =>
    cases o with
    | none => rfl
    | some b =>
      have other : b.agentId ≠ agentId := fun owns => h (congrArg some owns)
      exact congrArg some (if_neg other)
  | sweep => exact absurd trivial h
  | _ => exact RegistryCall.onRecord_elsewhere rfl fun own => h (congrArg some own)

namespace Chronicle

variable {p : RegistryPolicy} {k : BackendKey} {c : Chronicle} {s : RegistryStep}

theorem Living.cons (h : Living k c) (s : RegistryStep) : Living k (s :: c) := by
  obtain ⟨r, heard, registered⟩ := h.registered
  obtain ⟨t, judged⟩ := h.judged
  constructor
  · rw [registration?_cons, registered]
    cases s.registration? k with
    | none => exact ⟨r, heard, rfl⟩
    | some e => exact ⟨e.1, e.2, rfl⟩
  · rw [judgedAt_cons, judged]
    split
    · exact ⟨s.now, rfl⟩
    · exact ⟨t, rfl⟩

theorem living_first (h : (s.registration? k).isSome = true) : Living k [s] := by
  obtain ⟨⟨r, heard⟩, said⟩ := Option.isSome_iff_exists.1 h
  constructor
  · rw [registration?_cons, said]
    exact ⟨r, heard, rfl⟩
  · obtain ⟨now, order, call⟩ := s
    cases call with
    | register x =>
      have judges : judges k [] ⟨now, order, .register x⟩ = true := h
      rw [judgedAt_cons, judges]
      exact ⟨now, rfl⟩
    | _ => cases said

def Current (k : BackendKey) (c : Chronicle) : Prop := c = [] ∨ Living k c

theorem Current.record?_eq_none_iff (h : Current k c) : record? p k c = none ↔ c = [] := by
  obtain rfl | living := h
  · exact iff_of_true rfl rfl
  · obtain ⟨r, heard, registered⟩ := living.registered
    obtain ⟨t, judged⟩ := living.judged
    rw [record?_eq_some registered judged]
    refine iff_of_false (Option.some_ne_none _) ?_
    rintro rfl
    cases registered

theorem extend_nil : extend p k [] s = if (s.registration? k).isSome then [s] else [] := rfl

theorem extend_of_living (h : Living k c) :
    extend p k c s = if ends p k c s then [] else s :: c := by
  cases c with
  | nil =>
    obtain ⟨r, heard, registered⟩ := h.registered
    cases registered
  | cons s' c => rfl

theorem Current.extend (h : Current k c) (s : RegistryStep) : Current k (extend p k c s) := by
  obtain rfl | living := h
  · rw [extend_nil]
    split
    · next created => exact .inr (living_first created)
    · exact .inl rfl
  · rw [extend_of_living living]
    split
    · exact .inl rfl
    · exact .inr (living.cons s)

theorem record?_extend (h : Current k c) :
    record? p k (extend p k c s) = s.onRecord p k (record? p k c) := by
  obtain rfl | living := h
  · rw [extend_nil]
    split
    · next created => exact record?_first (Option.isSome_iff_ne_none.1 created)
    · next absent => exact (onRecord_none (by simpa using absent)).symm
  · rw [extend_of_living living]
    split
    · next ended => exact (onRecord_of_ends ended).symm
    · next stays => exact record?_cons living (Bool.eq_false_iff.2 stays)

theorem sinceCreation_concat (steps : List RegistryStep) :
    sinceCreation p k (steps ++ [s]) = extend p k (sinceCreation p k steps) s := by
  simp [sinceCreation]

theorem sinceCreation_current (steps : List RegistryStep) : Current k (sinceCreation p k steps) := by
  induction steps using List.reverseRecOn with
  | nil => exact .inl rfl
  | append_singleton steps s ih =>
    rw [sinceCreation_concat]
    exact ih.extend s

theorem record?_sinceCreation (steps : List RegistryStep) :
    record? p k (sinceCreation p k steps) = steps.foldl (RegistryStep.onRecord p k) none := by
  induction steps using List.reverseRecOn with
  | nil => rfl
  | append_singleton steps s ih =>
    rw [sinceCreation_concat, record?_extend (sinceCreation_current steps), ih, List.foldl_concat]

theorem sinceCreation_eq {steps : List RegistryStep} (h : sinceCreation p k steps ≠ []) :
    ∃ before s after, steps = before ++ s :: after ∧
      sinceCreation p k steps = (s :: after).reverse ∧ sinceCreation p k before = [] ∧
      ∀ l, l <+: after → sinceCreation p k (before ++ s :: l) ≠ [] := by
  induction steps using List.reverseRecOn with
  | nil => exact absurd rfl h
  | append_singleton steps x ih =>
    -- either the last step creates the record, or it belongs to the creation found before it
    by_cases absent : sinceCreation p k steps = []
    · have created : sinceCreation p k (steps ++ [x]) = [x] := by
        rw [sinceCreation_concat, absent, extend_nil] at h ⊢
        exact if_pos (by by_contra refused; exact h (if_neg refused))
      refine ⟨steps, x, [], rfl, created, absent, ?_⟩
      intro l hl
      rw [List.prefix_nil.1 hl]
      exact h
    · obtain ⟨before, s, after, rfl, since, first, stays⟩ := ih absent
      have living := (sinceCreation_current _).resolve_left absent
      have still : sinceCreation p k (before ++ s :: after ++ [x]) =
          x :: sinceCreation p k (before ++ s :: after) := by
        rw [sinceCreation_concat, extend_of_living living] at h ⊢
        exact if_neg fun ended => h (if_pos ended)
      refine ⟨before, s, after ++ [x], by simp, ?_, first, ?_⟩
      · rw [still, since]
        simp
      · intro l hl
        obtain rfl | inner := List.prefix_concat_iff.1 hl
        · simpa using h
        · exact stays l inner

structure Keeps (p : RegistryPolicy) (k : BackendKey) (heard : Instant) (s : RegistryStep) :
    Prop where
  stands : s.registration? k = none
  stays : s.call ≠ .deregister k
  spares : s.call = .sweep → ¬p.removeAfter < s.now.since heard

theorem keeps_iff {r : Registration} {heard : Instant} (h : registration? k c = some (r, heard)) :
    Keeps p k heard s ↔ s.registration? k = none ∧ ends p k c s = false := by
  have ending : ends p k c s = false ↔
      s.call ≠ .deregister k ∧ (s.call = .sweep → ¬p.removeAfter < s.now.since heard) := by
    obtain ⟨now, order, call⟩ := s
    cases call <;> simp [ends, h]
  rw [ending]
  exact ⟨fun keeps => ⟨keeps.stands, keeps.stays, keeps.spares⟩, fun h => ⟨h.1, h.2.1, h.2.2⟩⟩

theorem registration?_extend {r : Registration} {heard : Instant} (h : Current k c) :
    registration? k (extend p k c s) = some (r, heard) ↔
      s.registration? k = some (r, heard) ∨
        registration? k c = some (r, heard) ∧ Keeps p k heard s := by
  obtain rfl | living := h
  · have unsaid : registration? k [] ≠ some (r, heard) := nofun
    have first : registration? k (extend p k [] s) = s.registration? k := by
      rw [extend_nil]
      cases said : s.registration? k with
      | none => rfl
      | some e => rw [Option.isSome_some, if_pos rfl, registration?_cons, said]; rfl
    simp [first, unsaid]
  · obtain ⟨r', heard', registered⟩ := living.registered
    have ending : ends p k c s = true → s.registration? k = none := by
      obtain ⟨now, order, call⟩ := s
      cases call <;> simp [ends, RegistryStep.registration?]
    rw [extend_of_living living]
    cases ended : ends p k c s with
    | true =>
      have lost : registration? k c = some (r, heard) → ¬Keeps p k heard s := by
        intro said keeps
        rw [((keeps_iff said).1 keeps).2] at ended
        cases ended
      rw [ending ended, if_pos rfl]
      exact iff_of_false nofun (by simpa using lost)
    | false =>
      rw [if_neg Bool.false_ne_true, registration?_cons]
      cases said : s.registration? k with
      | none =>
        have keeps (there : registration? k c = some (r, heard)) : Keeps p k heard s :=
          (keeps_iff there).2 ⟨said, ended⟩
        simpa using keeps
      | some e =>
        have renews : ¬Keeps p k heard s := by
          intro keeps
          cases keeps.stands.symm.trans said
        simp [renews]

def Lasts (p : RegistryPolicy) (k : BackendKey) (steps : List RegistryStep)
    (e : Registration × Instant) : Prop :=
  ∃ before s after, steps = before ++ s :: after ∧ s.registration? k = some e ∧
    ∀ s' ∈ after, Keeps p k e.2 s'

theorem lasts_concat {steps : List RegistryStep} {e : Registration × Instant} :
    Lasts p k (steps ++ [s]) e ↔
      s.registration? k = some e ∨ Lasts p k steps e ∧ Keeps p k e.2 s := by
  constructor
  · rintro ⟨before, s', after, split, said, kept⟩
    obtain rfl | ⟨after, x, rfl⟩ := after.eq_nil_or_concat'
    · obtain ⟨rfl, rfl⟩ := List.append_singleton_inj.1 split
      exact .inl said
    · rw [← List.cons_append, ← List.append_assoc, List.append_singleton_inj] at split
      obtain ⟨rfl, rfl⟩ := split
      exact .inr ⟨⟨before, s', after, rfl, said, fun x hx => kept x (List.mem_append_left _ hx)⟩,
        kept s (List.mem_append_right _ (List.mem_singleton_self s))⟩
  · rintro (said | ⟨⟨before, s', after, rfl, said, kept⟩, keeps⟩)
    · exact ⟨steps, s, [], rfl, said, List.forall_mem_nil _⟩
    · refine ⟨before, s', after ++ [s], by simp, said, ?_⟩
      intro x hx
      obtain earlier | rfl : x ∈ after ∨ x = s := by simpa using hx
      · exact kept x earlier
      · exact keeps

theorem registration?_sinceCreation {e : Registration × Instant} (steps : List RegistryStep) :
    registration? k (sinceCreation p k steps) = some e ↔ Lasts p k steps e := by
  induction steps using List.reverseRecOn with
  | nil =>
    refine iff_of_false nofun ?_
    rintro ⟨before, s, after, split, -⟩
    simp at split
  | append_singleton steps s ih =>
    rw [sinceCreation_concat, registration?_extend (sinceCreation_current steps), ih, lasts_concat]

end Chronicle

namespace Registry

open Chronicle

variable {p : RegistryPolicy} {k : BackendKey}

theorem history_get?_eq_record? (steps : List RegistryStep) :
    (history p steps .empty).state.get? k = record? p k (sinceCreation p k steps) := by
  rw [history_get?, record?_sinceCreation]
  rfl

theorem history_get?_eq_none_iff (steps : List RegistryStep) :
    (history p steps .empty).state.get? k = none ↔ sinceCreation p k steps = [] := by
  rw [history_get?_eq_record?]
  exact (sinceCreation_current steps).record?_eq_none_iff

theorem history_present_iff (steps : List RegistryStep) :
    (history p steps .empty).state.get? k ≠ none ↔ ∃ e, Lasts p k steps e := by
  rw [ne_eq, history_get?_eq_none_iff]
  constructor
  · intro present
    obtain ⟨r, heard, registered⟩ := ((sinceCreation_current steps).resolve_left present).registered
    exact ⟨(r, heard), (registration?_sinceCreation steps).1 registered⟩
  · rintro ⟨e, lasts⟩ absent
    have registered := (registration?_sinceCreation steps).2 lasts
    rw [absent] at registered
    cases registered

theorem history_created (steps : List RegistryStep) (b : Backend)
    (found : (history p steps .empty).state.get? k = some b) :
    ∃ before s after, steps = before ++ s :: after ∧
      (history p before .empty).state.get? k = none ∧
      (∀ l, l <+: after → (history p (before ++ s :: l) .empty).state.get? k ≠ none) ∧
      record? p k (s :: after).reverse = some b := by
  have present : sinceCreation p k steps ≠ [] := by
    intro absent
    rw [(history_get?_eq_none_iff steps).2 absent] at found
    cases found
  obtain ⟨before, s, after, rfl, since, first, stays⟩ := sinceCreation_eq present
  refine ⟨before, s, after, rfl, (history_get?_eq_none_iff before).2 first, ?_, ?_⟩
  · intro l inner absent
    exact stays l inner ((history_get?_eq_none_iff _).1 absent)
  · rw [← since, ← history_get?_eq_record?]
    exact found

theorem history_without {before after : List RegistryStep} {s : RegistryStep} {r : Registry}
    (h : ¬s.Concerns k (((history p before r).state.get? k).map Backend.agentId)) :
    (history p (before ++ after) r).state.get? k =
      (history p (before ++ s :: after) r).state.get? k := by
  rw [history_get?] at h
  rw [history_get?, history_get?, List.foldl_append, List.foldl_append, List.foldl_cons,
    RegistryStep.onRecord_of_not_concerns h]

/-- A record says what the steps since its creation say, and nothing else bears on it. -/
theorem record_follows_history (p : RegistryPolicy) (steps : List RegistryStep) (k : BackendKey) :
    (∀ b, (history p steps .empty).state.get? k = some b →
      ∃ before s after, steps = before ++ s :: after ∧
        (history p before .empty).state.get? k = none ∧
        (∀ l, l <+: after → (history p (before ++ s :: l) .empty).state.get? k ≠ none) ∧
        record? p k (s :: after).reverse = some b) ∧
    ((history p steps .empty).state.get? k ≠ none ↔ ∃ e, Lasts p k steps e) ∧
    (∀ before s after, steps = before ++ s :: after →
      ¬s.Concerns k (((history p before .empty).state.get? k).map Backend.agentId) →
      (history p (before ++ after) .empty).state.get? k =
        (history p steps .empty).state.get? k) := by
  refine ⟨history_created steps, history_present_iff steps, ?_⟩
  rintro before s after rfl apart
  exact history_without apart

def contested : BackendKey := ⟨"web", "10.0.0.1", 80⟩

def lateDrain : RegistryStep := ⟨atSecond 7, .backwards, .drain "a1" ⟨true, "leaving", none, 0, 0, 0⟩⟩

def beforeLateDrain : List RegistryStep :=
  [⟨atSecond 1, .unchanged, .register ⟨"a1", "eu", "web", "10.0.0.1", 80, 100, true⟩⟩,
    ⟨atSecond 2, .unchanged, .setOverride contested true "kept" "ops"⟩,
    ⟨atSecond 3, .unchanged, .drain "a1" ⟨true, "load", none, 0, 0, 0⟩⟩,
    ⟨atSecond 4, .unchanged, .register ⟨"a2", "us", "web", "10.0.0.1", 80, 50, true⟩⟩,
    ⟨atSecond 5, .unchanged, .validate contested false (some "refused") .zero⟩,
    ⟨atSecond 6, .unchanged, .register ⟨"a1", "eu", "web", "10.0.0.2", 80, 100, true⟩⟩]

def afterLateDrain : List RegistryStep :=
  [⟨atSecond 8, .unchanged, .clearOverride contested⟩,
    ⟨atSecond 9, .unchanged, .drain "a2" ⟨false, "", none, 0, 0, 0⟩⟩,
    ⟨atSecond 10, .backwards, .sweep⟩]

theorem record_after_late_drain :
    ∃ b, (history defaultPolicy (beforeLateDrain ++ lateDrain :: afterLateDrain)
        .empty).state.get? contested = some b ∧
      (b.agentId, b.drain.draining, b.status) = ("a2", false, .unhealthy) ∧
      ¬lateDrain.Concerns contested (((history defaultPolicy beforeLateDrain
        .empty).state.get? contested).map Backend.agentId) ∧
      (history defaultPolicy (beforeLateDrain ++ afterLateDrain)
        .empty).state.get? contested = some b ∧
      ∃ c, record? defaultPolicy contested c = some b := by
  obtain ⟨created, -, others⟩ := record_follows_history defaultPolicy
    (beforeLateDrain ++ lateDrain :: afterLateDrain) contested
  have outcome : ((history defaultPolicy (beforeLateDrain ++ lateDrain :: afterLateDrain)
      .empty).state.get? contested).map (fun b => (b.agentId, b.drain.draining, b.status)) =
      some ("a2", false, .unhealthy) := by decide +kernel
  obtain ⟨b, found, shown⟩ := Option.map_eq_some_iff.1 outcome
  have owner : ((history defaultPolicy beforeLateDrain .empty).state.get? contested).map
      Backend.agentId = some "a2" := by decide +kernel
  have apart : ¬lateDrain.Concerns contested (((history defaultPolicy beforeLateDrain
      .empty).state.get? contested).map Backend.agentId) := by
    rw [owner]
    exact (by decide : some "a2" ≠ some "a1")
  obtain ⟨_, s, after, -, -, -, recounted⟩ := created b found
  exact ⟨b, found, shown, apart, (others _ _ _ rfl apart).trans found, _, recounted⟩

end Registry

end HealthConsensus
