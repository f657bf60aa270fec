import HealthConsensus.Proofs.Registry.News
import HealthConsensus.Validator.Basic

/-!
Checks side by side: a sweep takes down the backends that there are, checks each as soon as a worker
is free, and then lands the verdicts in whatever order the checks have ended, while others go on to
use the registry.
-/

namespace HealthConsensus

namespace Validator

open Operation Registry

def record (p : RegistryPolicy) (now : Instant) (b : Backend) (v : Verdict)
    (sum : ValidationSummary) : Operation Registry ValidationSummary := do
  match ← land p now b v with
  | .ok () => return sum.add v true
  | .error _ => return sum.add v false

def verdictCall (b : Backend) (v : Verdict) : RegistryCall :=
  .validate b.key v.healthy v.error v.latency

variable {p : RegistryPolicy} {now : Instant} {b : Backend} {v : Verdict} {sum : ValidationSummary}
  {r : Registry} {k : BackendKey}

theorem record_result : (record p now b v sum r).result = sum.add v (r.get? b.key).isSome := by
  cases found : r.get? b.key <;> simp [record, land, validate, onBackend, found]

theorem record_state : (record p now b v sum r).state =
    (validate p now b.key v.healthy v.error v.latency r).state := by
  cases found : r.get? b.key <;> simp [record, land, validate, onBackend, found]

theorem record_changes : (record p now b v sum r).effects.changes =
    (validate p now b.key v.healthy v.error v.latency r).effects.changes := by
  cases found : r.get? b.key <;> simp [record, land, validate, onBackend, found]

theorem record_get? : (record p now b v sum r).state.get? k =
    (verdictCall b v).onRecord p now k (r.get? k) := by
  rw [record_state]
  exact validate_get? b.key v.healthy v.error v.latency

theorem record_keyed (keyed : r.Keyed) : (record p now b v sum r).state.Keyed := by
  rw [record_state]
  exact (validate_traced b.key v.healthy v.error v.latency r).keyed keyed

theorem record_about (keyed : r.Keyed) : (record p now b v sum r).effects.about k =
    news (r.get? k) ((record p now b v sum r).state.get? k) := by
  rw [Effects.about, record_changes, record_state]
  exact validate_reports keyed b.key v.healthy v.error v.latency k

structure Underway where
  registry : Registry
  waiting : List Backend
  probing : List Backend
  ended : List Backend
  summary : ValidationSummary

inductive SweepMove where
  | probe (b : Backend)
  | finish (b : Backend)
  | land (now : Instant) (b : Backend) (there : Bool) (effects : Effects)
  | other (s : RegistryStep) (effects : Effects)

namespace SweepMove

def probed? : SweepMove → Option Backend
  | probe b => some b
  | _ => none

def landed? : SweepMove → Option (Backend × Bool)
  | land _ b there _ => some (b, there)
  | _ => none

def other? : SweepMove → Option RegistryStep
  | other s _ => some s
  | _ => none

def own : SweepMove → Effects
  | land _ _ _ effects => effects
  | _ => .none

def Quiet (now : Instant) : SweepMove → Prop
  | land t _ _ _ => t = now
  | other _ _ => False
  | _ => True

def step? (found : Backend → Verdict) : SweepMove → Option RegistryStep
  | land now b _ _ => some ⟨now, .unchanged, verdictCall b (found b)⟩
  | other s _ => some s
  | _ => none

end SweepMove

namespace Underway

open SweepMove

def begun (r : Registry) : Underway := ⟨r, r.all, [], [], {}⟩

def pending (u : Underway) : List Backend := u.waiting ++ u.probing ++ u.ended

/-- A move of a sweep with so many workers whose checks find certain verdicts. Verdicts land once
every check has begun. -/
inductive Step (p : RegistryPolicy) (workers : Nat) (found : Backend → Verdict) :
    Underway → SweepMove → Underway → Prop
  | probe {r : Registry} {b : Backend} {waiting probing ended : List Backend}
    {sum : ValidationSummary} (free : probing.length < workers) :
    Step p workers found ⟨r, b :: waiting, probing, ended, sum⟩ (.probe b)
      ⟨r, waiting, b :: probing, ended, sum⟩
  | finish {r : Registry} {b : Backend} {waiting before behind ended : List Backend}
    {sum : ValidationSummary} :
    Step p workers found ⟨r, waiting, before ++ b :: behind, ended, sum⟩ (.finish b)
      ⟨r, waiting, before ++ behind, b :: ended, sum⟩
  | land {r : Registry} {b : Backend} {probing before behind : List Backend}
    {sum : ValidationSummary} (now : Instant) :
    Step p workers found ⟨r, [], probing, before ++ b :: behind, sum⟩
      (.land now b (r.get? b.key).isSome (record p now b (found b) sum r).effects)
      ⟨(record p now b (found b) sum r).state, [], probing, before ++ behind,
        (record p now b (found b) sum r).result⟩
  | other {u : Underway} (s : RegistryStep) :
    Step p workers found u (.other s (Registry.step p s u.registry).effects)
      { u with registry := (Registry.step p s u.registry).state }

inductive Run (p : RegistryPolicy) (workers : Nat) (found : Backend → Verdict) :
    Underway → List SweepMove → Underway → Prop
  | nil (u : Underway) : Run p workers found u [] u
  | cons {u v w : Underway} {m : SweepMove} {ms : List SweepMove} :
    Step p workers found u m v → Run p workers found v ms w → Run p workers found u (m :: ms) w

end Underway

section Moves

variable (ms : List SweepMove)

def probed : List Backend := ms.filterMap SweepMove.probed?

def landings : List (Backend × Bool) := ms.filterMap SweepMove.landed?

def landed : List Backend := (landings ms).map Prod.fst

def others : List RegistryStep := ms.filterMap SweepMove.other?

def ownEffects : Effects := .concat (ms.map SweepMove.own)

end Moves

def tally (found : Backend → Verdict) (outcomes : List (Backend × Bool))
    (sum : ValidationSummary) : ValidationSummary :=
  outcomes.foldl (fun sum o => sum.add (found o.1) o.2) sum

section Tally

variable {found : Backend → Verdict}

theorem tally_eq (outcomes : List (Backend × Bool)) (sum : ValidationSummary) :
    tally found outcomes sum =
      { checked := sum.checked + outcomes.length
        healthy := sum.healthy + outcomes.countP fun o => o.2 && (found o.1).healthy
        unhealthy := sum.unhealthy + outcomes.countP fun o => o.2 && !(found o.1).healthy
        timedOut := sum.timedOut + outcomes.countP fun o => (found o.1).isOverdue
        skipped := sum.skipped + outcomes.countP fun o => !o.2 } := by
  induction outcomes generalizing sum with
  | nil => rfl
  | cons o outcomes ih =>
    rw [tally, List.foldl_cons, ← tally, ih, ValidationSummary.add]
    simp only [List.length_cons, List.countP_cons, ValidationSummary.mk.injEq]
    refine ⟨by omega, ?_, ?_, ?_, ?_⟩
    · split <;> omega
    · split <;> omega
    · split <;> omega
    · cases o.2
      · simp
        omega
      · simp

theorem outcomes_split (outcomes : List (Backend × Bool)) : outcomes.length =
    (outcomes.countP fun o => o.2 && (found o.1).healthy) +
      (outcomes.countP fun o => o.2 && !(found o.1).healthy) + outcomes.countP fun o => !o.2 := by
  induction outcomes with
  | nil => rfl
  | cons o outcomes ih =>
    simp only [List.length_cons, List.countP_cons]
    cases o.2 <;> cases (found o.1).healthy <;> simp <;> omega

end Tally

namespace Underway

variable {workers : Nat} {found : Backend → Verdict} {u v w : Underway} {m : SweepMove}
  {ms : List SweepMove}

theorem Step.waiting (h : Step p workers found u m v) :
    u.waiting = m.probed?.toList ++ v.waiting := by
  cases h <;> rfl

theorem Step.pending (h : Step p workers found u m v) :
    u.pending.Perm ((m.landed?.map Prod.fst).toList ++ v.pending) := by
  cases h with
  | @probe r b waiting probing ended sum free =>
    change ((b :: waiting ++ probing) ++ ended).Perm ((waiting ++ b :: probing) ++ ended)
    exact List.perm_middle.symm.append_right ended
  | @finish r b waiting before behind ended sum =>
    change ((waiting ++ (before ++ b :: behind)) ++ ended).Perm
      ((waiting ++ (before ++ behind)) ++ b :: ended)
    refine (((List.perm_middle.append_left waiting).trans List.perm_middle).append_right
      ended).trans ?_
    exact List.perm_middle.symm
  | @land r b probing before behind sum now =>
    change (probing ++ (before ++ b :: behind)).Perm (b :: (probing ++ (before ++ behind)))
    exact (List.perm_middle.append_left probing).trans List.perm_middle
  | other s => exact .refl _

theorem Step.summary (h : Step p workers found u m v) :
    v.summary = tally found m.landed?.toList u.summary := by
  cases h with
  | land now =>
    dsimp only
    rw [record_result]
    rfl
  | _ => rfl

theorem Step.get? (h : Step p workers found u m v) (k : BackendKey) : v.registry.get? k =
    (m.step? found).toList.foldl (RegistryStep.onRecord p k) (u.registry.get? k) := by
  cases h with
  | land now =>
    dsimp only
    rw [record_get?]
    rfl
  | other s => exact step_get? s u.registry k
  | _ => rfl

theorem Step.keyed (h : Step p workers found u m v) (keyed : u.registry.Keyed) :
    v.registry.Keyed := by
  cases h with
  | land now =>
    dsimp only
    exact record_keyed keyed
  | other s => exact (step_traced s u.registry).keyed keyed
  | _ => exact keyed

theorem landings_cons (m : SweepMove) (ms : List SweepMove) :
    landings (m :: ms) = m.landed?.toList ++ landings ms := by
  cases h : m.landed? <;> simp [landings, h]

theorem landed_cons (m : SweepMove) (ms : List SweepMove) :
    landed (m :: ms) = (m.landed?.map Prod.fst).toList ++ landed ms := by
  rw [landed, landings_cons, List.map_append]
  cases m.landed? <;> rfl

theorem landed_append (ms ns : List SweepMove) : landed (ms ++ ns) = landed ms ++ landed ns := by
  rw [landed, landings, List.filterMap_append, List.map_append]
  rfl

theorem Run.waiting (h : Run p workers found u ms v) : u.waiting = probed ms ++ v.waiting := by
  induction h with
  | nil u => rfl
  | @cons u v w m ms first _ ih =>
    rw [first.waiting, ih, ← List.append_assoc]
    cases h : m.probed? <;> simp [probed, h]

theorem Run.pending (h : Run p workers found u ms v) :
    u.pending.Perm (landed ms ++ v.pending) := by
  induction h with
  | nil u => exact .refl _
  | @cons u v w m ms first _ ih =>
    rw [landed_cons, List.append_assoc]
    exact first.pending.trans (ih.append_left _)

theorem Run.summary (h : Run p workers found u ms v) :
    v.summary = tally found (landings ms) u.summary := by
  induction h with
  | nil u => rfl
  | @cons u v w m ms first _ ih =>
    rw [ih, first.summary, landings_cons, tally, tally, tally, List.foldl_append]

theorem Run.get? (h : Run p workers found u ms v) (k : BackendKey) : v.registry.get? k =
    (ms.filterMap (SweepMove.step? found)).foldl (RegistryStep.onRecord p k)
      (u.registry.get? k) := by
  induction h with
  | nil u => rfl
  | @cons u v w m ms first _ ih =>
    rw [ih, first.get?]
    cases h : m.step? found <;> simp [h]

theorem foldl_elsewhere {k : BackendKey} (away : ∀ b ∈ landed ms, b.key ≠ k)
    (o : Option Backend) :
    (ms.filterMap (SweepMove.step? found)).foldl (RegistryStep.onRecord p k) o =
      (others ms).foldl (RegistryStep.onRecord p k) o := by
  induction ms generalizing o with
  | nil => rfl
  | cons m ms ih =>
    cases m with
    | probe b => exact ih away o
    | finish b => exact ih away o
    | other s effects => exact ih away _
    | land now b there effects =>
      have here : (RegistryStep.mk now .unchanged (verdictCall b (found b))).onRecord p k o = o :=
        RegistryCall.onRecord_elsewhere rfl (away b List.mem_cons_self)
      have later := ih (fun c hc => away c (List.mem_cons_of_mem b hc)) o
      change (ms.filterMap (SweepMove.step? found)).foldl _ (RegistryStep.onRecord p k o _) = _
      rw [here, later]
      rfl

theorem Run.elsewhere (h : Run p workers found u ms v) {k : BackendKey}
    (away : ∀ b ∈ landed ms, b.key ≠ k) :
    v.registry.get? k = (others ms).foldl (RegistryStep.onRecord p k) (u.registry.get? k) := by
  rw [h.get?, foldl_elsewhere away]

theorem ownEffects_about_cons (m : SweepMove) (ms : List SweepMove) (k : BackendKey) :
    (ownEffects (m :: ms)).about k = m.own.about k ++ (ownEffects ms).about k :=
  Effects.about_append k m.own (ownEffects ms)

theorem Step.own_away (h : Step p workers found u m v) (keyed : u.registry.Keyed)
    {k : BackendKey} (away : ∀ b ∈ landed [m], b.key ≠ k) : m.own.about k = [] := by
  cases h with
  | @land r b probing before behind sum now =>
    have other : b.key ≠ k := away b (List.mem_singleton_self b)
    have same : (record p now b (found b) sum r).state.get? k = r.get? k :=
      record_get?.trans (RegistryCall.onRecord_elsewhere rfl other)
    exact (record_about keyed).trans (same ▸ news_self _)
  | _ => rfl

theorem Run.silent (h : Run p workers found u ms v) (keyed : u.registry.Keyed) {k : BackendKey}
    (away : ∀ b ∈ landed ms, b.key ≠ k) : (ownEffects ms).about k = [] := by
  induction h with
  | nil u => rfl
  | @cons u v w m ms first _ ih =>
    have here : ∀ b ∈ landed [m], b.key ≠ k := fun b hb => away b (by
      rw [landed_cons] at hb ⊢
      exact List.mem_append_left _ (by simpa [landed, landings] using hb))
    have later : ∀ b ∈ landed ms, b.key ≠ k := fun b hb => away b (by
      rw [landed_cons]
      exact List.mem_append_right _ hb)
    rw [ownEffects_about_cons, first.own_away keyed here, ih (first.keyed keyed) later,
      List.append_nil]

theorem Run.append {ns : List SweepMove} (h : Run p workers found u ms v)
    (h' : Run p workers found v ns w) : Run p workers found u (ms ++ ns) w := by
  induction h with
  | nil u => exact h'
  | cons first _ ih => exact .cons first (ih h')

theorem Run.landing {before behind : List SweepMove} {now : Instant} {b : Backend} {there : Bool}
    {effects : Effects}
    (h : Run p workers found u (before ++ .land now b there effects :: behind) v) :
    ∃ w, Run p workers found u before w ∧ there = (w.registry.get? b.key).isSome := by
  induction before generalizing u with
  | nil =>
    cases h with
    | cons first _ =>
      refine ⟨u, .nil u, ?_⟩
      cases first
      rfl
  | cons m before ih =>
    cases h with
    | cons first later =>
      obtain ⟨w, run, same⟩ := ih later
      exact ⟨w, .cons first run, same⟩

section Quiet

variable {now : Instant}

theorem others_of_quiet (quiet : ∀ m ∈ ms, m.Quiet now) : others ms = [] := by
  rw [others, List.filterMap_eq_nil_iff]
  intro m hm
  cases m with
  | other s effects => exact (quiet _ hm).elim
  | _ => rfl

theorem Run.elsewhere_of_quiet (h : Run p workers found u ms v) (quiet : ∀ m ∈ ms, m.Quiet now)
    {k : BackendKey} (away : ∀ b ∈ landed ms, b.key ≠ k) :
    v.registry.get? k = u.registry.get? k := by
  rw [h.elsewhere away, others_of_quiet quiet]
  rfl

theorem Step.there_of_quiet (h : Step p workers found u m v) (quiet : m.Quiet now)
    (k : BackendKey) : (v.registry.get? k).isSome = (u.registry.get? k).isSome := by
  cases h with
  | @land r b probing before behind sum now =>
    change ((record p now b (found b) sum r).state.get? k).isSome = (r.get? k).isSome
    rw [record_get?, verdictCall, RegistryCall.onRecord]
    split
    · exact Option.isSome_map
    · rfl
  | other s => exact quiet.elim
  | _ => rfl

theorem Run.none_missed (h : Run p workers found u ms v) (quiet : ∀ m ∈ ms, m.Quiet now)
    (there : ∀ b ∈ landed ms, (u.registry.get? b.key).isSome = true) :
    ∀ o ∈ landings ms, o.2 = true := by
  induction h with
  | nil u =>
    intro o ho
    cases ho
  | @cons u v w m ms first _ ih =>
    intro o ho
    rw [landings_cons] at ho
    rcases List.mem_append.1 ho with here | later
    · have own : (u.registry.get? o.1.key).isSome = true := there o.1 (by
        rw [landed, landings_cons, List.map_append]
        exact List.mem_append_left _ (List.mem_map_of_mem here))
      cases first with
      | land now =>
        cases List.mem_singleton.1 here
        exact own
      | _ => cases here
    · refine ih (fun m hm => quiet m (List.mem_cons_of_mem _ hm)) (fun b hb => ?_) o later
      rw [first.there_of_quiet (quiet _ List.mem_cons_self)]
      apply there
      rw [landed_cons]
      exact List.mem_append_right _ hb

theorem Run.settled (h : Run p workers found u ms v) (keyed : u.registry.Keyed)
    (quiet : ∀ m ∈ ms, m.Quiet now) (distinct : ((landed ms).map Backend.key).Nodup) {b : Backend}
    (hb : b ∈ landed ms) :
    v.registry.get? b.key =
        (verdictCall b (found b)).onRecord p now b.key (u.registry.get? b.key) ∧
      (ownEffects ms).about b.key = news (u.registry.get? b.key) (v.registry.get? b.key) := by
  induction h with
  | nil u => cases hb
  | @cons u v w m ms first later ih =>
    have still : ∀ m ∈ ms, m.Quiet now := fun m hm => quiet m (List.mem_cons_of_mem _ hm)
    rw [landed_cons, List.map_append] at distinct
    obtain ⟨-, distinct', apart⟩ := List.nodup_append.1 distinct
    rw [ownEffects_about_cons]
    cases first with
    | @probe r c waiting probing ended sum free => exact ih keyed still distinct' hb
    | @finish r c waiting before behind ended sum => exact ih keyed still distinct' hb
    | other s => exact (quiet _ List.mem_cons_self).elim
    | @land r c probing before behind sum t =>
      obtain rfl : t = now := quiet _ List.mem_cons_self
      have keyed' : (record p t c (found c) sum r).state.Keyed := record_keyed keyed
      rw [landed_cons] at hb
      rcases List.mem_append.1 hb with here | there
      · obtain rfl : b = c := List.mem_singleton.1 here
        have away : ∀ d ∈ landed ms, d.key ≠ b.key := fun d hd same =>
          apart b.key List.mem_cons_self d.key (List.mem_map_of_mem hd) same.symm
        rw [later.elsewhere_of_quiet still away, later.silent keyed' away, List.append_nil]
        have after : (record p t b (found b) sum r).state.get? b.key =
          (verdictCall b (found b)).onRecord p t b.key (r.get? b.key) := record_get?
        have told : (record p t b (found b) sum r).effects.about b.key =
          news (r.get? b.key) ((record p t b (found b) sum r).state.get? b.key) := record_about keyed
        exact ⟨after, told⟩
      · have other : c.key ≠ b.key :=
          apart c.key List.mem_cons_self b.key (List.mem_map_of_mem there)
        have same : (record p t c (found c) sum r).state.get? b.key = r.get? b.key :=
          record_get?.trans (RegistryCall.onRecord_elsewhere rfl other)
        obtain ⟨after, told⟩ := ih keyed' still distinct' there
        have silent : (record p t c (found c) sum r).effects.about b.key = [] :=
          (record_about keyed).trans (same ▸ news_self _)
        refine ⟨after.trans (congrArg _ same), (congrArg (· ++ _) silent).trans (told.trans ?_)⟩
        exact congrArg (news · _) same

end Quiet

end Underway

end Validator

end HealthConsensus
