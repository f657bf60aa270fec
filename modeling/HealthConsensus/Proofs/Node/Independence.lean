import HealthConsensus.Proofs.Node.Order
import Mathlib.Data.List.Forall2

namespace HealthConsensus

inductive Interlude where
  | visitBackends (order : Table.Arrangement BackendKey Backend)
  | visitPins (order : Table.Arrangement String Pin)
  | persist (storage : Storage) (backends pins : WriteQueue)

namespace Interlude

def isVisit : Interlude → Bool
  | persist _ _ _ => false
  | _ => true

def visit (n : NodeState) : Interlude → NodeState
  | visitBackends order => { n with registry := order.arrange n.registry }
  | visitPins order => { n with pins := order.arrange n.pins }
  | persist _ _ _ => n

theorem foldl_visit_filter (is : List Interlude) (n : NodeState) :
    (is.filter isVisit).foldl visit n = is.foldl visit n := by
  induction is generalizing n with
  | nil => rfl
  | cons i is ih => cases i <;> exact ih _

end Interlude

namespace NodeState

variable {n n' : NodeState}

theorem Similar.visit_left (h : Similar n n') (i : Interlude) : Similar (i.visit n) n' := by
  cases i with
  | visitBackends order =>
    have view : (order.arrange n.registry).view = n.registry.view := order.view_arrange _
    refine ⟨⟨?_, view.trans h.registry.view⟩, h.pins, h.counters⟩
    intro k b found
    exact h.registry.keyed k b (view ▸ found)
  | visitPins order =>
    have view : (order.arrange n.pins).view = n.pins.view := order.view_arrange _
    refine ⟨h.registry, ⟨?_, view.trans h.pins.view⟩, h.counters⟩
    intro agentId pin found
    exact h.pins.keyed agentId pin (view ▸ found)
  | persist storage backends pins => exact h

theorem Similar.visit_right (h : Similar n n') (i : Interlude) : Similar n (i.visit n') := by
  cases i with
  | visitBackends order =>
    have view : (order.arrange n'.registry).view = n'.registry.view := order.view_arrange _
    exact ⟨⟨h.registry.keyed, h.registry.view.trans view.symm⟩, h.pins, h.counters⟩
  | visitPins order =>
    have view : (order.arrange n'.pins).view = n'.pins.view := order.view_arrange _
    exact ⟨h.registry, ⟨h.pins.keyed, h.pins.view.trans view.symm⟩, h.counters⟩
  | persist storage backends pins => exact h

theorem Similar.visits (h : Similar n n') (is is' : List Interlude) :
    Similar (is.foldl Interlude.visit n) (is'.foldl Interlude.visit n') := by
  induction is generalizing n with
  | cons i is ih => exact ih (h.visit_left i)
  | nil =>
    induction is' generalizing n' with
    | nil => exact h
    | cons i is' ih => exact ih (h.visit_right i)

end NodeState

/-- What happens around a call: interludes before it, and what becomes of the store and the queues
before each record that the call wants written. -/
structure Surroundings where
  before : List Interlude
  during : Nat → Archive → Archive

def Surroundings.andThen (first : Surroundings) (around : Nat → Surroundings) : Nat → Surroundings
  | 0 => first
  | i + 1 => around i

structure Moment where
  answer : NodeAnswer
  changes : List StatusChange
  state : NodeState

structure Moment.Agrees (m m' : Moment) : Prop where
  answer : m.answer = m'.answer
  backends : ∀ k, m.state.registry.get? k = m'.state.registry.get? k
  pins : ∀ agentId, m.state.pins.get? agentId = m'.state.pins.get? agentId
  counters : m.state.counters = m'.state.counters
  news : ∀ k, (m.changes.filter fun c => c.backend.key = k) =
    m'.changes.filter fun c => c.backend.key = k

namespace Node

open NodeState

variable {n n' : Node}

def pass (n : Node) : Interlude → Node
  | .persist storage backends pins =>
    { n with storage := storage, backendWrites := backends, pinWrites := pins }
  | i => { n with state := i.visit n.state }

@[simp] theorem pass_state (n : Node) (i : Interlude) : (n.pass i).state = i.visit n.state := by
  cases i <;> rfl

@[simp] theorem pass_settings (n : Node) (i : Interlude) : (n.pass i).settings = n.settings := by
  cases i <;> rfl

@[simp] theorem foldl_pass_state (is : List Interlude) (n : Node) :
    (is.foldl pass n).state = is.foldl Interlude.visit n.state := by
  induction is generalizing n with
  | nil => rfl
  | cons i is ih => rw [List.foldl_cons, List.foldl_cons, ih, pass_state]

@[simp] theorem foldl_pass_settings (is : List Interlude) (n : Node) :
    (is.foldl pass n).settings = n.settings := by
  induction is generalizing n with
  | nil => rfl
  | cons i is ih => rw [List.foldl_cons, ih, pass_settings]

theorem act_eq_pass (n : Node) (a : NodeAction) (idle : ∀ now c, a ≠ .call now c) :
    ∃ i, (n.act a).1 = n.pass i := by
  have persists (state : (n.act a).1.state = n.state) : ∃ i, (n.act a).1 = n.pass i := by
    have settings := act_settings n a
    refine ⟨.persist (n.act a).1.storage (n.act a).1.backendWrites (n.act a).1.pinWrites, ?_⟩
    rw [pass, ← state, ← settings]
  cases a with
  | call now c => exact absurd rfl (idle now c)
  | arrange order => exact ⟨.visitBackends order, rfl⟩
  | ask w caller => exact persists (withQueue_state _ _ _)
  | write w => exact persists (writeNext_state w n)
  | flush => exact persists rfl

def answer (during : Nat → Archive → Archive) (now : Instant) (c : NodeCall) (n : Node) :
    NodeAnswer × Node × Observed := n.performAmid during (c.answered n.policy now)

def moment (during : Nat → Archive → Archive) (now : Instant) (c : NodeCall) (n : Node) : Moment :=
  let (answer, after, seen) := n.answer during now c
  ⟨answer, seen.changes, after.state⟩

def moments : List (Instant × NodeCall) → (Nat → Surroundings) → Node → List Moment
  | [], _, _ => []
  | (now, c) :: calls, around, n =>
    let n := (around 0).before.foldl pass n
    n.moment (around 0).during now c ::
      moments calls (fun i => around (i + 1)) (n.answer (around 0).during now c).2.1

theorem moment_eq (during : Nat → Archive → Archive) (now : Instant) (c : NodeCall) (n : Node) :
    n.moment during now c =
      let o := c.answered n.policy now n.state
      ⟨o.result, o.effects.changes, o.state⟩ := by
  rw [moment, answer, performAmid_eq (c.answered_blind _ _)]

theorem answer_state (during : Nat → Archive → Archive) (now : Instant) (c : NodeCall) (n : Node) :
    (n.answer during now c).2.1.state = (c.answered n.policy now n.state).state :=
  performAmid_state (c.answered_blind _ _) _ _

theorem answer_settings (during : Nat → Archive → Archive) (now : Instant) (c : NodeCall)
    (n : Node) : (n.answer during now c).2.1.settings = n.settings :=
  performAmid_settings (c.answered_blind _ _) _ _

theorem moments_agree (calls : List (Instant × NodeCall)) (around around' : Nat → Surroundings)
    (settings : n.settings = n'.settings) (similar : Similar n.state n'.state) :
    List.Forall₂ Moment.Agrees (moments calls around n) (moments calls around' n') := by
  induction calls generalizing around around' n n' with
  | nil => exact .nil
  | cons call calls ih =>
    obtain ⟨now, c⟩ := call
    let before := (around 0).before.foldl pass n
    let before' := (around' 0).before.foldl pass n'
    have policy : before.policy = before'.policy := by
      simp [before, before', Node.policy, settings]
    have known : Similar before.state before'.state := by
      simpa [before, before'] using similar.visits (around 0).before (around' 0).before
    obtain ⟨result, state, news⟩ :=
      c.answered_respects before.policy now before.state before'.state known
    refine .cons ?_ (ih _ _ ?_ ?_)
    · rw [moment_eq, moment_eq, ← policy]
      exact ⟨result, state.registry.get?, state.pins.get?, state.counters, news⟩
    · rw [answer_settings, answer_settings, foldl_pass_settings, foldl_pass_settings, settings]
    · rw [answer_state, answer_state, ← policy]
      exact state

theorem moments_eq (calls : List (Instant × NodeCall)) {around around' : Nat → Surroundings}
    (visits : ∀ i, (around i).before.filter Interlude.isVisit =
      (around' i).before.filter Interlude.isVisit)
    (settings : n.settings = n'.settings) (state : n.state = n'.state) :
    moments calls around n = moments calls around' n' := by
  induction calls generalizing around around' n n' with
  | nil => rfl
  | cons call calls ih =>
    obtain ⟨now, c⟩ := call
    let before := (around 0).before.foldl pass n
    let before' := (around' 0).before.foldl pass n'
    have policy : before.policy = before'.policy := by
      simp [before, before', Node.policy, settings]
    have known : before.state = before'.state := by
      simp only [before, before', foldl_pass_state]
      rw [← Interlude.foldl_visit_filter, visits 0, Interlude.foldl_visit_filter, state]
    have first : before.moment (around 0).during now c = before'.moment (around' 0).during now c := by
      rw [moment_eq, moment_eq, policy, known]
    refine congrArg₂ List.cons first (ih (fun i => visits (i + 1)) ?_ ?_)
    · rw [answer_settings, answer_settings, foldl_pass_settings, foldl_pass_settings, settings]
    · rw [answer_state, answer_state, policy, known]

def verdicts : List NodeAction → Node → List Moment
  | [], _ => []
  | .call now c :: as, n => n.moment Keeper.undisturbed now c :: verdicts as (n.act (.call now c)).1
  | a :: as, n => verdicts as (n.act a).1

def calls : List NodeAction → List (Instant × NodeCall) :=
  List.filterMap fun
    | .call now c => some (now, c)
    | _ => none

theorem act_call_eq (now : Instant) (c : NodeCall) (n : Node) :
    (n.act (.call now c)).1 = (n.answer Keeper.undisturbed now c).2.1 := by
  have asked : n.answer Keeper.undisturbed now c = n.perform (c.answered n.policy now) := rfl
  rw [act, asked, perform_eq (c.operation_blind _ _), perform_eq (c.answered_blind _ _),
    c.answered_quietly]

theorem moments_pass (cs : List (Instant × NodeCall)) (around : Nat → Surroundings) (n : Node)
    (i : Interlude) : ∃ around', moments cs around' n = moments cs around (n.pass i) := by
  refine ⟨.andThen ⟨i :: (around 0).before, (around 0).during⟩ fun j => around (j + 1), ?_⟩
  cases cs <;> rfl

theorem verdicts_eq_moments (as : List NodeAction) (n : Node) :
    ∃ around, verdicts as n = moments (calls as) around n := by
  induction as generalizing n with
  | nil => exact ⟨fun _ => ⟨[], Keeper.undisturbed⟩, rfl⟩
  | cons a as ih =>
    obtain ⟨around, later⟩ := ih (n.act a).1
    by_cases call : ∃ now c, a = .call now c
    · obtain ⟨now, c, rfl⟩ := call
      refine ⟨.andThen ⟨[], Keeper.undisturbed⟩ around, ?_⟩
      rw [act_call_eq] at later
      rw [verdicts, act_call_eq, later]
      rfl
    · have idle : ∀ now c, a ≠ .call now c := fun now c same => call ⟨now, c, same⟩
      obtain ⟨i, passed⟩ := act_eq_pass n a idle
      rw [passed] at later
      obtain ⟨around', same⟩ := moments_pass (calls as) around n i
      have skipped : verdicts (a :: as) n = verdicts as (n.act a).1 ∧ calls (a :: as) = calls as := by
        cases a with
        | call now c => exact absurd rfl (idle now c)
        | _ => exact ⟨rfl, rfl⟩
      exact ⟨around', by rw [skipped.1, skipped.2, passed, later, same]⟩

/-- Whatever becomes of the store and the queues before and during calls, and whatever the orders in
which the backends and the pins are visited, the answers, the knowledge and the news are the same;
and nothing at all differs if the orders do not. So runs with the same calls come to the same. -/
theorem verdicts_without_store (settings : Settings) (storage storage' : Storage) :
    (∀ cs around around',
      List.Forall₂ Moment.Agrees (moments cs around (fresh settings storage))
          (moments cs around' (fresh settings storage')) ∧
        ((∀ i, (around i).before.filter Interlude.isVisit =
            (around' i).before.filter Interlude.isVisit) →
          moments cs around (fresh settings storage) =
            moments cs around' (fresh settings storage'))) ∧
    ∀ as as', calls as = calls as' →
      List.Forall₂ Moment.Agrees (verdicts as (fresh settings storage))
        (verdicts as' (fresh settings storage')) := by
  have nothing : Similar default default :=
    ⟨⟨Table.keyed_empty, rfl⟩, ⟨Table.keyed_empty, rfl⟩, rfl⟩
  refine ⟨fun cs around around' => ⟨moments_agree cs around around' rfl nothing,
    fun visits => moments_eq cs visits rfl rfl⟩, fun as as' same => ?_⟩
  obtain ⟨around, first⟩ := verdicts_eq_moments as (fresh settings storage)
  obtain ⟨around', second⟩ := verdicts_eq_moments as' (fresh settings storage')
  rw [first, second, ← same]
  exact moments_agree (calls as) around around' rfl nothing

def trio : NodeCall :=
  .message ⟨"a1", "eu", none, .heartbeat ⟨[⟨"web", "10.0.0.1", 80, 100, true⟩,
    ⟨"web", "10.0.0.2", 80, 100, true⟩, ⟨"web", "10.0.0.3", 80, 100, true⟩], "", none⟩⟩

def clogging : Surroundings where
  before := [.persist .hanging (.empty 1) (.empty 1)]
  during i archive :=
    if i = 1 then { archive with backendWrites := archive.backendWrites.emptied } else archive

def lossLine : LogLine :=
  .warn "Persistence queue full, dropping write" [("key", (BackendKey.mk "web" "10.0.0.3" 80).storeKey)]

theorem verdicts_of_lost_write :
    let unstored := fresh {} .absent
    let stored := clogging.before.foldl pass (fresh {} .hanging)
    moments [(.epoch, trio)] (fun _ => ⟨[], Keeper.undisturbed⟩) unstored =
        moments [(.epoch, trio)] (fun _ => clogging) (fresh {} .hanging) ∧
      (unstored.answer Keeper.undisturbed .epoch trio).2.2.changes.length = 3 ∧
      lossLine ∉ (unstored.answer Keeper.undisturbed .epoch trio).2.2.log ∧
      lossLine ∈ (stored.answer clogging.during .epoch trio).2.2.log := by
  obtain ⟨same, -⟩ := verdicts_without_store {} .absent .hanging
  refine ⟨(same [(.epoch, trio)] _ (fun _ => clogging)).2 fun _ => rfl, ?_, ?_, ?_⟩
  · decide +kernel
  · decide +kernel
  · decide +kernel

end Node

end HealthConsensus
