import HealthConsensus.Proofs.Registry.History

namespace HealthConsensus

abbrev Statuses := BackendKey → Option BackendStatus

namespace StatusChange

def replayOver (s : Statuses) (c : StatusChange) : Statuses :=
  Function.update s c.backend.key c.after

/-- A change names the status that the log holds for its backend, differs from it, and shows the
backend with the new status, or with the last one if it is a removal. -/
structure Faithful (s : Statuses) (c : StatusChange) : Prop where
  before : c.before = s c.backend.key
  differs : c.before ≠ c.after
  snapshot : some c.backend.status = c.after.or c.before

end StatusChange

namespace Statuses

def replay (s : Statuses) (cs : List StatusChange) : Statuses := cs.foldl StatusChange.replayOver s

def FaithfulLog : Statuses → List StatusChange → Prop
  | _, [] => True
  | s, c :: cs => c.Faithful s ∧ FaithfulLog (c.replayOver s) cs

theorem replay_append (s : Statuses) (cs ds : List StatusChange) :
    s.replay (cs ++ ds) = (s.replay cs).replay ds := List.foldl_append

theorem faithfulLog_append {s : Statuses} {cs ds : List StatusChange} (h : s.FaithfulLog cs)
    (h' : (s.replay cs).FaithfulLog ds) : s.FaithfulLog (cs ++ ds) := by
  induction cs generalizing s with
  | nil => exact h'
  | cons c cs ih => exact ⟨h.1, ih h.2 h'⟩

end Statuses

def Backends.statuses (v : Backends) : Statuses := fun k => (v k).map Backend.status

def Registry.statuses (r : Registry) : Statuses := Backends.statuses r.view

section Moves

open Backends Statuses

variable {v v' : Backends} {m : Move Backend}

theorem statuses_apply (m : Move Backend) (v : Backends) :
    statuses (m.apply backendKind v) =
      Function.update (statuses v) (m.key backendKind) (m.after.map Backend.status) := by
  funext k
  by_cases h : k = m.key backendKind <;> simp [statuses, Move.apply, h]

theorem fits_changes (h : m.Fits backendKind v) :
    (statuses v).FaithfulLog (backendKind.changes m) ∧
      (statuses v).replay (backendKind.changes m) = statuses (m.apply backendKind v) := by
  rw [statuses_apply]
  have before : statuses v (m.key backendKind) = m.before.map Backend.status := congrArg _ h.found
  cases m with
  | create b =>
    refine ⟨⟨⟨?_, ?_, ?_⟩, trivial⟩, rfl⟩
    · exact before.symm
    · simp
    · simp
  | remove b =>
    refine ⟨⟨⟨?_, ?_, ?_⟩, trivial⟩, rfl⟩
    · exact before.symm
    · simp
    · simp
  | renew b next =>
    have key : next.key = b.key := h.keeps next rfl
    by_cases same : b.status = next.status
    · have none : backendKind.changes (.renew b next) = [] := by
        simp [backendKind, Backend.changeTo, same]
      rw [none]
      refine ⟨trivial, ?_⟩
      -- without a change of status the log already holds what the move leaves
      have stays : (Move.renew b next).after.map Backend.status =
          statuses v ((Move.renew b next).key backendKind) := by
        rw [before]
        exact congrArg some same.symm
      rw [stays, Function.update_eq_self]
      rfl
    · have one : backendKind.changes (.renew b next) =
          [⟨next, some b.status, some next.status⟩] := by
        simp [backendKind, Backend.changeTo, same]
      rw [one]
      refine ⟨⟨⟨?_, ?_, ?_⟩, trivial⟩, ?_⟩
      · exact ((congrArg (statuses v) key).trans before).symm
      · simpa using same
      · simp
      · simp [replay, StatusChange.replayOver, key, Move.key, Move.after]

theorem path_changes {ms : List (Move Backend)} (h : Path backendKind v ms v') :
    (statuses v).FaithfulLog (ms.flatMap backendKind.changes) ∧
      (statuses v).replay (ms.flatMap backendKind.changes) = statuses v' := by
  induction h with
  | nil v => exact ⟨trivial, rfl⟩
  | cons hm _ ih =>
    obtain ⟨faithful, result⟩ := fits_changes hm
    rw [List.flatMap_cons, replay_append, result]
    exact ⟨faithfulLog_append faithful (result ▸ ih.1), ih.2⟩

end Moves

namespace Registry

variable {p : RegistryPolicy}

theorem Traced.replay {kinds : Move Backend → Prop} {r r' : Registry} {e : Effects}
    (h : Traced kinds r e r') (keyed : r.Keyed) :
    r.statuses.FaithfulLog e.changes ∧ r.statuses.replay e.changes = r'.statuses := by
  obtain ⟨ms, -, path, changes, -⟩ := h keyed
  rw [changes]
  exact path_changes path

theorem changes_log_history {r : Registry} (h : Initial p r) (steps : List RegistryStep) :
    r.statuses.FaithfulLog (history p steps r).effects.changes ∧
      r.statuses.replay (history p steps r).effects.changes =
        (history p steps r).state.statuses :=
  (history_traced steps r).replay h.keyed

def usualPolicy : RegistryPolicy := ⟨.ofSeconds 30, .ofSeconds 300, 0.3⟩

def outage : List RegistryStep :=
  let at' (seconds : Nat) := Instant.epoch.advance (.ofSeconds seconds)
  [⟨at' 0, .unchanged, .register ⟨"a1", "eu", "web", "10.0.0.1", 80, 100, true⟩⟩,
    ⟨at' 1, .unchanged, .register ⟨"a2", "eu", "web", "10.0.0.2", 80, 100, true⟩⟩,
    ⟨at' 5, .backwards, .drain "a1" ⟨true, "load", none, 0, 0, 0⟩⟩,
    ⟨at' 40, .backwards, .sweep⟩,
    ⟨at' 301, .unchanged, .sweep⟩]

theorem changes_log_outage :
    Initial usualPolicy .empty ∧
      Statuses.FaithfulLog (statuses .empty) (history usualPolicy outage .empty).effects.changes ∧
      Statuses.replay (statuses .empty) (history usualPolicy outage .empty).effects.changes =
        (history usualPolicy outage .empty).state.statuses ∧
      (history usualPolicy outage .empty).effects.changes.map (fun c => (c.before, c.after)) =
        [(none, some .healthy), (none, some .healthy), (some .healthy, some .draining),
          (some .healthy, some .stale), (some .draining, none)] :=
  have log := changes_log_history (p := usualPolicy) .empty outage
  ⟨.empty, log.1, log.2, by decide +kernel⟩

end Registry

end HealthConsensus
