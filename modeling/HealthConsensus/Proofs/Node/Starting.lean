import HealthConsensus.Proofs.Node.Keeping

namespace HealthConsensus

open Operation

section Quiet

variable {σ : Type}

abbrev WritesNothing : σ → Effects → σ → Prop := fun _ e _ => e.writes = []

theorem writesNothing_law : Law (WritesNothing (σ := σ)) where
  silent _ _ := rfl
  comp hd he := List.append_eq_nil_iff.2 ⟨hd, he⟩

end Quiet

theorem Loader.load_writes {κ ν : Type} [DecidableEq κ] (l : Loader κ ν)
    (listing : Option (Except Error (List (String × Bytes)))) (t : Table κ ν) :
    (l.load listing t).effects.writes = [] :=
  load_obeys writesNothing_law (fun _ _ => rfl) listing t

def Storage.HoldsNothing (s : Storage) : Prop :=
  ∀ folder records, s.list? folder = some (.ok records) → records = []

theorem Loader.load_nothing {κ ν : Type} [DecidableEq κ] {l : Loader κ ν} {storage : Storage}
    (h : storage.HoldsNothing) (folder : String) :
    (l.load (storage.list? folder) .empty).state = .empty := by
  match listing : storage.list? folder with
  | none => rfl
  | some (.error _) => rfl
  | some (.ok records) =>
    rw [h folder records listing]
    rfl

namespace Node

variable {n : Node} {settings : Settings} {storage : Storage} {now : Instant}

theorem perform_quiet {α : Type} {a : Operation NodeState α} (blind : a.Blind)
    (h : (a n.state).effects.writes = []) :
    n.perform a = ((a n.state).result, { n with state := (a n.state).state },
      ⟨(a n.state).effects.changes, [], (a n.state).effects.log⟩) := by
  rw [perform_eq blind]
  simp [h, Archive.queueAll, archive]

def loaded (settings : Settings) (storage : Storage) (now : Instant) : NodeState where
  registry :=
    (Registry.load settings.policy.registry now (storage.list? BackendKey.storeFolder) .empty).state
  pins := (Pins.load (storage.list? Pin.storeFolder) .empty).state
  counters := default

def started (n : Node) : Except Error Nat → Except Error Nat → Except StartError Node
  | .error e, _ => .error (.backends e)
  | .ok _, .error e => .error (.pins e)
  | .ok _, .ok _ => .ok n

theorem start_eq (settings : Settings) (storage : Storage) (now : Instant) :
    (start settings storage now).1 =
      started { fresh settings storage with state := loaded settings storage now }
        (Registry.load settings.policy.registry now
          (storage.list? BackendKey.storeFolder) .empty).result
        (Pins.load (storage.list? Pin.storeFolder) .empty).result := by
  let backends := Registry.load settings.policy.registry now
    (storage.list? BackendKey.storeFolder) .empty
  let pins := Pins.load (storage.list? Pin.storeFolder) .empty
  let known : Node := { fresh settings storage with state := ⟨backends.state, .empty, default⟩ }
  let all : Node := { fresh settings storage with state := loaded settings storage now }
  have first : (fresh settings storage).perform ((fresh settings storage).loadBackends now) =
      (backends.result, known, ⟨backends.effects.changes, [], backends.effects.log⟩) :=
    perform_quiet (loadBackends_blind _ _) (Loader.load_writes _ _ _)
  have second : known.perform known.loadPins =
      (pins.result, all, ⟨pins.effects.changes, [], pins.effects.log⟩) :=
    perform_quiet (loadPins_blind _) (Loader.load_writes _ _ _)
  change _ = started all backends.result pins.result
  rw [start, first]
  cases backends.result with
  | error e => rfl
  | ok count =>
    simp only [second]
    cases pins.result <;> rfl

theorem loaded_nothing (h : storage.HoldsNothing) : loaded settings storage now = default := by
  rw [loaded, Registry.load, Pins.load, Loader.load_nothing h _, Loader.load_nothing h _]
  rfl

theorem start_ok (h : (start settings storage now).1 = .ok n) :
    n = { fresh settings storage with state := loaded settings storage now } := by
  rw [start_eq] at h
  revert h
  cases (Registry.load settings.policy.registry now
      (storage.list? BackendKey.storeFolder) .empty).result with
  | error e => exact fun h => nomatch h
  | ok count =>
    cases (Pins.load (storage.list? Pin.storeFolder) .empty).result with
    | error e => exact fun h => nomatch h
    | ok count =>
      intro h
      cases h
      rfl

end Node

end HealthConsensus
