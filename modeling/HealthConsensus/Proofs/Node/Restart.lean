import HealthConsensus.Proofs.Backend.Record
import HealthConsensus.Proofs.Node.Persistence
import HealthConsensus.Proofs.Node.Starting
import Mathlib.Data.List.Infix
import Mathlib.Data.List.Nodup

namespace HealthConsensus.Node

open WriteQueue

variable {n : Node} {c : Contents} {settings : Settings} {now : Instant}

theorem start_open (settings : Settings) (now : Instant) (c : Contents) :
    (start settings (.memory ⟨c, true⟩) now).1 =
      .ok { fresh settings (.memory ⟨c, true⟩) with
        state := loaded settings (.memory ⟨c, true⟩) now } := start_eq _ _ _

theorem loaded_registry (settings : Settings) (now : Instant) (c : Contents) :
    (loaded settings (.memory ⟨c, true⟩) now).registry =
      Table.empty.setAll backendKind.key
        (backendFiling.listed (Registry.readAt settings.policy.registry now) c) :=
  Loader.load_state _ _

theorem loaded_pins (settings : Settings) (now : Instant) (c : Contents) :
    (loaded settings (.memory ⟨c, true⟩) now).pins =
      Table.empty.setAll pinKind.key (pinFiling.listed Pin.ofRecord? c) :=
  Loader.load_state _ _

theorem storeKeysApart_of_nodup {r : Registry} (h : (r.keys.map BackendKey.storeKey).Nodup) :
    StoreKeysApart r.view := by
  have there (k : BackendKey) (hk : (r.view k).isSome = true) : k ∈ r.keys := by
    by_contra absent
    rw [Table.view, Table.get?_eq_none_iff.2 absent] at hk
    cases hk
  intro k k' hk hk' same
  exact List.inj_on_of_nodup_map h (there k hk) (there k' hk') same

theorem Keeps.restored (h : Keeps n c) (settings : Settings) (now : Instant) :
    ∃ n', (start settings n.flush.1.storage now).1 = .ok n' ∧
      (∀ agentId, n'.state.pins.get? agentId = n.state.pins.get? agentId) ∧
      ∀ k, n'.state.registry.get? k =
        (n.state.registry.get? k).map fun b => b.refresh now settings.registry.staleAfter := by
  obtain ⟨c', kept⟩ := h.flush
  rw [kept.storage]
  refine ⟨_, start_open settings now c', fun agentId => ?_, fun k => ?_⟩
  · have reads : ∀ agentId pin, n.state.pins.view agentId = some pin →
        Pin.ofRecord? (pinFiling.text pin) = some pin := fun _ pin _ => pin.ofRecord?_text
    have restored := kept.pins.mirrors.restored h.keyed.pins (g := id) reads (fun _ => rfl) agentId
    rw [← loaded_pins settings now c', Option.map_id] at restored
    exact restored
  · have reads : ∀ k b, n.state.registry.view k = some b →
        Registry.readAt settings.policy.registry now (backendFiling.text b) =
          some (b.refresh now settings.registry.staleAfter) := by
      intro k b there
      have read : Backend.ofRecord? (backendFiling.text b) = some b :=
        Backend.ofRecord?_text (h.reads k b there)
      rw [Registry.readAt, read]
      rfl
    have restored := kept.backends.mirrors.restored h.keyed.registry reads (fun _ => rfl) k
    rw [← loaded_registry settings now c'] at restored
    exact restored

theorem restart_equivalence (settings settings' : Settings) (now : Instant)
    (actions : List NodeAction)
    (signals : ∀ a ∈ actions, ∀ signal, a.Signals signal → signal.Reads)
    (kept : ∀ w, dropped w ∉ (run actions (fresh settings (.memory .empty))).2.log)
    (apart : ∀ earlier, earlier <+: actions →
      ((run earlier (fresh settings (.memory .empty))).1.state.registry.keys.map
        BackendKey.storeKey).Nodup) :
    ∃ n, (start settings'
          (run actions (fresh settings (.memory .empty))).1.flush.1.storage now).1 = .ok n ∧
      (∀ agentId, n.state.pins.get? agentId =
        (run actions (fresh settings (.memory .empty))).1.state.pins.get? agentId) ∧
      ∀ k, n.state.registry.get? k =
        ((run actions (fresh settings (.memory .empty))).1.state.registry.get? k).map
          fun b => b.refresh now settings'.registry.staleAfter := by
  obtain ⟨c, h⟩ := (Keeps.fresh settings).run signals kept fun earlier hp =>
    storeKeysApart_of_nodup (apart earlier hp)
  exact h.restored settings' now

def restartSettings : Settings := { auth := { serviceTokens := ["secret"] } }

def beforeRestart : List NodeAction :=
  [.call .epoch (.message ⟨"a1", "eu", none, .heartbeat ⟨[⟨"web", "10.0.0.1", 80, 100, true⟩,
      ⟨"web", "10.0.0.2", 80, 100, true⟩], "", some ⟨false, "", none, 12.5, 40, 0.25⟩⟩⟩),
    .write .backends, .call .epoch (.registry (.deregister ⟨"web", "10.0.0.2", 80⟩)),
    .call .epoch (.pins (.authenticate "a1" Pins.firstCertificate "secret"))]

theorem beforeRestart_signals :
    ∀ a ∈ beforeRestart, ∀ signal, a.Signals signal → signal.Reads := by
  intro a ha signal signals
  simp only [beforeRestart, List.mem_cons, List.not_mem_nil, or_false] at ha
  rcases ha with rfl | rfl | rfl | rfl
  · cases signals with
    | call now signals =>
      cases signals with
      | heartbeat m h f payload forecast =>
        cases payload
        cases forecast
        constructor <;> decide +kernel
  · cases signals
  · cases signals with
    | call now signals => cases signals
  · cases signals with
    | call now signals => cases signals

theorem beforeRestart_kept :
    ∀ w, dropped w ∉ (run beforeRestart (fresh restartSettings (.memory .empty))).2.log := by
  have messages : ∀ l ∈ (run beforeRestart (fresh restartSettings (.memory .empty))).2.log,
      l.message ≠ "Persistence queue full, dropping write" := by decide +kernel
  exact fun w hw => messages (dropped w) hw rfl

theorem restart_after_silence :
    ∃ n, (start restartSettings
          (run beforeRestart (fresh restartSettings (.memory .empty))).1.flush.1.storage
          .latest).1 = .ok n ∧
      (n.state.registry.get? ⟨"web", "10.0.0.1", 80⟩).map Backend.status = some .stale ∧
      (n.state.registry.get? ⟨"web", "10.0.0.2", 80⟩).isNone = true ∧
      (n.state.pins.get? "a1").isSome = true := by
  have apart : ∀ earlier ∈ beforeRestart.inits,
      ((run earlier (fresh restartSettings (.memory .empty))).1.state.registry.keys.map
        BackendKey.storeKey).Nodup := by decide +kernel
  obtain ⟨n, started, pins, backends⟩ := restart_equivalence restartSettings restartSettings .latest
    beforeRestart beforeRestart_signals beforeRestart_kept fun earlier hp =>
      apart earlier ((List.mem_inits _ _).2 hp)
  refine ⟨n, started, ?_, ?_, ?_⟩
  · rw [backends, Option.map_map]
    decide +kernel
  · rw [backends]
    decide +kernel
  · rw [pins]
    decide +kernel

end HealthConsensus.Node
