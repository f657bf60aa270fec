import HealthConsensus.Proofs.Registry.History
import HealthConsensus.Proofs.Registry.News
import HealthConsensus.Proofs.Text.Bytes
import HealthConsensus.Validator.Basic
import Mathlib.Algebra.BigOperators.Group.Finset.Basic

namespace HealthConsensus

namespace BackendKey

def Before (a b : BackendKey) : Prop :=
  Bytes.ofString a.service < Bytes.ofString b.service ∨ a.service = b.service ∧
    (Bytes.ofString a.address < Bytes.ofString b.address ∨ a.address = b.address ∧ a.port < b.port)

theorem before_of_le {a b : BackendKey} (h : a.le b = true) (other : a ≠ b) : a.Before b := by
  rw [Before, Bytes.ofString_lt_iff, Bytes.ofString_lt_iff]
  rcases le_iff.1 h with service | ⟨service, address | ⟨address, port⟩⟩
  · exact .inl service
  · exact .inr ⟨service, .inl address⟩
  · have less : a.port < b.port := by
      refine UInt16.lt_of_le_of_ne port fun same => other ?_
      obtain ⟨_, _, _⟩ := a
      cases service
      cases address
      cases same
      rfl
    exact .inr ⟨service, .inr ⟨address, less⟩⟩

end BackendKey

theorem sum_length_filter {α β : Type} [DecidableEq β] (part : α → β) {xs : List α}
    {parts : Finset β} (h : ∀ x ∈ xs, part x ∈ parts) :
    ∑ y ∈ parts, (xs.filter fun x => part x == y).length = xs.length := by
  have covered : ∀ y ∈ (xs.map part : Multiset β), y ∈ parts := by
    intro y hy
    obtain ⟨x, hx, rfl⟩ := List.mem_map.1 (Multiset.mem_coe.1 hy)
    exact h x hx
  have total := Multiset.sum_count_eq_card covered
  simpa only [Multiset.coe_count, Multiset.coe_card, List.length_map, List.count, List.countP_map,
    ← List.countP_eq_length_filter, Function.comp_def] using total

namespace Registry

inductive Reachable (p : RegistryPolicy) : Registry → Prop
  | empty : Reachable p .empty
  | load (now : Instant) (listing : Option (Except Error (List (String × Bytes)))) {r : Registry} :
      Reachable p r → Reachable p (load p now listing r).state
  | step (s : RegistryStep) {r : Registry} : Reachable p r → Reachable p (step p s r).state

variable {p : RegistryPolicy} {r : Registry}

theorem Reachable.keyed (h : Reachable p r) : r.Keyed := by
  induction h with
  | empty => exact Table.keyed_empty
  | load now listing _ ih => exact Loader.load_keyed rfl listing ih
  | step s _ ih => exact (step_traced s _).keyed ih

theorem Reachable.history (h : Reachable p r) (steps : List RegistryStep) :
    Reachable p (history p steps r).state := by
  induction steps generalizing r with
  | nil => exact h
  | cons s steps ih => exact ih (h.step s)

def services (r : Registry) : Finset String := (r.all.map Backend.service).toFinset

/-- What is read from a registry: the list of all backends holds each entry once, in the order of
keys, and the other readers go by that list. -/
structure Consistent (r : Registry) : Prop where
  identity : ∀ k b, r.get? k = some b → b.key = k
  entries : (r.all.map fun b => (b.key, b)).Perm r.entries
  ascending : r.all.Pairwise fun a b => a.key.Before b.key
  ofService : ∀ service, r.ofService service = r.all.filter fun b => b.service == service
  healthyOf : ∀ service,
    r.healthyOf service = (r.ofService service).filter fun b => b.status == .healthy
  isHealthy : ∀ address port, r.isHealthy address port = true ↔
    ∃ service, ∃ b ∈ r.healthyOf service, b.address = address ∧ b.port = port
  size : r.size = r.all.length

theorem all_sorted (r : Registry) : r.all.Pairwise fun a b => a.key.le b.key = true := by
  apply List.pairwise_mergeSort
  · exact fun _ _ _ => BackendKey.le_trans
  · exact fun a b => BackendKey.le_total a.key b.key

theorem all_ascending (keyed : r.Keyed) : r.all.Pairwise fun a b => a.key.Before b.key := by
  -- sorting only gives an order in which keys may be equal
  have distinct : (r.all.map Backend.key).Nodup :=
    ((all_perm r).map Backend.key).nodup_iff.2 (values_distinct keyed)
  exact (all_sorted r).imp₂ (fun _ _ => BackendKey.before_of_le) (List.pairwise_map.1 distinct)

theorem all_keys_eq (keyed : r.Keyed) {ks : List BackendKey} (perm : r.keys.Perm ks)
    (sorted : ks.Pairwise fun k k' => k.le k' = true) : r.all.map Backend.key = ks := by
  have keys : (r.all.map Backend.key).Perm ks :=
    ((all_perm r).map Backend.key).trans (values_keys keyed ▸ perm)
  exact keys.eq_of_pairwise (fun _ _ _ _ => BackendKey.le_antisymm)
    (List.pairwise_map.2 (all_sorted r)) sorted

theorem sorted_filter (keyed : r.Keyed) (keep : Backend → Bool) :
    ((r.values.filter keep).mergeSort fun a b => a.key.le b.key) = r.all.filter keep := by
  rw [sorted_eq ((all_perm r).symm.filter keep) (filter_distinct keyed keep)]
  exact List.mergeSort_of_pairwise ((all_sorted r).filter keep)

theorem entries_eq (keyed : r.Keyed) : (r.values.map fun b => (b.key, b)) = r.entries := by
  have own : ∀ e ∈ r.entries, (e.2.key, e.2) = e := by
    intro e he
    rw [show e.2.key = e.1 from keyed e.1 e.2 (Table.get?_eq_some_iff.2 he)]
  rw [Table.values, List.map_map]
  exact (List.map_congr_left own).trans (List.map_id _)

theorem ofService_eq (keyed : r.Keyed) (service : String) :
    r.ofService service = r.all.filter fun b => b.service == service := sorted_filter keyed _

theorem mem_healthyOf (keyed : r.Keyed) {service : String} {b : Backend} :
    b ∈ r.healthyOf service ↔ b ∈ r.values ∧ b.service = service ∧ b.status = .healthy := by
  rw [healthyOf, ofService_eq keyed, List.mem_filter, List.mem_filter, (all_perm r).mem_iff]
  simp only [beq_iff_eq, and_assoc]

theorem isHealthy_iff (keyed : r.Keyed) (address : String) (port : UInt16) :
    r.isHealthy address port = true ↔
      ∃ service, ∃ b ∈ r.healthyOf service, b.address = address ∧ b.port = port := by
  simp only [isHealthy, atAddress, List.any_eq_true, List.mem_filter, Bool.and_eq_true, beq_iff_eq,
    mem_healthyOf keyed]
  constructor
  · rintro ⟨b, ⟨there, at'⟩, healthy⟩
    exact ⟨b.service, b, ⟨there, rfl, healthy⟩, at'⟩
  · rintro ⟨_, b, ⟨there, -, healthy⟩, at'⟩
    exact ⟨b, ⟨there, at'⟩, healthy⟩

theorem consistent_of_keyed (keyed : r.Keyed) : r.Consistent where
  identity := keyed
  entries := entries_eq keyed ▸ (all_perm r).map _
  ascending := all_ascending keyed
  ofService := ofService_eq keyed
  healthyOf _ := rfl
  isHealthy := isHealthy_iff keyed
  size := (length_all r).symm

end Registry

namespace ValidationStats

structure AddsUp (s : ValidationStats) (r : Registry) : Prop where
  total : s.total = r.size
  divided : s.total = s.healthy + s.unhealthy + s.stale + s.draining
  disagreements : s.disagreements ≤ s.validated
  validated : s.validated ≤ s.total
  healthy : ∀ services, r.services ⊆ services →
    s.healthy = ∑ service ∈ services, (r.healthyOf service).length

theorem length_eq_countP_status (bs : List Backend) : bs.length =
    bs.countP (fun b => b.status == .healthy) + bs.countP (fun b => b.status == .unhealthy) +
      bs.countP (fun b => b.status == .stale) + bs.countP (fun b => b.status == .draining) := by
  induction bs with
  | nil => rfl
  | cons b bs ih =>
    simp only [List.length_cons, List.countP_cons, ih]
    cases b.status <;> simp <;> omega

theorem healthy_eq_sum {r : Registry} (keyed : r.Keyed) {services : Finset String}
    (h : r.services ⊆ services) :
    (ofRegistry r).healthy = ∑ service ∈ services, (r.healthyOf service).length := by
  have covered : ∀ b ∈ r.all.filter fun b => b.status == .healthy, b.service ∈ services := by
    intro b hb
    exact h (List.mem_toFinset.2 (List.mem_map_of_mem (List.mem_of_mem_filter hb)))
  calc (ofRegistry r).healthy
    _ = (r.all.filter fun b => b.status == .healthy).length := List.countP_eq_length_filter
    _ = ∑ service ∈ services, ((r.all.filter fun b => b.status == .healthy).filter
          fun b => b.service == service).length := (sum_length_filter Backend.service covered).symm
    _ = ∑ service ∈ services, (r.healthyOf service).length := by
      refine Finset.sum_congr rfl fun service _ => ?_
      rw [Registry.healthyOf, Registry.ofService_eq keyed, List.filter_comm]

theorem addsUp_of_keyed {r : Registry} (keyed : r.Keyed) : (ofRegistry r).AddsUp r where
  total := Registry.length_all r
  divided := length_eq_countP_status r.all
  disagreements := List.countP_mono_left fun _ _ => Option.isSome_of_any
  validated := List.countP_le_length
  healthy _ := healthy_eq_sum keyed

end ValidationStats

namespace Registry

/-- In every registry that calls and loads lead to, all readers tell of the same entries. -/
theorem readers_agree {p : RegistryPolicy} {r : Registry} (h : Reachable p r) :
    r.Consistent ∧ (ValidationStats.ofRegistry r).AddsUp r :=
  ⟨consistent_of_keyed h.keyed, ValidationStats.addsUp_of_keyed h.keyed⟩

def keptListing : Option (Except Error (List (String × Bytes))) :=
  let kept := Backend.ofRegistration ⟨"a3", "us", "cache", "10.0.0.10", 80, 1, true⟩ (atSecond 0)
  some (.ok [("backends/broken", []), (kept.key.storeKey, kept.toJson.text)])

def mixedSteps : List RegistryStep :=
  [⟨atSecond 1, .unchanged, .register ⟨"a1", "eu", "web", "10.0.0.9", 80, 100, true⟩⟩,
    ⟨atSecond 2, .unchanged, .register ⟨"a2", "eu", "web", "10.0.0.10", 443, 100, true⟩⟩,
    ⟨atSecond 3, .backwards, .register ⟨"a2", "eu", "web", "10.0.0.10", 80, 100, true⟩⟩,
    ⟨atSecond 4, .unchanged, .register ⟨"a2", "eu", "api", "10.0.0.10", 80, 100, false⟩⟩,
    ⟨atSecond 5, .unchanged, .validate ⟨"web", "10.0.0.10", 443⟩ false (some "refused") .zero⟩,
    ⟨atSecond 5, .unchanged, .validate ⟨"web", "10.0.0.10", 80⟩ true none (.ofMilliseconds 3)⟩,
    ⟨atSecond 6, .unchanged, .setOverride ⟨"api", "10.0.0.10", 80⟩ true "outage" "ops"⟩,
    ⟨atSecond 7, .backwards, .drain "a1" ⟨true, "load", none, 0, 0, 0⟩⟩,
    ⟨atSecond 40, .backwards, .sweep⟩]

def mixedRegistry : Registry :=
  let loaded := (load defaultPolicy (atSecond 0) keptListing .empty).state
  (history defaultPolicy mixedSteps loaded).state

theorem readers_of_mixed_registry :
    Reachable defaultPolicy mixedRegistry ∧
      mixedRegistry.Consistent ∧
      mixedRegistry.keys = [⟨"web", "10.0.0.10", 443⟩, ⟨"web", "10.0.0.9", 80⟩,
        ⟨"cache", "10.0.0.10", 80⟩, ⟨"web", "10.0.0.10", 80⟩, ⟨"api", "10.0.0.10", 80⟩] ∧
      mixedRegistry.all.map Backend.key = [⟨"api", "10.0.0.10", 80⟩, ⟨"cache", "10.0.0.10", 80⟩,
        ⟨"web", "10.0.0.10", 80⟩, ⟨"web", "10.0.0.10", 443⟩, ⟨"web", "10.0.0.9", 80⟩] ∧
      (∃ service, ∃ b ∈ mixedRegistry.healthyOf service, b.address = "10.0.0.10" ∧ b.port = 80) ∧
      ¬(∃ service, ∃ b ∈ mixedRegistry.healthyOf service, b.address = "10.0.0.9" ∧ b.port = 80) ∧
      ValidationStats.ofRegistry mixedRegistry = ⟨5, 2, 2, 1, 1, 1, 1⟩ ∧
      (ValidationStats.ofRegistry mixedRegistry).AddsUp mixedRegistry ∧
      2 = ∑ service ∈ mixedRegistry.services, (mixedRegistry.healthyOf service).length := by
  have reachable : Reachable defaultPolicy mixedRegistry :=
    (Reachable.empty.load (atSecond 0) keptListing).history mixedSteps
  obtain ⟨consistent, adds⟩ := readers_agree reachable
  have healthy : mixedRegistry.isHealthy "10.0.0.10" 80 = true := by decide +kernel
  have draining : ¬mixedRegistry.isHealthy "10.0.0.9" 80 = true := by decide +kernel
  have figures : ValidationStats.ofRegistry mixedRegistry = ⟨5, 2, 2, 1, 1, 1, 1⟩ := by
    simp only [ValidationStats.ofRegistry, (all_perm mixedRegistry).countP_eq, length_all]
    decide +kernel
  have sum := adds.healthy _ (Finset.Subset.refl mixedRegistry.services)
  rw [figures] at sum
  exact ⟨reachable, consistent, by decide +kernel,
    all_keys_eq reachable.keyed (by decide +kernel) (by decide +kernel),
    (consistent.isHealthy _ _).1 healthy, mt (consistent.isHealthy _ _).2 draining, figures, adds,
    sum⟩

end Registry

end HealthConsensus
