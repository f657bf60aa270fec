import HealthConsensus.Proofs.Moves
import HealthConsensus.Registry.Update

namespace HealthConsensus

abbrev Backends := BackendKey → Option Backend

def backendKind : RecordKind BackendKey Backend where
  key := Backend.key
  put := .putBackend
  drop := .dropBackend
  changes
    | .create b => [⟨b, none, some b.status⟩]
    | .renew b next => (b.changeTo next).toList
    | .remove b => [⟨b, some b.status, none⟩]

@[simp] theorem backendKind_key (b : Backend) : backendKind.key b = b.key := rfl

namespace Registry

abbrev Keyed (r : Registry) : Prop := backendKind.Keyed r.view

abbrev Traced (kinds : Move Backend → Prop) : Registry → Effects → Registry → Prop :=
  Table.Traced backendKind kinds

theorem traced_law (kinds : Move Backend → Prop) : Operation.Law (Traced kinds) :=
  Table.traced_law backendKind kinds

variable {kinds : Move Backend → Prop} {r : Registry} {k : BackendKey} {b next : Backend}

theorem keyed_of_get? (keyed : r.Keyed) (h : r.get? k = some b) : b.key = k := keyed k b h

theorem update_traced {p : RegistryPolicy} {now : Instant} (found : r.get? k = some b)
    (key : next.key = b.key) (hk : kinds (.renew b (next.refresh now p.staleAfter))) :
    (update p now k b next).Obeys (Traced kinds) r := by
  have own (keyed : r.Keyed) : b.key = k := keyed_of_get? keyed found
  refine Table.traced_single hk (fun keyed => ⟨?_, ?_⟩) (fun keyed => ?_) ?_ fun _ => ?_
  · change r.view b.key = some b
    rw [own keyed]
    exact found
  · intro c hc
    cases hc
    exact key
  · simp [update, Table.view_set, Move.apply, Move.key, Move.after, own keyed]
  · simp [update, Backend.renewal, backendKind]
  · simp [update, Backend.renewal, Move.writes, backendKind]

end Registry

inductive RegistryCall where
  | register (r : Registration)
  | deregister (k : BackendKey)
  | validate (k : BackendKey) (healthy : Bool) (error : Option String) (latency : Duration)
  | setOverride (k : BackendKey) (healthy : Bool) (reason operator : String)
  | clearOverride (k : BackendKey)
  | drain (agentId : String) (signal : Drain)
  | sweep

inductive RegistryReply where
  | done (result : Except Error Unit)
  | drained (count : Nat)
  | swept (report : SweepReport)

namespace RegistryCall

variable (p : RegistryPolicy) (now : Instant)

def operation : RegistryCall → Operation Registry RegistryReply
  | register r => do return .done (← Registry.register p now r)
  | deregister k => do return .done (← Registry.deregister k)
  | validate k healthy error latency => do
    return .done (← Registry.validate p now k healthy error latency)
  | setOverride k healthy reason operator => do
    return .done (← Registry.setOverride p now k healthy reason operator)
  | clearOverride k => do return .done (← Registry.clearOverride p now k)
  | drain agentId signal => do return .drained (← Registry.drain p now agentId signal)
  | sweep => do return .swept (← Registry.sweep p now)

inductive Makes : RegistryCall → Move Backend → Prop
  | appear (r : Registration) :
      Makes (register r) (.create ((Backend.ofRegistration r now).refresh now p.staleAfter))
  | reappear (r : Registration) (b : Backend) : b.key = r.key →
      Makes (register r) (.renew b ((b.reregister r now).refresh now p.staleAfter))
  | leave (b : Backend) : Makes (deregister b.key) (.remove b)
  | check (b : Backend) (healthy : Bool) (error : Option String) (latency : Duration) :
      Makes (validate b.key healthy error latency)
        (.renew b ((b.validate p.smoothing healthy error latency now).refresh now p.staleAfter))
  | overrule (b : Backend) (healthy : Bool) (reason operator : String) :
      Makes (setOverride b.key healthy reason operator)
        (.renew b ({ b with override := some ⟨healthy, reason, operator, now⟩ }.refresh now
          p.staleAfter))
  | yield (b : Backend) : b.override.isSome →
      Makes (clearOverride b.key)
        (.renew b ({ b with override := none }.refresh now p.staleAfter))
  | shed (b : Backend) (signal : Drain) :
      Makes (drain b.agentId signal) (.renew b (b.applyDrain signal now p.staleAfter))
  | expire (b : Backend) : b.isExpired p now → Makes sweep (.remove b)
  | age (b : Backend) : b.isExpired p now = false → b.status ≠ b.statusAt now p.staleAfter →
      Makes sweep (.renew b (b.refresh now p.staleAfter))

end RegistryCall

namespace Registry

open Operation RegistryCall

variable {p : RegistryPolicy} {now : Instant} {kinds : Move Backend → Prop} {r : Registry}

theorem register_traced (x : Registration) (r : Registry) :
    (register p now x).Obeys (Traced (Makes p now (.register x))) r := by
  unfold register
  split
  · exact (traced_law _).pure _ _
  · split
    · exact (traced_law _).pure _ _
    · apply Obeys.readState
      cases found : r.get? x.key with
      | some b =>
        -- the key of a backend in the table is known only when the table is well formed
        intro keyed
        have key : b.key = x.key := keyed_of_get? keyed found
        exact (traced_law _).bind (update_traced found rfl (.reappear x b key))
          ((traced_law _).pure _ _) keyed
      | none =>
        refine Table.traced_single (Makes.appear x) (fun _ => ⟨found, ?_⟩) (fun _ => ?_) rfl
          fun _ => rfl
        · intro c hc
          cases hc
          rfl
        · exact Table.view_set _ _ _

theorem onBackend_traced {k : BackendKey} {change : Backend → Operation Registry Unit}
    {r : Registry} (h : ∀ b, r.get? k = some b → b.key = k → (change b).Obeys (Traced kinds) r) :
    (onBackend k change).Obeys (Traced kinds) r := by
  apply Obeys.readState
  cases found : r.get? k with
  | none => exact (traced_law _).pure _ _
  | some b =>
    intro keyed
    exact (traced_law _).bind (h b found (keyed_of_get? keyed found)) ((traced_law _).pure _ _) keyed

theorem deregister_traced (p : RegistryPolicy) (now : Instant) (k : BackendKey) (r : Registry) :
    (deregister k).Obeys (Traced (Makes p now (.deregister k))) r := by
  refine onBackend_traced fun b found key => ?_
  subst key
  refine Table.traced_single (Makes.leave b) (fun _ => ⟨found, ?_⟩) (fun _ => Table.view_erase _ _)
    rfl fun _ => rfl
  intro c hc
  cases hc

theorem validate_traced (k : BackendKey) (healthy : Bool) (error : Option String)
    (latency : Duration) (r : Registry) :
    (validate p now k healthy error latency).Obeys
      (Traced (Makes p now (.validate k healthy error latency))) r := by
  refine onBackend_traced fun b found key => ?_
  subst key
  exact update_traced found rfl (.check b healthy error latency)

theorem setOverride_traced (k : BackendKey) (healthy : Bool) (reason operator : String)
    (r : Registry) :
    (setOverride p now k healthy reason operator).Obeys
      (Traced (Makes p now (.setOverride k healthy reason operator))) r := by
  refine onBackend_traced fun b found key => ?_
  subst key
  exact (traced_law _).bind ((traced_law _).log _ _)
    (update_traced found rfl (.overrule b healthy reason operator))

theorem clearOverride_traced (k : BackendKey) (r : Registry) :
    (clearOverride p now k).Obeys (Traced (Makes p now (.clearOverride k))) r := by
  refine onBackend_traced fun b found key => ?_
  subst key
  split
  · next h =>
    exact (traced_law _).bind ((traced_law _).log _ _) (update_traced found rfl (.yield b h))
  · exact (traced_law _).pure _ _

theorem mem_values {b : Backend} : b ∈ r.values ↔ ∃ k, r.get? k = some b := by
  simp [Table.values, Table.get?_eq_some_iff]

theorem values_keys (keyed : r.Keyed) : r.values.map Backend.key = r.keys := by
  simp only [Table.values, Table.keys, List.map_map]
  refine List.map_congr_left fun e he => ?_
  exact keyed e.1 e.2 (Table.get?_eq_some_iff.2 he)

theorem values_distinct (keyed : r.Keyed) : (r.values.map Backend.key).Nodup :=
  values_keys keyed ▸ r.distinct

theorem found_of_mem_values (keyed : r.Keyed) {b : Backend} (h : b ∈ r.values) :
    r.view b.key = some b := by
  obtain ⟨k, hk⟩ := mem_values.1 h
  rwa [keyed_of_get? keyed hk]

theorem mem_values_key (keyed : r.Keyed) {k : BackendKey} {b : Backend} (h : r.get? k = some b) :
    b ∈ r.values ∧ b.key = k := ⟨mem_values.2 ⟨k, h⟩, keyed_of_get? keyed h⟩

theorem owned_keys (keyed : r.Keyed) {owns : Backend → Bool} {k : BackendKey} {b : Backend}
    (found : r.get? k = some b) : k ∈ (r.values.filter owns).map Backend.key ↔ owns b = true := by
  obtain ⟨there, key⟩ := mem_values_key keyed found
  constructor
  · intro h
    obtain ⟨c, hc, hk⟩ := List.mem_map.1 h
    obtain ⟨hc, owned⟩ := List.mem_filter.1 hc
    have same : r.view k = some c := hk ▸ found_of_mem_values keyed hc
    rw [show r.view k = some b from found, Option.some.injEq] at same
    exact same ▸ owned
  · intro h
    exact List.mem_map.2 ⟨b, List.mem_filter.2 ⟨there, h⟩, key⟩

theorem filter_distinct (keyed : r.Keyed) (keep : Backend → Bool) :
    ((r.values.filter keep).map Backend.key).Nodup :=
  (values_distinct keyed).sublist (List.filter_sublist.map Backend.key)

theorem drain_apply (agentId : String) (signal : Drain) (r : Registry) :
    drain p now agentId signal r =
      ⟨(r.values.filter fun b => b.agentId == agentId).length,
        r.map fun _ b => if b.agentId == agentId then b.applyDrain signal now p.staleAfter else b,
        .concat ((r.values.filter fun b => b.agentId == agentId).map
          (drainEffects p now agentId signal))⟩ := by
  simp [drain, forEach_effect]

theorem drain_traced (agentId : String) (signal : Drain) (r : Registry) :
    (drain p now agentId signal).Obeys (Traced (Makes p now (.drain agentId signal))) r := by
  intro keyed
  let owned := r.values.filter fun b => b.agentId == agentId
  let change := fun b : Backend => b.applyDrain signal now p.staleAfter
  refine ⟨owned.map fun b => .renew b (change b), ?_, ?_, ?_, ?_⟩
  · intro m hm
    obtain ⟨b, hb, rfl⟩ := List.mem_map.1 hm
    have owner : b.agentId = agentId := by simpa using (List.mem_filter.1 hb).2
    exact owner ▸ .shed b signal
  · have path := path_renew (K := backendKind) (v := r.view) owned change (fun b => rfl)
      (filter_distinct keyed _) fun b hb => found_of_mem_values keyed (List.mem_filter.1 hb).1
    have after : (drain p now agentId signal r).state.view =
        fun k => (r.view k).map fun b => if k ∈ owned.map Backend.key then change b else b := by
      funext k
      simp only [Table.view, drain_apply, Table.get?_map]
      cases found : r.get? k with
      | none => rfl
      | some b => simp [owned, owned_keys keyed found, change]
    exact after ▸ path
  · simp [drain_apply, drainEffects, Backend.renewal, backendKind, List.flatMap_map, owned, change]
  · simp [drain_apply, drainEffects, Backend.renewal, Move.writes, backendKind, List.flatMap_map, owned,
      change]

theorem flatMap_of_ite {α β : Type} (xs : List α) (test : α → Bool) (f : α → List β) :
    (xs.flatMap fun x => if test x then [] else f x) = (xs.filter fun x => !test x).flatMap f := by
  induction xs with
  | nil => rfl
  | cons x xs ih => cases h : test x <;> simp [h, ih]

theorem refresh_of_status_eq {b : Backend} {staleAfter : Duration}
    (h : b.status = b.statusAt now staleAfter) : b.refresh now staleAfter = b := by
  rw [Backend.refresh, ← h]

theorem values_filter (keep : Backend → Bool) :
    Table.values (r.filter fun _ b => keep b) = r.values.filter keep := by
  simp [Table.values, Table.filter, List.filter_map, Function.comp_def]

theorem expiry_changes (keep : Backend → Bool) :
    ((Table.entries (r.filter fun _ b => keep b)).flatMap fun e => (expiryEffects e.1 e.2).changes) =
      ((r.values.filter keep).map .remove).flatMap backendKind.changes := by
  rw [← values_filter, Table.values, List.map_map, List.flatMap_map]
  rfl

theorem expiry_writes (keyed : r.Keyed) (keep : Backend → Bool) :
    ((Table.entries (r.filter fun _ b => keep b)).flatMap fun e => (expiryEffects e.1 e.2).writes) =
      ((r.values.filter keep).map .remove).flatMap (Move.writes backendKind) := by
  rw [← values_filter, Table.values, List.map_map, List.flatMap_map]
  rw [List.flatMap_def, List.flatMap_def]
  congr 1
  refine List.map_congr_left fun e he => ?_
  have key : e.2.key = e.1 := keyed e.1 e.2 (Table.get?_eq_some_iff.2 (List.mem_filter.1 he).1)
  simp [expiryEffects, Backend.removal, Move.writes, backendKind, key]

def ages (p : RegistryPolicy) (now : Instant) (b : Backend) : Bool :=
  !b.isExpired p now && decide (b.status ≠ b.statusAt now p.staleAfter)

theorem age_effects {β : Type} (part : Effects → List β) (silent : part .none = [])
    (only : ∀ lines e, part (⟨[], [], lines⟩ ++ e) = part e) :
    ((r.values.filter fun b => !b.isExpired p now).flatMap fun b => part (sweepEffects p now b)) =
      (r.values.filter (ages p now)).flatMap fun b =>
        part (b.renewal (b.refresh now p.staleAfter)) := by
  have each : ∀ b, part (sweepEffects p now b) =
      if decide (b.status = b.statusAt now p.staleAfter) then []
      else part (b.renewal (b.refresh now p.staleAfter)) := by
    intro b
    by_cases h : b.status = b.statusAt now p.staleAfter
    · simp [sweepEffects, Backend.refresh, ← h, silent]
    · simp [sweepEffects, Backend.refresh, h, only]
  simp only [each, flatMap_of_ite, List.filter_filter]
  congr 2
  funext b
  simp [ages, Bool.and_comm]

theorem sweep_apply (r : Registry) :
    sweep p now r =
      ⟨⟨(r.filter fun _ b => b.isExpired p now).size,
          (Table.values (r.filter fun _ b => !b.isExpired p now)).countP fun b =>
            b.status != b.statusAt now p.staleAfter⟩,
        (r.filter fun _ b => !b.isExpired p now).map fun _ b => b.refresh now p.staleAfter,
        .concat ((r.filter fun _ b => b.isExpired p now).entries.map fun e =>
            expiryEffects e.1 e.2) ++
          .concat ((Table.values (r.filter fun _ b => !b.isExpired p now)).map
            (sweepEffects p now))⟩ := by
  simp [sweep, forEach_effect]

theorem sweep_traced (r : Registry) :
    (sweep p now).Obeys (Traced (Makes p now .sweep)) r := by
  intro keyed
  let gone := r.values.filter fun b => b.isExpired p now
  let aged := r.values.filter (ages p now)
  let change := fun b : Backend => b.refresh now p.staleAfter
  refine ⟨gone.map .remove ++ aged.map fun b => .renew b (change b), ?_, ?_, ?_, ?_⟩
  · intro m hm
    rcases List.mem_append.1 hm with hm | hm
    · obtain ⟨b, hb, rfl⟩ := List.mem_map.1 hm
      exact .expire b (List.mem_filter.1 hb).2
    · obtain ⟨b, hb, rfl⟩ := List.mem_map.1 hm
      have h : ages p now b = true := (List.mem_filter.1 hb).2
      simp only [ages, Bool.and_eq_true, Bool.not_eq_true', decide_eq_true_eq] at h
      exact .age b h.1 h.2
  · have removed := path_remove (K := backendKind) (v := r.view) gone (filter_distinct keyed _)
      fun b hb => found_of_mem_values keyed (List.mem_filter.1 hb).1
    refine removed.append ?_
    have renewed := path_renew (K := backendKind)
      (v := fun k => if k ∈ gone.map Backend.key then none else r.view k) aged change (fun b => rfl)
      (filter_distinct keyed _) fun b hb => by
        obtain ⟨there, h⟩ := List.mem_filter.1 hb
        have found := found_of_mem_values keyed there
        simp only [ages, Bool.and_eq_true, Bool.not_eq_true'] at h
        simp [gone, owned_keys keyed found, h.1, found]
    have after : (sweep p now r).state.view = fun k =>
        (if k ∈ gone.map Backend.key then none else r.view k).map fun b =>
          if k ∈ aged.map Backend.key then change b else b := by
      funext k
      simp only [Table.view, sweep_apply, Table.get?_map, Table.get?_filter]
      cases found : r.get? k with
      | none => simp
      | some b =>
        simp only [gone, aged, owned_keys keyed found, Option.filter_some]
        cases expired : b.isExpired p now
        · by_cases h : b.status = b.statusAt now p.staleAfter
          · simp [ages, expired, h, refresh_of_status_eq h]
          · simp [ages, expired, h, change]
        · simp
    exact after ▸ renewed
  · simp only [sweep_apply, Effects.changes_append, Effects.changes_concat, List.flatMap_map,
      List.flatMap_append, values_filter, expiry_changes]
    rw [age_effects Effects.changes rfl fun _ _ => rfl]
    rfl
  · simp only [sweep_apply, Effects.writes_append, Effects.writes_concat, List.flatMap_map,
      List.flatMap_append, values_filter, expiry_writes keyed]
    rw [age_effects Effects.writes rfl fun _ _ => rfl]
    rfl

end Registry

open Registry in
theorem RegistryCall.operation_traced (p : RegistryPolicy) (now : Instant) (c : RegistryCall)
    (r : Registry) : (c.operation p now).Obeys (Traced (c.Makes p now)) r := by
  cases c with
  | register x => exact (traced_law _).bind (register_traced x r) ((traced_law _).pure _ _)
  | deregister k =>
    exact (traced_law _).bind (deregister_traced p now k r) ((traced_law _).pure _ _)
  | validate k healthy error latency =>
    exact (traced_law _).bind (validate_traced k healthy error latency r) ((traced_law _).pure _ _)
  | setOverride k healthy reason operator =>
    exact (traced_law _).bind (setOverride_traced k healthy reason operator r)
      ((traced_law _).pure _ _)
  | clearOverride k =>
    exact (traced_law _).bind (clearOverride_traced k r) ((traced_law _).pure _ _)
  | drain agentId signal =>
    exact (traced_law _).bind (drain_traced agentId signal r) ((traced_law _).pure _ _)
  | sweep => exact (traced_law _).bind (sweep_traced r) ((traced_law _).pure _ _)

end HealthConsensus
