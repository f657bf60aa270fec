import HealthConsensus.Proofs.Agreement
import HealthConsensus.Proofs.Registry.Locality
import HealthConsensus.Store.Contents

namespace HealthConsensus

namespace BackendKey

theorem le_iff {a b : BackendKey} : a.le b = true ↔ a.service < b.service ∨
    a.service = b.service ∧ (a.address < b.address ∨ a.address = b.address ∧ a.port ≤ b.port) := by
  simp [le]

theorem le_total (a b : BackendKey) : (a.le b || b.le a) = true := by
  rw [Bool.or_eq_true, le_iff, le_iff]
  by_cases service : a.service = b.service
  · by_cases address : a.address = b.address
    · rcases UInt16.le_total a.port b.port with port | port
      · exact .inl (.inr ⟨service, .inr ⟨address, port⟩⟩)
      · exact .inr (.inr ⟨service.symm, .inr ⟨address.symm, port⟩⟩)
    · by_cases before : a.address < b.address
      · exact .inl (.inr ⟨service, .inl before⟩)
      · exact .inr (.inr ⟨service.symm, .inl (Contents.lt_of_not_lt_of_ne before address)⟩)
  · by_cases before : a.service < b.service
    · exact .inl (.inl before)
    · exact .inr (.inl (Contents.lt_of_not_lt_of_ne before service))

theorem le_trans {a b c : BackendKey} (h : a.le b = true) (h' : b.le c = true) :
    a.le c = true := by
  rw [le_iff] at *
  rcases h with service | ⟨service, h⟩
  · rcases h' with service' | ⟨service', -⟩
    · exact .inl (String.lt_trans service service')
    · exact .inl (service' ▸ service)
  · rcases h' with service' | ⟨service', h'⟩
    · exact .inl (service ▸ service')
    · refine .inr ⟨service.trans service', ?_⟩
      rcases h with address | ⟨address, port⟩
      · rcases h' with address' | ⟨address', -⟩
        · exact .inl (String.lt_trans address address')
        · exact .inl (address' ▸ address)
      · rcases h' with address' | ⟨address', port'⟩
        · exact .inl (address ▸ address')
        · exact .inr ⟨address.trans address', UInt16.le_trans port port'⟩

theorem le_antisymm {a b : BackendKey} (h : a.le b = true) (h' : b.le a = true) : a = b := by
  rw [le_iff] at *
  rcases h with service | ⟨service, h⟩
  · rcases h' with service' | ⟨service', -⟩
    · exact absurd (String.lt_trans service service') (String.lt_irrefl _)
    · exact absurd (service' ▸ service) (String.lt_irrefl _)
  · rcases h' with service' | ⟨-, h'⟩
    · exact absurd (service ▸ service') (String.lt_irrefl _)
    · rcases h with address | ⟨address, port⟩
      · rcases h' with address' | ⟨address', -⟩
        · exact absurd (String.lt_trans address address') (String.lt_irrefl _)
        · exact absurd (address' ▸ address) (String.lt_irrefl _)
      · rcases h' with address' | ⟨-, port'⟩
        · exact absurd (address ▸ address') (String.lt_irrefl _)
        · cases a
          cases b
          cases service
          cases address
          cases UInt16.le_antisymm port port'
          rfl

end BackendKey

def news : Option Backend → Option Backend → List StatusChange
  | none, none => []
  | none, some b => [⟨b, none, some b.status⟩]
  | some b, some next => (b.changeTo next).toList
  | some b, none => [⟨b, some b.status, none⟩]

@[simp] theorem news_self (o : Option Backend) : news o o = [] := by
  cases o <;> simp [news, Backend.changeTo]

namespace Backend

variable {b next : Backend} {k : BackendKey}

theorem backend_changeTo {c : StatusChange} (h : c ∈ (b.changeTo next).toList) :
    c.backend = next := by
  unfold changeTo at h
  split at h
  · cases h
  · rw [List.mem_singleton.1 h]

theorem about_renewal : (b.renewal next).about k =
    if next.key = k then (b.changeTo next).toList else [] := by
  by_cases same : b.status = next.status
  · simp [Effects.about, renewal, changeTo, same]
  · by_cases own : next.key = k
    · simp [Effects.about, renewal, changeTo, same, own]
    · simp [Effects.about, renewal, changeTo, same, own]

theorem about_removal (k' : BackendKey) : (b.removal k').about k =
    if b.key = k then [⟨b, some b.status, none⟩] else [] := by
  by_cases own : b.key = k
  · simp [Effects.about, removal, own]
  · simp [Effects.about, removal, own]

end Backend

namespace Registry

open Operation

structure Similar (r r' : Registry) : Prop where
  keyed : r.Keyed
  view : r.view = r'.view

variable {p : RegistryPolicy} {now : Instant} {r r' : Registry} {k : BackendKey}

theorem Similar.get? (h : Similar r r') (k : BackendKey) : r.get? k = r'.get? k :=
  congrFun h.view k

theorem sorted_eq {bs bs' : List Backend} (perm : bs.Perm bs')
    (distinct : (bs.map Backend.key).Nodup) :
    (bs.mergeSort fun a b => a.key.le b.key) = bs'.mergeSort fun a b => a.key.le b.key := by
  apply mergeSort_eq_of_perm perm
  · exact fun _ _ _ => BackendKey.le_trans
  · exact fun a b => BackendKey.le_total a.key b.key
  · intro a ha b hb before after
    exact List.inj_on_of_nodup_map distinct ha hb (BackendKey.le_antisymm before after)

theorem all_perm (r : Registry) : r.all.Perm r.values := List.mergeSort_perm _ _

theorem length_all (r : Registry) : r.all.length = r.size := by
  rw [(all_perm r).length_eq, Table.values, List.length_map, Table.size]

theorem Similar.all (h : Similar r r') : r.all = r'.all :=
  sorted_eq (Table.values_perm h.view) (values_distinct h.keyed)

theorem Similar.ofService (h : Similar r r') (service : String) :
    r.ofService service = r'.ofService service :=
  sorted_eq ((Table.values_perm h.view).filter _) (filter_distinct h.keyed _)

theorem values_at (keyed : r.Keyed) (keep : Backend → Bool) (k : BackendKey) :
    (r.values.filter keep).filter (fun b => b.key = k) = ((r.get? k).filter keep).toList := by
  have distinct : ((r.values.filter keep).filter fun b => b.key = k).Nodup :=
    ((filter_distinct keyed keep).of_map _).filter _
  have single : ((r.get? k).filter keep).toList.Nodup := by
    cases (r.get? k).filter keep <;> simp
  have same : ((r.values.filter keep).filter fun b => b.key = k).Perm
      ((r.get? k).filter keep).toList := by
    refine (List.perm_ext_iff_of_nodup distinct single).2 fun b => ?_
    rw [List.mem_filter, List.mem_filter, Option.mem_toList, Option.filter_eq_some_iff]
    constructor
    · rintro ⟨⟨there, kept⟩, own⟩
      cases of_decide_eq_true own
      exact ⟨found_of_mem_values keyed there, kept⟩
    · rintro ⟨found, kept⟩
      obtain ⟨there, own⟩ := mem_values_key keyed found
      exact ⟨⟨there, kept⟩, decide_eq_true own⟩
  cases found : (r.get? k).filter keep with
  | none =>
    rw [found] at same
    exact same.eq_nil
  | some b =>
    rw [found] at same
    exact List.perm_singleton.1 same

theorem about_values (keyed : r.Keyed) (keep : Backend → Bool) {f : Backend → List StatusChange}
    (own : ∀ b, ∀ c ∈ f b, c.backend.key = b.key) (k : BackendKey) :
    ((r.values.filter keep).flatMap f).filter (fun c => c.backend.key = k) =
      ((r.get? k).filter keep).toList.flatMap f := by
  rw [← values_at keyed, List.filter_flatMap]
  induction r.values.filter keep with
  | nil => rfl
  | cons b bs ih =>
    rw [List.flatMap_cons, ih]
    by_cases here : b.key = k
    · have all : (f b).filter (fun c => c.backend.key = k) = f b :=
        List.filter_eq_self.2 fun c hc => decide_eq_true ((own b c hc).trans here)
      simp [here, all]
    · have none : (f b).filter (fun c => c.backend.key = k) = [] :=
        List.filter_eq_nil_iff.2 fun c hc same =>
          here ((own b c hc).symm.trans (of_decide_eq_true same))
      simp [here, none]

def Reports {α : Type} (a : Operation Registry α) (r : Registry) : Prop :=
  ∀ k, (a r).effects.about k = news (r.get? k) ((a r).state.get? k)

theorem update_reports {k' : BackendKey} {b next : Backend} (keyed : r.Keyed)
    (found : r.get? k' = some b) (key : next.key = b.key) : Reports (update p now k' b next) r := by
  intro k
  have own : (next.refresh now p.staleAfter).key = k' := key.trans (keyed_of_get? keyed found)
  have effects : (update p now k' b next r).effects.about k =
      (b.renewal (next.refresh now p.staleAfter)).about k := by simp [update]
  rw [effects, Backend.about_renewal, update_get?, own]
  by_cases here : k' = k
  · subst here
    simp [found, news]
  · simp [here]

theorem onBackend_reports {k' : BackendKey} {change : Backend → Operation Registry Unit}
    (h : ∀ b, r.get? k' = some b → Reports (change b) r) : Reports (onBackend k' change) r := by
  intro k
  unfold onBackend
  cases found : r.get? k' with
  | none => simp [found]
  | some b => simpa [found] using h b found k

theorem deregister_reports (keyed : r.Keyed) (k' : BackendKey) : Reports (deregister k') r := by
  refine onBackend_reports fun b found k => ?_
  have own : b.key = k' := keyed_of_get? keyed found
  have effects : ((Operation.modify (Table.erase k') >>= fun _ =>
      log (.info "Backend deregistered" [("backend", k'.text)]) >>= fun _ =>
        effect (b.removal k')) r).effects.about k = (b.removal k').about k := by
    simp [Effects.about]
  rw [effects, Backend.about_removal, own]
  by_cases here : k' = k
  · subst here
    simp [Table.get?_erase, found, news]
  · simp [Table.get?_erase, here, Ne.symm here]

theorem validate_reports (keyed : r.Keyed) (k' : BackendKey) (healthy : Bool)
    (error : Option String) (latency : Duration) :
    Reports (validate p now k' healthy error latency) r :=
  onBackend_reports fun _ found => update_reports keyed found rfl

theorem log_reports {a : Operation Registry Unit} {l : LogLine} (h : Reports a r) :
    Reports (log l >>= fun _ => a) r := fun k => h k

theorem setOverride_reports (keyed : r.Keyed) (k' : BackendKey) (healthy : Bool)
    (reason operator : String) : Reports (setOverride p now k' healthy reason operator) r :=
  onBackend_reports fun _ found => log_reports (update_reports keyed found rfl)

theorem clearOverride_reports (keyed : r.Keyed) (k' : BackendKey) :
    Reports (clearOverride p now k') r := by
  refine onBackend_reports fun b found => ?_
  split
  · exact log_reports (update_reports keyed found rfl)
  · intro k
    simp

theorem register_reports (keyed : r.Keyed) (x : Registration) : Reports (register p now x) r := by
  unfold register
  split
  · intro k
    simp
  · split
    · intro k
      simp
    · cases found : r.get? x.key with
      | some b =>
        have h : Reports (update p now x.key b (b.reregister x now)) r :=
          update_reports keyed found rfl
        intro k
        simpa [found] using h k
      | none =>
        intro k
        have own : ((Backend.ofRegistration x now).refresh now p.staleAfter).key = x.key := rfl
        by_cases here : x.key = k
        · subst here
          simp [found, Effects.about, Table.get?_set, own, news]
        · simp [found, Effects.about, Table.get?_set, own, here, Ne.symm here]

theorem drain_reports (keyed : r.Keyed) (agentId : String) (signal : Drain) :
    Reports (drain p now agentId signal) r := by
  intro k
  let owns := fun b : Backend => b.agentId == agentId
  let change := fun b : Backend => b.applyDrain signal now p.staleAfter
  have effects : (drain p now agentId signal r).effects.changes =
      (r.values.filter owns).flatMap fun b => (b.changeTo (change b)).toList := by
    simp [drain_apply, drainEffects, Backend.renewal, List.flatMap_map, owns, change]
  have own (b : Backend) : ∀ c ∈ (b.changeTo (change b)).toList, c.backend.key = b.key := by
    intro c hc
    rw [Backend.backend_changeTo hc]
    rfl
  rw [Effects.about, effects, about_values keyed owns own, drain_get?]
  cases found : r.get? k with
  | none => rfl
  | some b =>
    by_cases owner : b.agentId = agentId
    · simp [RegistryCall.onRecord, Option.filter_some, news, owns, change, owner]
    · simp [RegistryCall.onRecord, Option.filter_some, owns, owner]

theorem sweep_reports (keyed : r.Keyed) : Reports (sweep p now) r := by
  intro k
  let expired := fun b : Backend => b.isExpired p now
  let next := fun b : Backend => b.refresh now p.staleAfter
  have effects : (sweep p now r).effects.changes =
      ((r.values.filter expired).flatMap fun b => [⟨b, some b.status, none⟩]) ++
        (r.values.filter (ages p now)).flatMap fun b => (b.changeTo (next b)).toList := by
    simp only [sweep_apply, Effects.changes_append, Effects.changes_concat, List.flatMap_map,
      values_filter, expiry_changes]
    rw [age_effects Effects.changes rfl fun _ _ => rfl]
    rfl
  have gone (b : Backend) : ∀ c ∈ [(⟨b, some b.status, none⟩ : StatusChange)],
      c.backend.key = b.key := by
    intro c hc
    rw [List.mem_singleton.1 hc]
  have aged (b : Backend) : ∀ c ∈ (b.changeTo (next b)).toList, c.backend.key = b.key := by
    intro c hc
    rw [Backend.backend_changeTo hc]
    rfl
  rw [Effects.about, effects, List.filter_append, about_values keyed expired gone,
    about_values keyed (ages p now) aged, sweep_get?]
  cases found : r.get? k with
  | none => rfl
  | some b =>
    cases late : b.isExpired p now with
    | true => simp [RegistryCall.onRecord, Option.filter_some, news, expired, ages, late]
    | false =>
      by_cases same : b.status = b.statusAt now p.staleAfter
      · simp [RegistryCall.onRecord, Option.filter_some, expired, ages, late, same,
          refresh_of_status_eq same]
      · simp [RegistryCall.onRecord, Option.filter_some, news, expired, ages, late, same, next]

theorem respects_of_reports {α : Type} {a : Operation Registry α} {kinds : Move Backend → Prop}
    (traced : ∀ r, a.Obeys (Traced kinds) r) (reports : ∀ r : Registry, r.Keyed → Reports a r)
    (result : ∀ r r', Similar r r' → (a r).result = (a r').result)
    (record : ∀ r r', Similar r r' → ∀ k, (a r).state.get? k = (a r').state.get? k) :
    Respects Similar a := by
  intro r r' h
  have keyed' : r'.Keyed := fun k b found => h.keyed k b (h.view ▸ found)
  refine ⟨result r r' h, ⟨(traced r).keyed h.keyed, funext (record r r' h)⟩, fun k => ?_⟩
  rw [reports r h.keyed, reports r' keyed', h.get?, record r r' h]

theorem onBackend_result (k' : BackendKey) (change : Backend → Operation Registry Unit)
    (r : Registry) : (onBackend k' change r).result =
      if (r.get? k').isSome then .ok () else .error (.notFound k'.text) := by
  unfold onBackend
  cases found : r.get? k' with
  | none => simp [found]
  | some b => simp [found]

theorem onBackend_result_eq (h : Similar r r') (k' : BackendKey)
    (change : Backend → Operation Registry Unit) :
    (onBackend k' change r).result = (onBackend k' change r').result := by
  rw [onBackend_result, onBackend_result, h.get?]

theorem register_result_eq (x : Registration) (r r' : Registry) :
    (register p now x r).result = (register p now x r').result := by
  unfold register
  split
  · rfl
  · split
    · rfl
    · rw [bind_apply, bind_apply, state_apply, state_apply]
      cases r.get? x.key <;> cases r'.get? x.key <;> rfl

theorem register_respects (x : Registration) : Respects Similar (register p now x) := by
  apply respects_of_reports (register_traced x) fun r keyed => register_reports keyed x
  · exact fun r r' _ => register_result_eq x r r'
  · intro r r' h k
    rw [register_get?, register_get?, h.get?]

theorem deregister_at (k' k : BackendKey) (r : Registry) :
    (deregister k' r).state.get? k = if k' = k then none else r.get? k :=
  @deregister_get? defaultPolicy .epoch r k k'

theorem deregister_respects (k' : BackendKey) : Respects Similar (deregister k') := by
  apply respects_of_reports (deregister_traced defaultPolicy .epoch k')
    fun r keyed => deregister_reports keyed k'
  · exact fun r r' h => onBackend_result_eq h k' _
  · intro r r' h k
    rw [deregister_at, deregister_at, h.get?]

theorem validate_respects (k' : BackendKey) (healthy : Bool) (error : Option String)
    (latency : Duration) : Respects Similar (validate p now k' healthy error latency) := by
  apply respects_of_reports (validate_traced k' healthy error latency)
    fun r keyed => validate_reports keyed k' healthy error latency
  · exact fun r r' h => onBackend_result_eq h k' _
  · intro r r' h k
    rw [validate_get?, validate_get?, h.get?]

theorem setOverride_respects (k' : BackendKey) (healthy : Bool) (reason operator : String) :
    Respects Similar (setOverride p now k' healthy reason operator) := by
  apply respects_of_reports (setOverride_traced k' healthy reason operator)
    fun r keyed => setOverride_reports keyed k' healthy reason operator
  · exact fun r r' h => onBackend_result_eq h k' _
  · intro r r' h k
    rw [setOverride_get?, setOverride_get?, h.get?]

theorem clearOverride_respects (k' : BackendKey) : Respects Similar (clearOverride p now k') := by
  apply respects_of_reports (clearOverride_traced k')
    fun r keyed => clearOverride_reports keyed k'
  · exact fun r r' h => onBackend_result_eq h k' _
  · intro r r' h k
    rw [clearOverride_get?, clearOverride_get?, h.get?]

theorem drain_respects (agentId : String) (signal : Drain) :
    Respects Similar (drain p now agentId signal) := by
  apply respects_of_reports (drain_traced agentId signal)
    fun r keyed => drain_reports keyed agentId signal
  · exact fun r r' h => ((Table.values_perm h.view).filter _).length_eq
  · intro r r' h k
    rw [drain_get?, drain_get?, h.get?]

theorem filter_view (h : Similar r r') (keep : BackendKey → Backend → Bool) :
    Table.view (r.filter keep) = Table.view (r'.filter keep) := by
  funext k
  rw [Table.view, Table.view, Table.get?_filter, Table.get?_filter, h.get?]

theorem sweep_respects : Respects Similar (sweep p now) := by
  apply respects_of_reports sweep_traced fun r keyed => sweep_reports keyed
  · intro r r' h
    have gone := Table.size_eq (filter_view h fun _ b => b.isExpired p now)
    have kept := (Table.values_perm (filter_view h fun _ b => !b.isExpired p now)).countP_eq
      fun b => b.status != b.statusAt now p.staleAfter
    rw [sweep_apply, sweep_apply, gone, kept]
  · intro r r' h k
    rw [sweep_get?, sweep_get?, h.get?]

end Registry

open Registry in
theorem RegistryCall.operation_respects (p : RegistryPolicy) (now : Instant) (c : RegistryCall) :
    Operation.Respects Similar (c.operation p now) := by
  cases c with
  | register x => exact (register_respects x).reply _
  | deregister k => exact (deregister_respects k).reply _
  | validate k healthy error latency => exact (validate_respects k healthy error latency).reply _
  | setOverride k healthy reason operator =>
    exact (setOverride_respects k healthy reason operator).reply _
  | clearOverride k => exact (clearOverride_respects k).reply _
  | drain agentId signal => exact (drain_respects agentId signal).reply _
  | sweep => exact sweep_respects.reply _

end HealthConsensus
