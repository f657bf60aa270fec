import HealthConsensus.Proofs.Registry.History

namespace HealthConsensus

def BackendKey.isRegistrable (k : BackendKey) : Bool :=
  !k.service.isEmpty && !k.address.isEmpty && k.port != 0

namespace Backend

def enrol (p : RegistryPolicy) (r : Registration) (now : Instant) (o : Option Backend) : Backend :=
  ((o.map fun b => b.reregister r now).getD (ofRegistration r now)).refresh now p.staleAfter

end Backend

namespace RegistryCall

def key? : RegistryCall → Option BackendKey
  | register r => some r.key
  | deregister k => some k
  | validate k _ _ _ => some k
  | setOverride k _ _ _ => some k
  | clearOverride k => some k
  | drain _ _ => none
  | sweep => none

def onRecord (p : RegistryPolicy) (now : Instant) (k : BackendKey) (c : RegistryCall)
    (o : Option Backend) : Option Backend :=
  match c with
  | register r => if r.key = k ∧ k.isRegistrable then some (Backend.enrol p r now o) else o
  | deregister k' => if k' = k then none else o
  | validate k' healthy error latency =>
    if k' = k then
      o.map fun b => (b.validate p.smoothing healthy error latency now).refresh now p.staleAfter
    else o
  | setOverride k' healthy reason operator =>
    if k' = k then
      o.map fun b =>
        { b with override := some ⟨healthy, reason, operator, now⟩ }.refresh now p.staleAfter
    else o
  | clearOverride k' =>
    if k' = k then
      o.map fun b =>
        if b.override.isSome then { b with override := none }.refresh now p.staleAfter else b
    else o
  | drain agentId signal =>
    o.map fun b => if b.agentId = agentId then b.applyDrain signal now p.staleAfter else b
  | sweep => (o.filter fun b => !b.isExpired p now).map fun b => b.refresh now p.staleAfter

variable {p : RegistryPolicy} {now : Instant} {k : BackendKey} {c : RegistryCall}
  {o : Option Backend} {b' : Backend}

theorem onRecord_elsewhere {k' : BackendKey} (h : c.key? = some k') (other : k' ≠ k) :
    c.onRecord p now k o = o := by
  cases c with
  | register r =>
    cases h
    exact if_neg fun accepted => other accepted.1
  | drain agentId signal => cases h
  | sweep => cases h
  | _ =>
    cases h
    exact if_neg other

theorem onRecord_sweep (h : sweep.onRecord p now k o = some b') :
    ∃ b, o = some b ∧ b.isExpired p now = false ∧ b' = b.refresh now p.staleAfter := by
  obtain ⟨b, kept, rfl⟩ := Option.map_eq_some_iff.1 h
  obtain ⟨there, kept⟩ := Option.filter_eq_some_iff.1 kept
  exact ⟨b, there, by simpa using kept, rfl⟩

inductive Leaves (p : RegistryPolicy) (now : Instant) (o : Option Backend) : Backend → Prop
  | untouched (b : Backend) : o = some b → Leaves p now o b
  | heard (b : Backend) : b.lastSeen = now → Leaves p now o (b.refresh now p.staleAfter)
  | judged (b b₀ : Backend) : o = some b₀ → b.lastSeen = b₀.lastSeen →
      Leaves p now o (b.refresh now p.staleAfter)

theorem onRecord_leaves (h : c.onRecord p now k o = some b') : Leaves p now o b' := by
  cases c with
  | sweep =>
    obtain ⟨b, there, -, rfl⟩ := onRecord_sweep h
    exact .judged b b there rfl
  | register x =>
    rw [onRecord] at h
    split at h
    · cases h
      apply Leaves.heard
      cases o <;> rfl
    · exact .untouched b' h
  | deregister k' =>
    rw [onRecord] at h
    split at h
    · cases h
    · exact .untouched b' h
  | validate k' healthy error latency =>
    rw [onRecord] at h
    split at h
    · obtain ⟨b, there, rfl⟩ := Option.map_eq_some_iff.1 h
      exact .judged _ b there rfl
    · exact .untouched b' h
  | setOverride k' healthy reason operator =>
    rw [onRecord] at h
    split at h
    · obtain ⟨b, there, rfl⟩ := Option.map_eq_some_iff.1 h
      exact .judged _ b there rfl
    · exact .untouched b' h
  | clearOverride k' =>
    rw [onRecord] at h
    split at h
    · obtain ⟨b, there, rfl⟩ := Option.map_eq_some_iff.1 h
      split
      · exact .judged _ b there rfl
      · exact .untouched b there
    · exact .untouched b' h
  | drain agentId signal =>
    rw [onRecord] at h
    obtain ⟨b, there, rfl⟩ := Option.map_eq_some_iff.1 h
    split
    · exact .judged _ b there rfl
    · exact .untouched b there

end RegistryCall

namespace Registry

open RegistryCall

variable {p : RegistryPolicy} {now : Instant} {r : Registry} {k : BackendKey}

theorem update_get? (k' : BackendKey) (b next : Backend) :
    (update p now k' b next r).state.get? k =
      if k' = k then some (next.refresh now p.staleAfter) else r.get? k := by
  simp [update, Table.get?_set, eq_comm]

theorem register_invalid {x : Registration} (h : x.key.isRegistrable = false) (r : Registry) :
    ∃ e, register p now x r = ⟨.error e, r, .none⟩ := by
  unfold register
  split
  · exact ⟨_, rfl⟩
  · next named =>
    have port : x.port = 0 := by
      simp [BackendKey.isRegistrable, Registration.key] at h named
      exact h named.1 named.2
    rw [if_pos port]
    exact ⟨_, rfl⟩

theorem register_refused {x : Registration} (h : x.key.isRegistrable = false) (r : Registry) :
    (register p now x r).state = r := by
  obtain ⟨e, refused⟩ : ∃ e, register p now x r = ⟨.error e, r, .none⟩ := register_invalid h r
  rw [refused]

theorem register_accepted {x : Registration} (h : x.key.isRegistrable = true) (r : Registry) :
    (register p now x r).state = r.set x.key (Backend.enrol p x now (r.get? x.key)) := by
  simp only [BackendKey.isRegistrable, Registration.key, Bool.and_eq_true, Bool.not_eq_true',
    bne_iff_ne] at h
  have named : ¬(x.service.isEmpty || x.address.isEmpty) = true := by simp [h.1.1, h.1.2]
  unfold register
  rw [if_neg named, if_neg h.2]
  cases found : r.get? x.key with
  | some b => simp [found, update, Backend.enrol]
  | none => simp [found, Backend.enrol]

theorem register_get? (x : Registration) :
    (register p now x r).state.get? k = (RegistryCall.register x).onRecord p now k (r.get? k) := by
  rw [onRecord]
  by_cases accepted : x.key.isRegistrable = true
  · rw [register_accepted accepted, Table.get?_set]
    by_cases own : x.key = k
    · subst own
      simp [accepted]
    · simp [own, Ne.symm own]
  · rw [register_refused (Bool.eq_false_iff.2 accepted), if_neg]
    rintro ⟨rfl, registrable⟩
    exact accepted registrable

theorem onBackend_get? {k' : BackendKey} {change : Backend → Operation Registry Unit}
    (next : Backend → Option Backend)
    (h : ∀ b, (change b r).state.get? k = if k' = k then next b else r.get? k) :
    (onBackend k' change r).state.get? k =
      if k' = k then (r.get? k).bind next else r.get? k := by
  unfold onBackend
  cases found : r.get? k' with
  | none =>
    by_cases own : k' = k
    · subst own
      simp [found]
    · simp [found, own]
  | some b =>
    by_cases own : k' = k
    · subst own
      simp [found, h]
    · simp [found, h, own]

theorem deregister_get? (k' : BackendKey) :
    (deregister k' r).state.get? k = (RegistryCall.deregister k').onRecord p now k (r.get? k) := by
  rw [deregister, onBackend_get? fun _ => none, onRecord]
  · cases r.get? k <;> rfl
  · intro b
    simp [Table.get?_erase, eq_comm]

theorem validate_get? (k' : BackendKey) (healthy : Bool) (error : Option String)
    (latency : Duration) :
    (validate p now k' healthy error latency r).state.get? k =
      (RegistryCall.validate k' healthy error latency).onRecord p now k (r.get? k) := by
  rw [validate, onBackend_get? _ fun b => update_get? k' b _, onRecord, Option.map_eq_bind]
  rfl

theorem setOverride_get? (k' : BackendKey) (healthy : Bool) (reason operator : String) :
    (setOverride p now k' healthy reason operator r).state.get? k =
      (RegistryCall.setOverride k' healthy reason operator).onRecord p now k (r.get? k) := by
  rw [setOverride, onBackend_get? fun b =>
    some ({ b with override := some ⟨healthy, reason, operator, now⟩ }.refresh now p.staleAfter)]
  · rw [onRecord, Option.map_eq_bind]
    rfl
  · intro b
    simpa using update_get? k' b _

theorem clearOverride_get? (k' : BackendKey) :
    (clearOverride p now k' r).state.get? k =
      (RegistryCall.clearOverride k').onRecord p now k (r.get? k) := by
  unfold clearOverride onBackend
  rw [onRecord]
  cases found : r.get? k' with
  | none =>
    by_cases own : k' = k
    · subst own
      simp [found]
    · simp [found, own]
  | some b =>
    cases overruled : b.override.isSome with
    | true =>
      by_cases own : k' = k
      · subst own
        simp [found, overruled, update_get?]
      · simp [found, overruled, update_get?, own]
    | false =>
      by_cases own : k' = k
      · subst own
        simp [found, overruled]
      · simp [found, overruled, own]

theorem drain_get? (agentId : String) (signal : Drain) :
    (drain p now agentId signal r).state.get? k =
      (RegistryCall.drain agentId signal).onRecord p now k (r.get? k) := by
  simp [drain_apply, onRecord, Table.get?_map]

theorem sweep_get? :
    (sweep p now r).state.get? k = RegistryCall.sweep.onRecord p now k (r.get? k) := by
  rw [sweep_apply, Table.get?_map, Table.get?_filter]
  rfl

theorem operation_get? (p : RegistryPolicy) (now : Instant) (c : RegistryCall) (r : Registry)
    (k : BackendKey) :
    (c.operation p now r).state.get? k = c.onRecord p now k (r.get? k) := by
  have replied {α : Type} (a : Operation Registry α) (f : α → RegistryReply) :
      ((do return f (← a) : Operation Registry RegistryReply) r).state = (a r).state := rfl
  cases c with
  | register x => rw [operation, replied, register_get?]
  | deregister k' => rw [operation, replied, deregister_get?]
  | validate k' healthy error latency => rw [operation, replied, validate_get?]
  | setOverride k' healthy reason operator => rw [operation, replied, setOverride_get?]
  | clearOverride k' => rw [operation, replied, clearOverride_get?]
  | drain agentId signal => rw [operation, replied, drain_get?]
  | sweep => rw [operation, replied, sweep_get?]

end Registry

namespace RegistryStep

def onRecord (p : RegistryPolicy) (k : BackendKey) (o : Option Backend) (s : RegistryStep) :
    Option Backend := s.call.onRecord p s.now k o

end RegistryStep

namespace Registry

variable {p : RegistryPolicy}

theorem step_get? (s : RegistryStep) (r : Registry) (k : BackendKey) :
    (step p s r).state.get? k = s.onRecord p k (r.get? k) := by
  have arranged : (s.order.arrange r).get? k = r.get? k := congrFun (s.order.view_arrange r) k
  rw [RegistryStep.onRecord, ← arranged]
  exact operation_get? p s.now s.call (s.order.arrange r) k

theorem history_cons (s : RegistryStep) (steps : List RegistryStep) (r : Registry) :
    (history p (s :: steps) r).state = (history p steps (step p s r).state).state := rfl

theorem history_get? (steps : List RegistryStep) (r : Registry) (k : BackendKey) :
    (history p steps r).state.get? k = steps.foldl (RegistryStep.onRecord p k) (r.get? k) := by
  induction steps generalizing r with
  | nil => rfl
  | cons s steps ih => rw [history_cons, ih, step_get?, List.foldl_cons]

end Registry

end HealthConsensus
