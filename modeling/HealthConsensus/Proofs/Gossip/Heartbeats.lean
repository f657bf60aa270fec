import HealthConsensus.Gossip.Handler
import HealthConsensus.Proofs.Registry.Draining
import HealthConsensus.Proofs.Registry.News

namespace HealthConsensus

open Operation NodeState

namespace BackendClaim

def isValid (c : BackendClaim) : Bool := c.key.isRegistrable

end BackendClaim

namespace Heartbeat

def entriesFor (k : BackendKey) (cs : List BackendClaim) : List BackendClaim :=
  cs.filter fun c => c.isValid && c.key = k

def withoutInvalid (h : Heartbeat) : Heartbeat :=
  { h with backends := h.backends.filter BackendClaim.isValid }

variable {cs cs' : List BackendClaim} {k : BackendKey}

theorem entriesFor_cons (c : BackendClaim) (cs : List BackendClaim) : entriesFor k (c :: cs) =
    if c.isValid && c.key = k then c :: entriesFor k cs else entriesFor k cs := List.filter_cons

theorem entriesFor_valid (cs : List BackendClaim) :
    entriesFor k (cs.filter BackendClaim.isValid) = entriesFor k cs := by
  simp [entriesFor, List.filter_filter, Bool.and_right_comm]

theorem entriesFor_key {c : BackendClaim} (valid : c.isValid = true) (cs : List BackendClaim) :
    entriesFor c.key cs = cs.filter fun c' => c'.key = c.key := by
  refine List.filter_congr fun c' _ => ?_
  by_cases same : c'.key = c.key
  · have valid' : c'.isValid = true := by
      rw [BackendClaim.isValid, same]
      exact valid
    simp [valid', same]
  · simp [same]

theorem entriesFor_eq_nil : entriesFor k cs = [] ↔ ∀ c ∈ cs, c.isValid = true → c.key ≠ k := by
  simp [entriesFor, List.filter_eq_nil_iff]

theorem entriesFor_perm (perm : cs.Perm cs')
    (distinct : ((cs.filter BackendClaim.isValid).map BackendClaim.key).Nodup) :
    entriesFor k cs = entriesFor k cs' := by
  have perm : (entriesFor k cs).Perm (entriesFor k cs') := perm.filter _
  have about : (entriesFor k cs).map BackendClaim.key = List.replicate (entriesFor k cs).length k := by
    refine List.map_eq_replicate_iff.2 fun c hc => ?_
    exact of_decide_eq_true (Bool.and_eq_true_iff.1 (List.mem_filter.1 hc).2).2
  have few : (entriesFor k cs).length ≤ 1 := by
    apply List.nodup_replicate.1
    rw [← about, ← entriesFor_valid]
    exact distinct.sublist (List.filter_sublist.map _)
  match single : entriesFor k cs with
  | [] => exact (single ▸ perm).nil_eq
  | [c] => exact (List.singleton_perm.1 (single ▸ perm))
  | c :: c' :: _ =>
    rw [single] at few
    simp at few

end Heartbeat

namespace Registry

variable (p : RegistryPolicy) (now : Instant) (agentId region : String)

def present (c : BackendClaim) : Operation Registry Unit := do
  let _ ← register p now (c.registration agentId region)

def heed (f : Option Forecast) : Operation Registry Unit :=
  match f with
  | none => return ()
  | some f => do
    let _ ← drain p now agentId f.drain

def applyHeartbeat (h : Heartbeat) : Operation Registry Unit := do
  forEach h.backends (present p now agentId region)
  heed p now agentId h.forecast

def enrolled (o : Option Backend) (c : BackendClaim) : Option Backend :=
  some (Backend.enrol p (c.registration agentId region) now o)

def tidings : Option Backend → List BackendClaim → List StatusChange
  | _, [] => []
  | o, c :: cs =>
    news o (enrolled p now agentId region o c) ++ tidings (enrolled p now agentId region o c) cs

variable {p now agentId region} {k : BackendKey} {r : Registry}

theorem present_get? (c : BackendClaim) (r : Registry) :
    (present p now agentId region c r).state.get? k =
      if c.isValid && c.key = k then enrolled p now agentId region (r.get? k) c else r.get? k := by
  have get : (present p now agentId region c r).state.get? k = _ :=
    register_get? (c.registration agentId region)
  rw [RegistryCall.onRecord] at get
  have valid : (c.registration agentId region).key = k ∧ k.isRegistrable = true ↔
      (c.isValid && decide (c.key = k)) = true := by
    rw [Bool.and_eq_true, decide_eq_true_eq, and_comm]
    refine and_congr_left fun own => ?_
    subst own
    rfl
  simp only [valid] at get
  exact get

theorem present_keyed (keyed : r.Keyed) (c : BackendClaim) :
    (present p now agentId region c r).state.Keyed :=
  (register_traced (c.registration agentId region) r).keyed keyed

theorem present_about (keyed : r.Keyed) (c : BackendClaim) :
    (present p now agentId region c r).effects.about k =
      if c.isValid && c.key = k then news (r.get? k) (enrolled p now agentId region (r.get? k) c)
      else [] := by
  have reported : (present p now agentId region c r).effects.about k =
      news (r.get? k) ((present p now agentId region c r).state.get? k) := by
    simpa [present] using register_reports keyed (c.registration agentId region) k
  rw [reported, present_get?]
  split
  · rfl
  · exact news_self _

theorem presentAll_get? (cs : List BackendClaim) (r : Registry) :
    (forEach cs (present p now agentId region) r).state.get? k =
      (Heartbeat.entriesFor k cs).foldl (enrolled p now agentId region) (r.get? k) := by
  induction cs generalizing r with
  | nil => rfl
  | cons c cs ih =>
    rw [forEach_cons, ih, present_get?, Heartbeat.entriesFor_cons]
    split <;> rfl

theorem presentAll_keyed (keyed : r.Keyed) (cs : List BackendClaim) :
    Keyed (forEach cs (present p now agentId region) r).state := by
  induction cs generalizing r with
  | nil => exact keyed
  | cons c cs ih => exact ih (present_keyed keyed c)

theorem presentAll_about (keyed : r.Keyed) (cs : List BackendClaim) :
    (forEach cs (present p now agentId region) r).effects.about k =
      tidings p now agentId region (r.get? k) (Heartbeat.entriesFor k cs) := by
  induction cs generalizing r with
  | nil => rfl
  | cons c cs ih =>
    rw [forEach_cons, Effects.about_append, ih (present_keyed keyed c), present_about keyed,
      present_get?, Heartbeat.entriesFor_cons]
    split <;> rfl

theorem present_invalid {c : BackendClaim} (invalid : c.isValid = false) (r : Registry) :
    Alike (present p now agentId region c r) (done () r) := by
  have key : (c.registration agentId region).key.isRegistrable = false := invalid
  obtain ⟨e, refused⟩ : ∃ e, register p now (c.registration agentId region) r =
    ⟨.error e, r, .none⟩ := register_invalid key r
  simp only [present, bind_apply, refused]
  exact ⟨rfl, rfl, rfl⟩

theorem foldl_enrolled_drain (cs : List BackendClaim) (o : Option Backend) :
    Drain.ofRecord (cs.foldl (enrolled p now agentId region) o) = Drain.ofRecord o := by
  induction cs generalizing o with
  | nil => rfl
  | cons c cs ih =>
    rw [List.foldl_cons, ih]
    cases o <;> rfl

end Registry

namespace Backend

def forecasted (p : RegistryPolicy) (now : Instant) (agentId : String) (f : Option Forecast)
    (b : Backend) : Backend :=
  match f with
  | none => b
  | some f => if b.agentId = agentId then b.applyDrain f.drain now p.staleAfter else b

variable {p : RegistryPolicy} {now : Instant} {agentId : String} {f : Option Forecast} {b : Backend}

theorem forecasted_other (other : b.agentId ≠ agentId) : b.forecasted p now agentId f = b := by
  cases f with
  | none => rfl
  | some f => exact if_neg other

theorem forecasted_owned {f : Forecast} (owner : b.agentId = agentId) :
    b.forecasted p now agentId (some f) = b.applyDrain f.drain now p.staleAfter := if_pos owner

theorem forecasted_agentId : (b.forecasted p now agentId f).agentId = b.agentId := by
  unfold forecasted
  split
  · rfl
  · split <;> rfl

structure HeardBy (agentId region : String) (now : Instant) (c : BackendClaim) (b : Backend) :
    Prop where
  owner : b.agentId = agentId
  lastSeen : b.lastSeen = now
  region : b.region = region
  weight : b.weight = c.weight
  healthy : b.agentHealthy = c.healthy

variable {region : String} {c : BackendClaim}

theorem heardBy_enrol (c : BackendClaim) (o : Option Backend) :
    (enrol p (c.registration agentId region) now o).HeardBy agentId region now c := by
  cases o <;> exact ⟨rfl, rfl, rfl, rfl, rfl⟩

theorem HeardBy.forecasted (h : b.HeardBy agentId region now c) :
    (b.forecasted p now agentId f).HeardBy agentId region now c := by
  obtain ⟨owner, lastSeen, region, weight, healthy⟩ := h
  unfold Backend.forecasted
  split
  · exact ⟨owner, lastSeen, region, weight, healthy⟩
  · split <;> exact ⟨owner, lastSeen, region, weight, healthy⟩

end Backend

namespace Heartbeat

def onRecord (p : RegistryPolicy) (now : Instant) (agentId region : String) (k : BackendKey)
    (h : Heartbeat) (o : Option Backend) : Option Backend :=
  ((entriesFor k h.backends).foldl (Registry.enrolled p now agentId region) o).map
    (Backend.forecasted p now agentId h.forecast)

variable {p : RegistryPolicy} {now : Instant} {agentId region : String} {k : BackendKey}
  {h : Heartbeat} {o : Option Backend} {b' : Backend}

theorem onRecord_unlisted (unlisted : entriesFor k h.backends = []) :
    h.onRecord p now agentId region k o = o.map (Backend.forecasted p now agentId h.forecast) := by
  rw [onRecord, unlisted]
  rfl

theorem onRecord_listed {c : BackendClaim} (last : (entriesFor k h.backends).getLast? = some c) :
    ∃ b, h.onRecord p now agentId region k o = some b ∧ b.HeardBy agentId region now c := by
  obtain ⟨before, split⟩ := List.getLast?_eq_some_iff.1 last
  rw [onRecord, split, List.foldl_concat]
  exact ⟨_, rfl, (Backend.heardBy_enrol c _).forecasted⟩

theorem onRecord_forecast {f : Forecast} (heeded : h.forecast = some f)
    (after : h.onRecord p now agentId region k o = some b') (owner : b'.agentId = agentId) :
    ∃ b : Backend, b' = b.applyDrain f.drain now p.staleAfter := by
  rw [onRecord, heeded] at after
  obtain ⟨b, -, rfl⟩ := Option.map_eq_some_iff.1 after
  exact ⟨b, Backend.forecasted_owned (Backend.forecasted_agentId.symm.trans owner)⟩

theorem onRecord_other (after : h.onRecord p now agentId region k o = some b')
    (other : b'.agentId ≠ agentId) : o = some b' := by
  cases last : (entriesFor k h.backends).getLast? with
  | some c =>
    obtain ⟨b, found, heard⟩ : ∃ b, h.onRecord p now agentId region k o = some b ∧ _ :=
      onRecord_listed last
    obtain rfl := Option.some.inj (found.symm.trans after)
    exact absurd heard.owner other
  | none =>
    rw [onRecord_unlisted (List.getLast?_eq_none_iff.1 last)] at after
    obtain ⟨b, there, rfl⟩ := Option.map_eq_some_iff.1 after
    rw [there, Backend.forecasted_other (Backend.forecasted_agentId ▸ other)]

theorem onRecord_quiet (quiet : h.forecast = none) :
    Drain.ofRecord (h.onRecord p now agentId region k o) = Drain.ofRecord o := by
  rw [onRecord, quiet, ← Registry.foldl_enrolled_drain (entriesFor k h.backends) o]
  exact congrArg Drain.ofRecord Option.map_id'

theorem onRecord_isSome : (h.onRecord p now agentId region k o).isSome = true ↔
    o.isSome = true ∨ entriesFor k h.backends ≠ [] := by
  cases last : (entriesFor k h.backends).getLast? with
  | some c =>
    obtain ⟨b, found, -⟩ : ∃ b, h.onRecord p now agentId region k o = some b ∧ _ :=
      onRecord_listed last
    have listed : entriesFor k h.backends ≠ [] := by
      rintro unlisted
      simp [unlisted] at last
    simp [found, listed]
  | none =>
    have unlisted := List.getLast?_eq_none_iff.1 last
    simp [onRecord_unlisted, unlisted]

theorem onRecord_spared (unlisted : entriesFor k h.backends = [])
    (spared : h.forecast = none ∨ o.map Backend.agentId ≠ some agentId) :
    h.onRecord p now agentId region k o = o := by
  rw [onRecord_unlisted unlisted]
  cases o with
  | none => rfl
  | some b =>
    refine congrArg some ?_
    rcases spared with quiet | other
    · rw [quiet]
      rfl
    · exact Backend.forecasted_other fun owner => other (congrArg some owner)

end Heartbeat

namespace Registry

variable {p : RegistryPolicy} {now : Instant} {agentId region : String} {k : BackendKey}
  {r : Registry}

theorem heed_get? (f : Option Forecast) (r : Registry) :
    (heed p now agentId f r).state.get? k =
      (r.get? k).map (Backend.forecasted p now agentId f) := by
  cases f with
  | none => exact Option.map_id'.symm
  | some f => exact drain_get? agentId f.drain

theorem heed_reports (keyed : r.Keyed) (f : Option Forecast) : Reports (heed p now agentId f) r := by
  intro k
  cases f with
  | none => exact (news_self _).symm
  | some f =>
    have reported : Reports (drain p now agentId f.drain) r := drain_reports keyed agentId f.drain
    simpa [heed] using reported k

theorem applyHeartbeat_get? (h : Heartbeat) (r : Registry) :
    (applyHeartbeat p now agentId region h r).state.get? k =
      h.onRecord p now agentId region k (r.get? k) := by
  rw [Heartbeat.onRecord, ← presentAll_get?, applyHeartbeat, bind_apply]
  exact heed_get? h.forecast _

theorem applyHeartbeat_about (keyed : r.Keyed) (h : Heartbeat) :
    (applyHeartbeat p now agentId region h r).effects.about k =
      tidings p now agentId region (r.get? k) (Heartbeat.entriesFor k h.backends) ++
        news ((Heartbeat.entriesFor k h.backends).foldl (enrolled p now agentId region) (r.get? k))
          (h.onRecord p now agentId region k (r.get? k)) := by
  rw [← presentAll_about keyed, ← presentAll_get?, ← applyHeartbeat_get?, applyHeartbeat,
    bind_apply, Effects.about_append]
  congr 1
  exact heed_reports (presentAll_keyed keyed h.backends) h.forecast k

end Registry

namespace Handler

variable {p : NodePolicy} {now : Instant} {agentId region : String} {n : NodeState}

theorem claim_alike (c : BackendClaim) (n : NodeState) :
    Alike (claim p now agentId region c n)
      (onRegistry (Registry.present p.registry now agentId region c) n) := by
  unfold claim
  rw [bind_apply]
  cases (onRegistry (Registry.register p.registry now (c.registration agentId region)) n).result with
  | ok done => exact ⟨rfl, rfl, rfl⟩
  | error e => exact ⟨rfl, rfl, rfl⟩

theorem claim_invalid {c : BackendClaim} (invalid : c.isValid = false) (n : NodeState) :
    Alike (claim p now agentId region c n) ((done () : Operation NodeState Unit) n) :=
  (claim_alike c n).trans (Registry.present_invalid invalid n.registry).on

theorem onRegistry_forEach (cs : List BackendClaim) (f : BackendClaim → Operation Registry Unit)
    (n : NodeState) : forEach cs (fun c => onRegistry (f c)) n = onRegistry (forEach cs f) n := by
  induction cs generalizing n with
  | nil => rfl
  | cons c cs ih =>
    rw [forEach_cons, ih]
    rfl

theorem claims_alike (cs : List BackendClaim) (n : NodeState) :
    Alike (forEach cs (claim p now agentId region) n)
      (onRegistry (forEach cs (Registry.present p.registry now agentId region)) n) := by
  rw [← onRegistry_forEach]
  exact alike_forEach claim_alike cs n

theorem forecast_alike (f : Option Forecast) (n : NodeState) :
    Alike (forecast p now agentId f n) (onRegistry (Registry.heed p.registry now agentId f) n) := by
  cases f with
  | none => exact ⟨rfl, rfl, rfl⟩
  | some f =>
    simp only [forecast, Registry.heed, onRegistry, bind_apply, on_apply, pure_apply, log_apply]
    exact ⟨rfl, rfl, rfl⟩

def accept (p : NodePolicy) (now : Instant) (agentId region : String) (h : Heartbeat) :
    Operation NodeState Unit := do
  forEach h.backends (claim p now agentId region)
  forecast p now agentId h.forecast
  count fun c => { c with heartbeats := c.heartbeats + 1 }

theorem heartbeat_passed {h : Heartbeat} (passes : refusal? p agentId h.fingerprint n = none) :
    Alike (heartbeat p now agentId region h n) (accept p now agentId region h n) := by
  unfold heartbeat
  rw [bind_apply, state_apply]
  simp only [passes]
  exact ⟨rfl, rfl, rfl⟩

theorem heartbeat_alike {h : Heartbeat} (passes : refusal? p agentId h.fingerprint n = none) :
    Alike (heartbeat p now agentId region h n) ((do
      onRegistry (Registry.applyHeartbeat p.registry now agentId region h)
      count fun c => { c with heartbeats := c.heartbeats + 1 }) n) := by
  have apart : Alike (accept p now agentId region h n) ((do
      onRegistry (forEach h.backends (Registry.present p.registry now agentId region))
      onRegistry (Registry.heed p.registry now agentId h.forecast)
      count fun c => { c with heartbeats := c.heartbeats + 1 }) n) :=
    (claims_alike h.backends n).andThen fun n =>
      (forecast_alike h.forecast n).andThen fun n => .refl _
  refine (heartbeat_passed passes).trans (apart.trans ?_)
  exact ⟨rfl, (List.append_assoc _ _ _).symm, (List.append_assoc _ _ _).symm⟩

theorem heartbeat_withoutInvalid {h : Heartbeat}
    (passes : refusal? p agentId h.fingerprint n = none) :
    Alike (heartbeat p now agentId region h n)
      (heartbeat p now agentId region h.withoutInvalid n) := by
  have passes' : refusal? p agentId h.withoutInvalid.fingerprint n = none := passes
  have inert : Alike (accept p now agentId region h n)
      (accept p now agentId region h.withoutInvalid n) :=
    (alike_forEach_filter (fun c => claim_invalid) h.backends n).andThen fun n => .refl _
  exact (heartbeat_passed passes).trans (inert.trans (heartbeat_passed passes').symm)

end Handler

structure Heartbeat.Applied (h : Heartbeat) (agentId region : String) (now : Instant)
    (n n' : NodeState) : Prop where
  listed : ∀ c ∈ h.backends, c.isValid = true → ∃ last b,
    (h.backends.filter fun c' => c'.key = c.key).getLast? = some last ∧
      n'.registry.get? c.key = some b ∧ b.HeardBy agentId region now last
  known : ∀ k, (n'.registry.get? k).isSome = true ↔ (n.registry.get? k).isSome = true ∨
    ∃ c ∈ h.backends, c.isValid = true ∧ c.key = k
  forecast : ∀ f, h.forecast = some f → ∀ k b, n'.registry.get? k = some b → b.agentId = agentId →
    b.drain.draining = f.bleeding ∧ b.drain.reason = f.reason ∧
      b.drain.cpuPercent = f.cpuPercent ∧ b.drain.memPercent = f.memPercent ∧
      b.drain.errorRate = f.errorRate
  others : ∀ k b, n'.registry.get? k = some b → b.agentId ≠ agentId → n.registry.get? k = some b
  spared : ∀ k, (∀ c ∈ h.backends, c.isValid = true → c.key ≠ k) →
    (h.forecast = none ∨ (n.registry.get? k).map Backend.agentId ≠ some agentId) →
      n'.registry.get? k = n.registry.get? k
  quiet : h.forecast = none →
    ∀ k, Drain.ofRecord (n'.registry.get? k) = Drain.ofRecord (n.registry.get? k)
  pins : n'.pins = n.pins
  counters : n'.counters = { n.counters with heartbeats := n.counters.heartbeats + 1 }

namespace Handler

variable {p : NodePolicy} {now : Instant} {agentId region : String} {n : NodeState}

theorem heartbeat_get? {h : Heartbeat} (passes : refusal? p agentId h.fingerprint n = none)
    (k : BackendKey) : (heartbeat p now agentId region h n).state.registry.get? k =
      h.onRecord p.registry now agentId region k (n.registry.get? k) := by
  rw [(heartbeat_alike passes).state, ← Registry.applyHeartbeat_get?]
  rfl

theorem heartbeat_about {h : Heartbeat} (passes : refusal? p agentId h.fingerprint n = none)
    (k : BackendKey) : (heartbeat p now agentId region h n).effects.about k =
      (Registry.applyHeartbeat p.registry now agentId region h n.registry).effects.about k := by
  have alike : Alike (heartbeat p now agentId region h n) _ := heartbeat_alike passes
  rw [Effects.about, alike.changes]
  simp [Effects.about, onRegistry, count]

theorem heartbeat_applied {h : Heartbeat} (passes : refusal? p agentId h.fingerprint n = none) :
    h.Applied agentId region now n (heartbeat p now agentId region h n).state := by
  have unlisted {k : BackendKey} : Heartbeat.entriesFor k h.backends = [] ↔
      ∀ c ∈ h.backends, c.isValid = true → c.key ≠ k := Heartbeat.entriesFor_eq_nil
  constructor
  case listed =>
    intro c there valid
    cases last : (Heartbeat.entriesFor c.key h.backends).getLast? with
    | none => exact absurd rfl (unlisted.1 (List.getLast?_eq_none_iff.1 last) c there valid)
    | some c' =>
      rw [heartbeat_get? passes, ← Heartbeat.entriesFor_key valid]
      obtain ⟨b, found, heard⟩ := Heartbeat.onRecord_listed last
      exact ⟨c', b, last, found, heard⟩
  case known =>
    intro k
    rw [heartbeat_get? passes, Heartbeat.onRecord_isSome, Ne, unlisted]
    push Not
    rfl
  case forecast =>
    intro f heeded k b found owner
    rw [heartbeat_get? passes] at found
    obtain ⟨b, rfl⟩ := Heartbeat.onRecord_forecast heeded found owner
    exact ⟨rfl, rfl, rfl, rfl, rfl⟩
  case others =>
    intro k b found other
    rw [heartbeat_get? passes] at found
    exact Heartbeat.onRecord_other found other
  case spared =>
    intro k elsewhere spared
    rw [heartbeat_get? passes]
    exact Heartbeat.onRecord_spared (unlisted.2 elsewhere) spared
  case quiet =>
    intro quiet k
    rw [heartbeat_get? passes]
    exact Heartbeat.onRecord_quiet quiet
  case pins =>
    rw [(heartbeat_alike passes).state]
    rfl
  case counters =>
    rw [(heartbeat_alike passes).state]
    rfl

section Reordered

variable {h : Heartbeat} {cs : List BackendClaim} (perm : cs.Perm h.backends)
  (distinct : ((h.backends.filter BackendClaim.isValid).map BackendClaim.key).Nodup)
  (passes : refusal? p agentId h.fingerprint n = none)

include perm distinct passes

theorem heartbeat_get?_perm (k : BackendKey) :
    (heartbeat p now agentId region { h with backends := cs } n).state.registry.get? k =
      (heartbeat p now agentId region h n).state.registry.get? k := by
  have passes' : refusal? p agentId { h with backends := cs }.fingerprint n = none := passes
  rw [heartbeat_get? passes, heartbeat_get? passes', Heartbeat.onRecord, Heartbeat.onRecord,
    Heartbeat.entriesFor_perm perm.symm distinct]

theorem heartbeat_about_perm (keyed : n.registry.Keyed) (k : BackendKey) :
    (heartbeat p now agentId region { h with backends := cs } n).effects.about k =
      (heartbeat p now agentId region h n).effects.about k := by
  have passes' : refusal? p agentId { h with backends := cs }.fingerprint n = none := passes
  rw [heartbeat_about passes, heartbeat_about passes', Registry.applyHeartbeat_about keyed,
    Registry.applyHeartbeat_about keyed, Heartbeat.onRecord, Heartbeat.onRecord,
    Heartbeat.entriesFor_perm perm.symm distinct]

end Reordered

/-- A heartbeat that is let through does what its valid entries and its forecast say, and entries
about different backends may stand in any order. -/
theorem heartbeat_entry_by_entry (p : NodePolicy) (now : Instant) (agentId region : String)
    (t : Option Instant) (h : Heartbeat) (n : NodeState)
    (passes : refusal? p agentId h.fingerprint n = none) :
    let after (h : Heartbeat) := handle p now ⟨agentId, region, t, .heartbeat h⟩ n
    h.Applied agentId region now n (after h).state ∧ Alike (after h) (after h.withoutInvalid) ∧
      ∀ cs, cs.Perm h.backends →
        ((h.backends.filter BackendClaim.isValid).map BackendClaim.key).Nodup →
          let reordered := after { h with backends := cs }
          (∀ k, reordered.state.registry.get? k = (after h).state.registry.get? k) ∧
            (n.registry.Keyed →
              ∀ k, reordered.effects.about k = (after h).effects.about k) := by
  refine ⟨heartbeat_applied passes, heartbeat_withoutInvalid passes, fun cs perm distinct => ?_⟩
  exact ⟨heartbeat_get?_perm perm distinct passes, heartbeat_about_perm perm distinct passes⟩

def sharedNode : NodeState where
  registry := (Registry.history Registry.defaultPolicy
    [⟨Registry.atSecond 1, .unchanged, .register ⟨"a2", "us", "web", "10.0.0.1", 80, 50, true⟩⟩,
      ⟨Registry.atSecond 2, .unchanged, .register ⟨"a2", "us", "web", "10.0.0.2", 80, 50, true⟩⟩,
      ⟨Registry.atSecond 3, .unchanged, .drain "a2" ⟨true, "leaving", none, 0, 0, 0⟩⟩,
      ⟨Registry.atSecond 4, .unchanged, .register ⟨"a1", "eu", "db", "10.0.0.3", 5432, 1, true⟩⟩]
    .empty).state
  pins := Table.empty.set "a1" ⟨"a1", "ab", "", "eu", .epoch, .epoch, .epoch, false, none, none⟩
  counters := {}

def guarded : NodePolicy := ⟨Registry.defaultPolicy, AuthSettings.policy {}, true⟩

def busyHeartbeat : Heartbeat where
  backends := [⟨"web", "10.0.0.1", 80, 10, true⟩, ⟨"web", "10.0.0.1", 0, 70, true⟩,
    ⟨"", "10.0.0.2", 80, 70, true⟩, ⟨"web", "10.0.0.1", 80, 20, false⟩,
    ⟨"api", "10.0.0.4", 443, 5, true⟩]
  fingerprint := "AB"
  forecast := some ⟨true, "load", none, 90, 80, 0.5⟩

def calmHeartbeat : Heartbeat :=
  { busyHeartbeat with backends := busyHeartbeat.backends.drop 1, forecast := none }

theorem sharedNode_keyed : sharedNode.registry.Keyed :=
  (Registry.history_traced _ _).keyed Table.keyed_empty

def hear (h : Heartbeat) : Outcome NodeState Unit :=
  handle guarded (Registry.atSecond 9) ⟨"a1", "eu", none, .heartbeat h⟩ sharedNode

theorem heartbeat_takes_over :
    (∃ b, (hear busyHeartbeat).state.registry.get? ⟨"web", "10.0.0.1", 80⟩ = some b ∧
      b.HeardBy "a1" "eu" (Registry.atSecond 9) ⟨"web", "10.0.0.1", 80, 20, false⟩) ∧
    (∃ b, (hear busyHeartbeat).state.registry.get? ⟨"db", "10.0.0.3", 5432⟩ = some b ∧
      b.drain.draining = true ∧ b.drain.reason = "load") ∧
    (hear busyHeartbeat).state.registry.get? ⟨"web", "10.0.0.2", 80⟩ =
      sharedNode.registry.get? ⟨"web", "10.0.0.2", 80⟩ ∧
    Alike (hear busyHeartbeat) (hear busyHeartbeat.withoutInvalid) ∧
    ∀ k, (hear { calmHeartbeat with backends := calmHeartbeat.backends.reverse }).effects.about k =
      (hear calmHeartbeat).effects.about k := by
  have passes : refusal? guarded "a1" "AB" sharedNode = none := by decide +kernel
  obtain ⟨applied, alike, -⟩ := heartbeat_entry_by_entry guarded (Registry.atSecond 9) "a1" "eu"
    none busyHeartbeat sharedNode passes
  obtain ⟨-, -, reordered⟩ := heartbeat_entry_by_entry guarded (Registry.atSecond 9) "a1" "eu"
    none calmHeartbeat sharedNode passes
  refine ⟨?_, ?_, ?_, alike, ?_⟩
  · obtain ⟨last, b, latest, found, heard⟩ := applied.listed ⟨"web", "10.0.0.1", 80, 10, true⟩
      (by decide) (by decide)
    obtain rfl : ⟨"web", "10.0.0.1", 80, 20, false⟩ = last :=
      Option.some.inj ((show _ = _ by decide +kernel).trans latest)
    exact ⟨b, found, heard⟩
  · have owned : ((hear busyHeartbeat).state.registry.get? ⟨"db", "10.0.0.3", 5432⟩).map
        Backend.agentId = some "a1" := by decide +kernel
    obtain ⟨b, found, owner⟩ := Option.map_eq_some_iff.1 owned
    obtain ⟨draining, reason, -⟩ := applied.forecast _ rfl _ b found owner
    exact ⟨b, found, draining, reason⟩
  · exact applied.spared _ (by decide) (.inr (by decide +kernel))
  · exact (reordered _ (List.reverse_perm _) (by decide)).2 sharedNode_keyed

end Handler

end HealthConsensus
