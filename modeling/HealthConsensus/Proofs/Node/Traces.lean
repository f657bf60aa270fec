import HealthConsensus.Admin.Routes
import HealthConsensus.Node.Basic
import HealthConsensus.Proofs.Admission.Calls
import HealthConsensus.Proofs.Registry.Calls

namespace HealthConsensus

open Operation

def Registry.MadeBy (p : RegistryPolicy) (now : Instant) (calls : RegistryCall → Prop)
    (m : Move Backend) : Prop := ∃ c, calls c ∧ c.Makes p now m

def Pins.MadeBy (p : AdmissionPolicy) (now : Instant) (calls : PinsCall → Prop) (m : Move Pin) :
    Prop := ∃ c, calls c ∧ c.Makes p now m

inductive RegistryCall.IsCheck : RegistryCall → Prop
  | validate (k : BackendKey) (healthy : Bool) (error : Option String) (latency : Duration) :
      IsCheck (.validate k healthy error latency)
  | deregister (k : BackendKey) : IsCheck (.deregister k)

inductive RegistryCall.IsOperator : RegistryCall → Prop
  | check (c : RegistryCall) : c.IsCheck → IsOperator c
  | setOverride (k : BackendKey) (healthy : Bool) (reason operator : String) :
      IsOperator (.setOverride k healthy reason operator)
  | clearOverride (k : BackendKey) : IsOperator (.clearOverride k)

theorem RegistryCall.IsCheck.not_register {c : RegistryCall} (h : c.IsCheck) (r : Registration) :
    c ≠ .register r := by
  rintro rfl
  cases h

theorem RegistryCall.IsOperator.not_register {c : RegistryCall} (h : c.IsOperator)
    (r : Registration) : c ≠ .register r := by
  rintro rfl
  cases h with
  | check _ check => exact check.not_register r rfl

inductive PinsCall.IsOperator : PinsCall → Prop
  | revoke (agentId reason : String) : IsOperator (.revoke agentId reason)
  | unpin (agentId : String) : IsOperator (.unpin agentId)

namespace Validator

open Registry

variable {p : RegistryPolicy} {now : Instant} {r : Registry}

abbrev Checks (p : RegistryPolicy) (now : Instant) : Registry → Effects → Registry → Prop :=
  Traced (MadeBy p now RegistryCall.IsCheck)

theorem checks_law : Operation.Law (Checks p now) := traced_law _

theorem land_checks (b : Backend) (v : Verdict) (r : Registry) :
    (land p now b v).Obeys (Checks p now) r := by
  apply checks_law.bind
  · exact (validate_traced b.key v.healthy v.error v.latency r).mono fun _ _ _ h =>
      h.mono fun _ hm => ⟨_, .validate _ _ _ _, hm⟩
  · split
    · exact checks_law.pure _ _
    · exact checks_law.bind (checks_law.silent _ _) (checks_law.pure _ _)

theorem removeAt_checks (t : Target) (r : Registry) :
    (removeAt t).Obeys (Checks p now) r := by
  apply checks_law.forEach
  intro k _ r
  exact checks_law.bind
    ((deregister_traced p now k r).mono fun _ _ _ h =>
      h.mono fun _ hm => ⟨_, .deregister k, hm⟩)
    (checks_law.pure _ _)

theorem removal_checks {α : Type} {next : Unit → Operation Registry α}
    (h : ∀ r, (next ()).Obeys (Checks p now) r) (removes : Bool) (t : Target) (r : Registry) :
    (if removes = true then removeAt t >>= next else next ()).Obeys (Checks p now) r := by
  split
  · exact checks_law.bind (removeAt_checks t r) (h _)
  · exact h r

theorem checkOne_checks (script : Script) (s : ValidatorSettings) (b : Backend)
    (sum : ValidationSummary) (r : Registry) :
    (checkOne p now script s b sum).Obeys (Checks p now) r := by
  refine removal_checks (fun r => ?_) _ _ r
  split
  · exact checks_law.bind (checks_law.log _ _) (checks_law.pure _ _)
  · apply checks_law.bind (land_checks _ _ _)
    split
    · exact checks_law.pure _ _
    · exact checks_law.pure _ _

theorem checkAll_checks (script : Script) (s : ValidatorSettings) (bs : List Backend)
    (sum : ValidationSummary) (r : Registry) :
    (checkAll p now script s bs sum).Obeys (Checks p now) r := by
  induction bs generalizing sum r with
  | nil => exact checks_law.pure _ _
  | cons b bs ih => exact checks_law.bind (checkOne_checks script s b sum r) (ih _ _)

theorem sweep_checks (script : Script) (s : ValidatorSettings) (r : Registry) :
    (sweep p now script s).Obeys (Checks p now) r :=
  checkAll_checks script s r.all {} r

theorem checkBackend_checks (script : Script) (s : ValidatorSettings) (k : BackendKey)
    (r : Registry) : (checkBackend p now script s k).Obeys (Checks p now) r := by
  apply Obeys.readState
  split
  · exact checks_law.pure _ _
  · refine removal_checks (fun r => ?_) _ _ r
    split
    · exact checks_law.pure _ _
    · apply checks_law.bind (land_checks _ _ _)
      split
      · exact checks_law.pure _ _
      · exact checks_law.pure _ _

end Validator

namespace Effects

def ofBackends (e : Effects) : Effects := ⟨e.changes, e.writes.filter fun w => !w.isOfPin, []⟩

def ofPins (e : Effects) : Effects := ⟨[], e.writes.filter RecordWrite.isOfPin, []⟩

@[simp] theorem ofBackends_append (d e : Effects) :
    (d ++ e).ofBackends = d.ofBackends ++ e.ofBackends := by
  simp only [ofBackends, changes_append, writes_append, List.filter_append]
  rfl

@[simp] theorem ofPins_append (d e : Effects) : (d ++ e).ofPins = d.ofPins ++ e.ofPins := by
  simp only [ofPins, writes_append, List.filter_append]
  rfl

end Effects

theorem isOfPin_of_backend {ms : List (Move Backend)} {w : RecordWrite}
    (h : w ∈ ms.flatMap (Move.writes backendKind)) : w.isOfPin = false := by
  obtain ⟨m, -, hw⟩ := List.mem_flatMap.1 h
  cases m <;> (rw [List.mem_singleton.1 hw]; rfl)

theorem isOfPin_of_pin {ms : List (Move Pin)} {w : RecordWrite}
    (h : w ∈ ms.flatMap (Move.writes pinKind)) : w.isOfPin = true := by
  obtain ⟨m, -, hw⟩ := List.mem_flatMap.1 h
  cases m <;> (rw [List.mem_singleton.1 hw]; rfl)

namespace NodeState

structure Keyed (n : NodeState) : Prop where
  registry : n.registry.Keyed
  pins : n.pins.Keyed

def Traced (kinds : Move Backend → Prop) (pinKinds : Move Pin → Prop) (n : NodeState) (e : Effects)
    (n' : NodeState) : Prop :=
  n.Keyed → Registry.Traced kinds n.registry e.ofBackends n'.registry ∧
    Pins.Traced pinKinds n.pins e.ofPins n'.pins

variable {kinds kinds' : Move Backend → Prop} {pinKinds pinKinds' : Move Pin → Prop}
  {n n' : NodeState} {e : Effects}

theorem Traced.keyed (h : Traced kinds pinKinds n e n') (keyed : n.Keyed) : n'.Keyed :=
  ⟨(h keyed).1.keyed keyed.registry, (h keyed).2.keyed keyed.pins⟩

theorem Traced.mono (hk : ∀ m, kinds m → kinds' m) (hp : ∀ m, pinKinds m → pinKinds' m)
    (h : Traced kinds pinKinds n e n') : Traced kinds' pinKinds' n e n' := fun keyed =>
  ⟨(h keyed).1.mono hk, (h keyed).2.mono hp⟩

theorem traced_law (kinds : Move Backend → Prop) (pinKinds : Move Pin → Prop) :
    Operation.Law (Traced kinds pinKinds) where
  silent n _ := fun _ =>
    ⟨(Registry.traced_law _).silent n.registry [], (Pins.traced_law _).silent n.pins []⟩
  comp {n n' n'' d e} hd he := fun keyed => by
    have later := he (hd.keyed keyed)
    rw [Effects.ofBackends_append, Effects.ofPins_append]
    exact ⟨(Registry.traced_law _).comp (hd keyed).1 later.1,
      (Pins.traced_law _).comp (hd keyed).2 later.2⟩

variable {α : Type}

theorem onRegistry_traced {a : Operation Registry α}
    (h : a.Obeys (Registry.Traced kinds) n.registry) :
    (onRegistry a).Obeys (Traced kinds pinKinds) n := fun keyed => by
  obtain ⟨ms, hms, path, changes, writes⟩ := h keyed.registry
  have ours : ∀ w ∈ (a n.registry).effects.writes, w.isOfPin = false := by
    rw [writes]
    exact fun _ => isOfPin_of_backend
  refine ⟨fun _ => ⟨ms, hms, path, changes, ?_⟩, fun _ => ⟨[], by simp, .nil _, rfl, ?_⟩⟩
  · refine Eq.trans (List.filter_eq_self.2 fun w hw => ?_) writes
    rw [ours w hw]
    rfl
  · refine List.filter_eq_nil_iff.2 fun w hw => ?_
    rw [ours w hw]
    exact Bool.false_ne_true

theorem onPins_traced {a : Operation Pins α} (h : a.Obeys (Pins.Traced pinKinds) n.pins) :
    (onPins a).Obeys (Traced kinds pinKinds) n := fun keyed => by
  obtain ⟨ms, hms, path, changes, writes⟩ := h keyed.pins
  have theirs : ∀ w ∈ (a n.pins).effects.writes, w.isOfPin = true := by
    rw [writes]
    exact fun _ => isOfPin_of_pin
  have silent : (a n.pins).effects.changes = [] := by
    rw [changes]
    exact List.flatMap_eq_nil_iff.2 fun _ _ => rfl
  refine ⟨fun _ => ⟨[], by simp, .nil _, silent, ?_⟩, fun _ => ⟨ms, hms, path, ?_, ?_⟩⟩
  · refine List.filter_eq_nil_iff.2 fun w hw => ?_
    rw [theirs w hw]
    exact Bool.false_ne_true
  · exact (List.flatMap_eq_nil_iff.2 fun _ _ => rfl).symm
  · exact Eq.trans (List.filter_eq_self.2 theirs) writes

theorem count_traced (f : Counters → Counters) (n : NodeState) :
    (count f).Obeys (Traced kinds pinKinds) n := fun _ =>
  ⟨(Registry.traced_law _).silent n.registry [], (Pins.traced_law _).silent n.pins []⟩

end NodeState

end HealthConsensus
