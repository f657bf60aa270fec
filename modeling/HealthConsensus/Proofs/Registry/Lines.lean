import HealthConsensus.Proofs.Logs
import HealthConsensus.Proofs.Registry.Calls
import HealthConsensus.Validator.Basic

namespace HealthConsensus

open Operation

namespace Registry

variable {p : RegistryPolicy} {now : Instant} {r : Registry}

theorem onBackend_plain {k : BackendKey} {change : Backend → Operation Registry Unit}
    (h : ∀ b r, (change b).Plain r) : (onBackend k change).Plain r := by
  apply Logs.readState
  cases r.get? k with
  | none => exact Logs.pure _ _
  | some b => exact Logs.bind (h b r) (Logs.pure _ _)

theorem register_plain (x : Registration) (r : Registry) : (register p now x).Plain r := by
  unfold register
  split
  · exact Logs.pure _ _
  · split
    · exact Logs.pure _ _
    · apply Logs.readState
      cases r.get? x.key with
      | some b => exact Logs.nothing rfl
      | none =>
        refine Logs.bind (Logs.line ?_ _) (Logs.nothing rfl)
        simp [Backend.registered, Fingerprint.fieldNames]

theorem deregister_plain (k : BackendKey) (r : Registry) : (deregister k).Plain r :=
  onBackend_plain fun _ _ => Logs.bind (Logs.nothing rfl)
    (Logs.bind (Logs.line (by simp [Fingerprint.fieldNames]) _) (Logs.nothing rfl))

theorem validate_plain (k : BackendKey) (healthy : Bool) (error : Option String)
    (latency : Duration) (r : Registry) : (validate p now k healthy error latency).Plain r :=
  onBackend_plain fun _ _ => Logs.nothing rfl

theorem setOverride_plain (k : BackendKey) (healthy : Bool) (reason operator : String)
    (r : Registry) : (setOverride p now k healthy reason operator).Plain r :=
  onBackend_plain fun _ _ =>
    Logs.bind (Logs.line (by simp [Fingerprint.fieldNames]) _) (Logs.nothing rfl)

theorem clearOverride_plain (k : BackendKey) (r : Registry) : (clearOverride p now k).Plain r := by
  apply onBackend_plain
  intro b r
  split
  · exact Logs.bind (Logs.line (by simp [Fingerprint.fieldNames]) _) (Logs.nothing rfl)
  · exact Logs.pure _ _

theorem drain_plain (agentId : String) (signal : Drain) (r : Registry) :
    (drain p now agentId signal).Plain r := by
  intro l hl
  simp only [drain_apply, Effects.log_concat, List.mem_flatMap, List.mem_map] at hl
  obtain ⟨_, ⟨b, -, rfl⟩, hl⟩ := hl
  simp only [drainEffects, Backend.drainChanged, Backend.renewal, Effects.log_append,
    List.append_nil] at hl
  split at hl
  · cases hl
  · cases List.mem_singleton.1 hl
    simp [Fingerprint.fieldNames]

theorem silence_plain (message : String) (k : BackendKey) (b : Backend) :
    (b.silence message k).Plain := by
  simp [Backend.silence, Fingerprint.fieldNames]

theorem sweep_plain (r : Registry) : (sweep p now).Plain r := by
  intro l hl
  simp only [sweep_apply, Effects.log_append, Effects.log_concat, List.mem_append, List.mem_flatMap,
    List.mem_map] at hl
  rcases hl with ⟨_, ⟨e, -, rfl⟩, hl⟩ | ⟨_, ⟨b, -, rfl⟩, hl⟩
  · cases List.mem_singleton.1 hl
    exact silence_plain _ _ _
  · simp only [sweepEffects] at hl
    split at hl
    · cases hl
    · simp only [Effects.log_append, Backend.renewal, List.append_nil] at hl
      split at hl
      · cases List.mem_singleton.1 hl
        exact silence_plain _ _ _
      · cases hl

theorem operation_plain (c : RegistryCall) (r : Registry) : (c.operation p now).Plain r := by
  cases c with
  | register x => exact Logs.bind (register_plain x r) (Logs.pure _ _)
  | deregister k => exact Logs.bind (deregister_plain k r) (Logs.pure _ _)
  | validate k healthy error latency =>
    exact Logs.bind (validate_plain k healthy error latency r) (Logs.pure _ _)
  | setOverride k healthy reason operator =>
    exact Logs.bind (setOverride_plain k healthy reason operator r) (Logs.pure _ _)
  | clearOverride k => exact Logs.bind (clearOverride_plain k r) (Logs.pure _ _)
  | drain agentId signal => exact Logs.bind (drain_plain agentId signal r) (Logs.pure _ _)
  | sweep => exact Logs.bind (sweep_plain r) (Logs.pure _ _)

end Registry

namespace Validator

variable {p : RegistryPolicy} {now : Instant}

theorem land_plain (b : Backend) (v : Verdict) (r : Registry) : (land p now b v).Plain r := by
  refine Logs.bind (Registry.validate_plain _ _ _ _ r) ?_
  split
  · exact Logs.pure _ _
  · refine Logs.bind ?_ (Logs.pure _ _)
    intro l hl
    simp only [effect_apply, disagreement] at hl
    split at hl
    · cases hl
    · cases List.mem_singleton.1 hl
      simp [Fingerprint.fieldNames]

theorem removeAt_plain (t : Target) (r : Registry) : (removeAt t).Plain r :=
  Logs.forEach (fun k _ r => Logs.bind (Registry.deregister_plain k r) (Logs.pure _ _)) r

theorem removal_plain {α : Type} {next : Unit → Operation Registry α}
    (h : ∀ r, (next ()).Plain r) (removes : Bool) (t : Target) (r : Registry) :
    (if removes = true then removeAt t >>= next else next ()).Plain r := by
  split
  · exact Logs.bind (removeAt_plain t r) (h _)
  · exact h r

theorem checkOne_plain (script : Script) (s : ValidatorSettings) (b : Backend)
    (sum : ValidationSummary) (r : Registry) : (checkOne p now script s b sum).Plain r := by
  refine removal_plain (fun r => ?_) _ _ r
  split
  · exact Logs.bind (Logs.line (by simp [crash]) _) (Logs.pure _ _)
  · apply Logs.bind (land_plain b _ r)
    split
    · exact Logs.pure _ _
    · exact Logs.pure _ _

theorem checkAll_plain (script : Script) (s : ValidatorSettings) (bs : List Backend)
    (sum : ValidationSummary) (r : Registry) : (checkAll p now script s bs sum).Plain r := by
  induction bs generalizing sum r with
  | nil => exact Logs.pure _ _
  | cons b bs ih => exact Logs.bind (checkOne_plain script s b sum r) (ih _ _)

theorem sweep_plain (script : Script) (s : ValidatorSettings) (r : Registry) :
    (sweep p now script s).Plain r := checkAll_plain script s r.all {} r

theorem checkBackend_plain (script : Script) (s : ValidatorSettings) (k : BackendKey)
    (r : Registry) : (checkBackend p now script s k).Plain r := by
  apply Logs.readState
  split
  · exact Logs.pure _ _
  · refine removal_plain (fun r => ?_) _ _ r
    split
    · exact Logs.pure _ _
    · apply Logs.bind (land_plain _ _ r)
      split
      · exact Logs.pure _ _
      · exact Logs.pure _ _

end Validator

end HealthConsensus
