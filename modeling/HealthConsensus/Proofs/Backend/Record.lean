import HealthConsensus.Admission.Basic
import HealthConsensus.Backend.Record
import HealthConsensus.Proofs.Json.Figures
import HealthConsensus.Proofs.Time.Rfc3339
import HealthConsensus.Registry.Basic

namespace HealthConsensus

open Json

namespace Instant

theorem isWritten_toJson (t : Instant) : t.toJson.IsWritten := isWritten_str _

@[simp] theorem ofJson?_toJson (t : Instant) : ofJson? t.toJson = some t := by
  rw [ofJson?, toJson, string?_str, Option.bind_some, Rfc3339.parse?_text]

end Instant

namespace Duration

theorem isWritten_toJson (d : Duration) : d.toJson.IsWritten :=
  isWritten_obj (by simp [isWritten_nat])

theorem ofParts?_self (d : Duration) : ofParts? d.seconds d.subsecond = some d := by
  have same : d.seconds * 1_000_000_000 + d.subsecond = d.nanoseconds := Nat.div_add_mod' _ _
  simp [ofParts?, same, d.inRange]

@[simp] theorem ofJson?_toJson (d : Duration) : ofJson? d.toJson = some d := by
  have seconds : natBelow? UInt64.size (nat d.seconds) = some d.seconds := by
    have small : d.seconds < UInt64.size := by
      have bound := d.inRange
      simp only [Duration.seconds, UInt64.size]
      omega
    exact natBelow?_nat small small
  have nanos : natBelow? UInt32.size (nat d.subsecond) = some d.subsecond := by
    have small : d.subsecond < 1_000_000_000 := Nat.mod_lt _ (by decide)
    exact natBelow?_nat (Nat.lt_trans small (by decide)) (Nat.lt_trans small (by decide))
  have fields : d.toJson.fields? fieldNames = some [some (nat d.seconds), some (nat d.subsecond)] :=
    fields?_obj (by simp) _
  have members : d.toJson.members? = some [("secs", nat d.seconds), ("nanos", nat d.subsecond)] :=
    members?_obj _
  -- the steps are taken one by one, since the bounds are too large to be counted up to
  unfold ofJson?
  rw [members, fields]
  dsimp only [Option.bind_eq_bind, Option.bind_some]
  rw [Field.required_some, Field.required_some, seconds, Option.bind_some, nanos,
    Option.bind_some, ofParts?_self]
  rfl

end Duration

namespace BackendKey

theorem isWritten_toJson (k : BackendKey) : k.toJson.IsWritten :=
  isWritten_obj (by simp [isWritten_str, isWritten_nat])

@[simp] theorem ofJson?_toJson (k : BackendKey) : ofJson? k.toJson = some k := by
  have fields : k.toJson.fields? ["service", "address", "port"] =
      some [some (str k.service), some (str k.address), some (nat k.port.toNat)] :=
    fields?_obj (by simp) _
  simp [ofJson?, fields]

end BackendKey

namespace Registration

theorem isWritten_toJson (r : Registration) : r.toJson.IsWritten :=
  isWritten_obj (by simp [isWritten_str, isWritten_nat, IsWritten])

@[simp] theorem ofJson?_toJson (r : Registration) : ofJson? r.toJson = some r := by
  have fields : r.toJson.fields?
        ["agent_id", "region", "service", "address", "port", "weight", "healthy"] =
      some [some (str r.agentId), some (str r.region), some (str r.service), some (str r.address),
        some (nat r.port.toNat), some (nat r.weight.toNat), some (.bool r.healthy)] :=
    fields?_obj (by simp) _
  simp [ofJson?, fields]

end Registration

namespace BackendStatus

theorem isWritten_toJson (s : BackendStatus) : s.toJson.IsWritten := isWritten_str _

@[simp] theorem ofJson?_toJson (s : BackendStatus) : ofJson? s.toJson = some s := by
  have text : s.toJson.constructor? = some s.text := string?_str _
  rw [ofJson?, text]
  cases s <;> rfl

end BackendStatus

namespace Validation

theorem isWritten_toJson (v : Validation) : v.toJson.IsWritten := by
  refine isWritten_obj fun f hf => ?_
  rw [List.mem_append] at hf
  rcases hf with hf | hf
  · revert f
    simp [IsWritten, Instant.isWritten_toJson]
  · exact forall_optionalField IsWritten (fun s _ => isWritten_str s) f hf

@[simp] theorem ofJson?_toJson (v : Validation) : ofJson? v.toJson = some v := by
  have fields : v.toJson.fields? ["healthy", "last_check", "error"] =
      some [some (.bool v.healthy), some v.lastCheck.toJson, v.error.map str] := by
    unfold toJson
    rw [fields?_obj]
    · cases v.error <;> rfl
    · cases v.error <;> simp
  simp [ofJson?, fields, Field.optional_map string?_str rfl]

end Validation

namespace Override

theorem isWritten_toJson (o : Override) : o.toJson.IsWritten :=
  isWritten_obj (by simp [IsWritten, isWritten_str, Instant.isWritten_toJson])

@[simp] theorem ofJson?_toJson (o : Override) : ofJson? o.toJson = some o := by
  have fields : o.toJson.fields? ["healthy", "reason", "by", "at"] =
      some [some (.bool o.healthy), some (str o.reason), some (str o.operator),
        some o.setAt.toJson] := fields?_obj (by simp) _
  simp [ofJson?, fields]

end Override

namespace Drain

structure Reads (d : Drain) : Prop where
  cpu : ReadsBack d.cpuPercent
  memory : ReadsBack d.memPercent
  errors : ReadsBack d.errorRate

theorem isWritten_toJson (d : Drain) : d.toJson.IsWritten := by
  refine isWritten_obj fun f hf => ?_
  simp only [List.mem_append] at hf
  rcases hf with ((hf | hf) | hf) | hf
  · revert f
    simp [IsWritten]
  · split at hf
    · cases hf
    · cases List.mem_singleton.1 hf
      exact isWritten_str _
  · exact forall_optionalField IsWritten (fun x _ => x.isWritten_toJson) f hf
  · revert f
    simp [isWritten_float]

def reasonField (d : Drain) : Option Json :=
  if d.reason.isEmpty then Option.none else some (str d.reason)

theorem read_reasonField (d : Drain) :
    Field.withDefault "" string? d.reasonField = some d.reason := by
  unfold reasonField
  split
  · next empty =>
    rw [String.isEmpty_iff.1 empty]
    rfl
  · exact string?_str _

theorem ofJson?_toJson {d : Drain} (h : d.Reads) : ofJson? d.toJson = some d := by
  have fields : d.toJson.fields?
        ["draining", "reason", "since", "cpu_percent", "mem_percent", "error_rate"] =
      some [some (.bool d.draining), d.reasonField, d.since.map Instant.toJson,
        some (float d.cpuPercent), some (float d.memPercent), some (float d.errorRate)] := by
    unfold toJson reasonField
    rw [fields?_obj]
    · cases d.reason.isEmpty <;> cases d.since <;> rfl
    · cases d.reason.isEmpty <;> cases d.since <;> simp
  simp [ofJson?, fields, read_reasonField, Field.optional_map Instant.ofJson?_toJson rfl,
    float?_of_readsBack h.cpu, float?_of_readsBack h.memory, float?_of_readsBack h.errors]

end Drain

namespace LatencyStats

theorem isWritten_toJson (s : LatencyStats) : s.toJson.IsWritten :=
  isWritten_obj (by simp [fields, isWritten_nat, Duration.isWritten_toJson])

@[simp] theorem ofJson?_toJson (s : LatencyStats) : ofJson? s.toJson = some s := by
  have fields : s.toJson.fields? ["smoothed", "samples", "last"] =
      some [some s.smoothed.toJson, some (nat s.samples.toNat), some s.last.toJson] :=
    fields?_obj (by simp [fields]) _
  simp [ofJson?, fields]

end LatencyStats

namespace Backend

theorem isWritten_toJson (b : Backend) : b.toJson.IsWritten := by
  refine isWritten_obj fun f hf => ?_
  simp only [List.mem_append] at hf
  rcases hf with ((hf | hf) | hf) | hf
  · revert f
    simp [IsWritten, isWritten_str, isWritten_nat, Instant.isWritten_toJson]
  · exact forall_optionalField IsWritten (fun x _ => x.isWritten_toJson) f hf
  · exact forall_optionalField IsWritten (fun x _ => x.isWritten_toJson) f hf
  · revert f
    simp [Drain.isWritten_toJson, BackendStatus.isWritten_toJson, LatencyStats.isWritten_toJson]

theorem ofJson?_toJson {b : Backend} (h : b.drain.Reads) : ofJson? b.toJson = some b := by
  have fields : b.toJson.fields? fieldNames =
      some [some (str b.service), some (str b.address), some (nat b.port.toNat),
        some (nat b.weight.toNat), some (str b.agentId), some (str b.region),
        some (.bool b.agentHealthy), some b.lastSeen.toJson, b.validation.map Validation.toJson,
        b.override.map Override.toJson, some b.drain.toJson, some b.status.toJson,
        some b.latency.toJson] := by
    unfold toJson
    rw [fields?_obj]
    · cases b.validation <;> cases b.override <;> rfl
    · cases b.validation <;> cases b.override <;> simp
  unfold ofJson?
  rw [fields]
  dsimp only [Option.bind_eq_bind, Option.bind_some]
  simp only [Field.required_some, Field.withDefault_some, string?_str, uint16?_nat, uint32?_nat,
    bool?_bool, Instant.ofJson?_toJson, Field.optional_map Validation.ofJson?_toJson rfl,
    Field.optional_map Override.ofJson?_toJson rfl, Drain.ofJson?_toJson h,
    BackendStatus.ofJson?_toJson, LatencyStats.ofJson?_toJson, Option.bind_some]
  rfl

theorem ofRecord?_text {b : Backend} (h : b.drain.Reads) : ofRecord? b.toJson.text = some b := by
  rw [ofRecord?, parse?_text b.isWritten_toJson, Option.bind_some, ofJson?_toJson h]

end Backend

namespace Pin

open Json

theorem isWritten_toJson (p : Pin) : p.toJson.IsWritten := by
  refine isWritten_obj fun f hf => ?_
  simp only [List.mem_append] at hf
  rcases hf with (hf | hf) | hf
  · revert f
    simp [IsWritten, isWritten_str, Instant.isWritten_toJson]
  · exact forall_optionalField IsWritten (fun x _ => x.isWritten_toJson) f hf
  · exact forall_optionalField IsWritten (fun s _ => isWritten_str s) f hf

@[simp] theorem ofJson?_toJson (p : Pin) : ofJson? p.toJson = some p := by
  have fields : p.toJson.fields? fieldNames =
      some [some (str p.agentId), some (str p.fingerprint), some (str p.certificatePem),
        some (str p.region), some p.firstSeen.toJson, some p.lastSeen.toJson,
        some p.notAfter.toJson, some (.bool p.revoked), p.revokedAt.map Instant.toJson,
        p.revokedReason.map str] := by
    unfold toJson
    rw [fields?_obj]
    · cases p.revokedAt <;> cases p.revokedReason <;> rfl
    · cases p.revokedAt <;> cases p.revokedReason <;> simp
  simp [ofJson?, fields, Field.optional_map Instant.ofJson?_toJson rfl,
    Field.optional_map string?_str rfl]

theorem ofRecord?_text (p : Pin) : ofRecord? p.toJson.text = some p := by
  rw [ofRecord?, parse?_text p.isWritten_toJson, Option.bind_some, ofJson?_toJson]

end Pin

end HealthConsensus
