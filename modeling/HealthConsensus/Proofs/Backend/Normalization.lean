import HealthConsensus.Proofs.Backend.Record
import HealthConsensus.Proofs.Json.Figures
import HealthConsensus.Proofs.Json.Records

namespace HealthConsensus

open Json

namespace Drain

structure IsFinite (d : Drain) : Prop where
  cpu : d.cpuPercent.isFinite = true
  memory : d.memPercent.isFinite = true
  errors : d.errorRate.isFinite = true

theorem isFinite_none : none.IsFinite := ⟨by decide, by decide, by decide⟩

theorem isFinite_of_required {field : Option Json} {x : Float}
    (h : Field.required float? field = some x) : x.isFinite = true := by
  obtain ⟨j, -, read⟩ := Option.bind_eq_some_iff.1 h
  exact isFinite_of_float? read

theorem isFinite_of_ofJson? {j : Json} {d : Drain} (h : ofJson? j = some d) : d.IsFinite := by
  rw [ofJson?] at h
  obtain ⟨fields, -, h⟩ := Option.bind_eq_some_iff.1 h
  split at h
  · simp only [Option.bind_eq_bind, Option.bind_eq_some_iff, Option.pure_def, Option.some.injEq] at h
    obtain ⟨-, -, -, -, -, -, cpu, hc, memory, hm, errors, he, rfl⟩ := h
    exact ⟨isFinite_of_required hc, isFinite_of_required hm, isFinite_of_required he⟩
  · cases h

theorem isRecord :
    IsRecord ["draining", "reason", "since", "cpu_percent", "mem_percent", "error_rate"]
      toJson ofJson? Reads where
  toTakesForms := takesForms (by decide) _ fun _ => rfl
  toNormalizes := normalizes isWritten_toJson fun _ reads => ofJson?_toJson reads

end Drain

namespace Backend

theorem isFinite_of_withDefault {field : Option Json} {d : Drain}
    (h : Field.withDefault .none Drain.ofJson? field = some d) : d.IsFinite := by
  cases field with
  | none =>
    cases h
    exact Drain.isFinite_none
  | some j => exact Drain.isFinite_of_ofJson? h

theorem isFinite_of_ofJson? {j : Json} {b : Backend} (h : ofJson? j = some b) :
    b.drain.IsFinite := by
  rw [ofJson?] at h
  obtain ⟨fields, -, h⟩ := Option.bind_eq_some_iff.1 h
  split at h
  · -- the drain is the eleventh field, so ten of them are passed over
    iterate 10 obtain ⟨_, -, h⟩ := Option.bind_eq_some_iff.1 h
    obtain ⟨drain, read, h⟩ := Option.bind_eq_some_iff.1 h
    iterate 2 obtain ⟨_, -, h⟩ := Option.bind_eq_some_iff.1 h
    cases h
    exact isFinite_of_withDefault read
  · cases h

theorem isRecord : IsRecord fieldNames toJson ofJson? fun b => b.drain.Reads where
  toTakesForms := takesForms (by decide) _ fun _ => rfl
  toNormalizes := normalizes isWritten_toJson fun _ reads => ofJson?_toJson reads

end Backend

namespace LatencyStats

theorem isWritten_infoJson (s : LatencyStats) : s.infoJson.IsWritten :=
  isWritten_obj (by simp [fields, isWritten_nat, Duration.isWritten_toJson, IsWritten])

theorem ofJson?_infoJson (s : LatencyStats) : ofJson? s.infoJson = some s := by
  have fields : s.infoJson.fields? ["smoothed", "samples", "last"] =
      some [some s.smoothed.toJson, some (nat s.samples.toNat), some s.last.toJson] :=
    fields?_obj (by simp [fields]) _
  simp [ofJson?, fields]

end LatencyStats

/-- Every kind of record has a normal form. Of the metrics of a drain it is taken for granted that they
are read back from what is written of them, and those that have been read are finite. -/
theorem Json.records_normalize :
    IsRecord Backend.fieldNames Backend.toJson Backend.ofJson? (fun b => b.drain.Reads) ∧
    IsRecord Pin.fieldNames Pin.toJson Pin.ofJson? (fun _ => True) ∧
    IsRecord ["agent_id", "region", "service", "address", "port", "weight", "healthy"]
      Registration.toJson Registration.ofJson? (fun _ => True) ∧
    IsRecord ["service", "address", "port"] BackendKey.toJson BackendKey.ofJson? (fun _ => True) ∧
    IsRecord ["healthy", "last_check", "error"] Validation.toJson Validation.ofJson?
      (fun _ => True) ∧
    IsRecord ["healthy", "reason", "by", "at"] Override.toJson Override.ofJson? (fun _ => True) ∧
    IsRecord ["draining", "reason", "since", "cpu_percent", "mem_percent", "error_rate"]
      Drain.toJson Drain.ofJson? Drain.Reads ∧
    Normalizes BackendStatus.toJson BackendStatus.ofJson? (fun _ => True) ∧
    IsRecord ["smoothed", "samples", "last"] LatencyStats.infoJson LatencyStats.ofJson?
      (fun _ => True) ∧
    (∀ t b, read? Backend.ofJson? t = some b → b.drain.IsFinite) ∧
    ∀ t d, read? Drain.ofJson? t = some d → d.IsFinite := by
  refine ⟨Backend.isRecord, ?_, ?_, ?_, ?_, ?_, Drain.isRecord, ?_, ?_, ?_, ?_⟩
  · exact isRecord_of_total (takesForms (by decide) _ fun _ => rfl) Pin.isWritten_toJson
      Pin.ofJson?_toJson
  · exact isRecord_of_total (takesForms (by decide) _ fun _ => rfl) Registration.isWritten_toJson
      Registration.ofJson?_toJson
  · exact isRecord_of_total (takesForms (by decide) _ fun _ => rfl) BackendKey.isWritten_toJson
      BackendKey.ofJson?_toJson
  · exact isRecord_of_total (takesForms (by decide) _ fun _ => rfl) Validation.isWritten_toJson
      Validation.ofJson?_toJson
  · exact isRecord_of_total (takesForms (by decide) _ fun _ => rfl) Override.isWritten_toJson
      Override.ofJson?_toJson
  · exact normalizes BackendStatus.isWritten_toJson fun s _ => s.ofJson?_toJson
  · exact isRecord_of_total (takesForms (by decide) _ fun _ => rfl)
      LatencyStats.isWritten_infoJson LatencyStats.ofJson?_infoJson
  · intro t b h
    obtain ⟨j, -, read⟩ := Option.bind_eq_some_iff.1 h
    exact Backend.isFinite_of_ofJson? read
  · intro t d h
    obtain ⟨j, -, read⟩ := Option.bind_eq_some_iff.1 h
    exact Drain.isFinite_of_ofJson? read

def Backend.overruled : Backend where
  service := "web \"\u00e9\"\n"
  address := "fe80::1"
  port := 443
  weight := 4294967295
  agentId := ""
  region := "eu"
  agentHealthy := false
  lastSeen := Instant.latest
  validation := some ⟨false, Instant.epoch, some "connect failed"⟩
  override := some ⟨true, "", "admin", Instant.epoch⟩
  drain := ⟨true, "load", some Instant.epoch, 93.5, -0.0, 1e16⟩
  status := .healthy
  latency := ⟨Duration.ofMilliseconds 12, 3, Duration.zero⟩

theorem Backend.reads_overruled : overruled.drain.Reads :=
  ⟨by decide +kernel, by decide +kernel, by decide +kernel⟩

def Validation.looseText : Bytes :=
  Bytes.ofString ("\x7b\"error\":null,\"by\":[1e999],\"last_check\":" ++
    "\"1970-01-01 01:00:00 +01:00\",\"healthy\":false\x7d")

def Validation.looselyRead : Validation := ⟨false, Instant.epoch, none⟩

theorem Validation.read_looseText : read? ofJson? looseText = some looselyRead := by decide +kernel

theorem Json.records_normalize_overruled :
    (Backend.overruled.drain.Reads ∧
      read? Backend.ofJson? Backend.overruled.toJson.text = some Backend.overruled) ∧
    read? Validation.ofJson? Validation.looseText = some Validation.looselyRead ∧
      rewrite? Validation.toJson Validation.ofJson? Validation.looselyRead.toJson.text =
        some Validation.looselyRead.toJson.text :=
  have ⟨backend, _, _, _, validation, _⟩ := records_normalize
  ⟨⟨Backend.reads_overruled, backend.back _ Backend.reads_overruled⟩,
    Validation.read_looseText, (validation.again _ _ Validation.read_looseText trivial).2⟩

end HealthConsensus
