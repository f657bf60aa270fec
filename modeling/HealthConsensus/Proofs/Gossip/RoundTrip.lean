import HealthConsensus.Proofs.Gossip.Lenient
import HealthConsensus.Proofs.Json.ReadBack

namespace HealthConsensus

open Json

namespace BackendClaim

theorem isWritten_toJson (c : BackendClaim) : c.toJson.IsWritten :=
  isWritten_obj (by simp [isWritten_str, isWritten_nat, IsWritten])

theorem isReadable_toJson (c : BackendClaim) (depth : Nat) :
    c.toJson.isReadable (depth + 1) = true :=
  isReadable_obj (by simp [isReadable_str, isReadable_uint16, isReadable_uint32, isReadable])

theorem ofJson_toJson (c : BackendClaim) : ofJson c.toJson = c := by
  have field (name : String) : c.toJson.get? name = List.lookup name
      [("address", .str c.address), ("healthy", .bool c.healthy), ("port", .nat c.port.toNat),
        ("service", .str c.service), ("weight", .nat c.weight.toNat)] := get?_obj (by simp) name
  simp [ofJson, field, List.lookup_cons]

end BackendClaim

namespace Forecast

structure IsFinite (f : Forecast) : Prop where
  cpu : f.cpuPercent.isFinite = true
  memory : f.memPercent.isFinite = true
  errors : f.errorRate.isFinite = true

theorem isWritten_toJson (f : Forecast) : f.toJson.IsWritten := by
  refine isWritten_obj fun g hg => ?_
  simp only [List.mem_append] at hg
  rcases hg with (hg | hg) | hg
  · revert g
    simp [isWritten_str, IsWritten]
  · exact forall_optionalField IsWritten (fun x _ => x.isWritten_toJson) g hg
  · revert g
    simp [isWritten_float]

structure Reads (f : Forecast) : Prop where
  cpu : ReadsBack f.cpuPercent
  memory : ReadsBack f.memPercent
  errors : ReadsBack f.errorRate

theorem Reads.isFinite {f : Forecast} (h : f.Reads) : f.IsFinite :=
  ⟨isFinite_of_float? h.cpu, isFinite_of_float? h.memory, isFinite_of_float? h.errors⟩

theorem isReadable_toJson {f : Forecast} (h : f.Reads) (depth : Nat) :
    f.toJson.isReadable (depth + 1) = true := by
  have figure {x : Float} (h : ReadsBack x) : (float x).isReadable depth = true :=
    isReadable_of_number? (number?_of_readsBack h)
  refine isReadable_obj fun g hg => ?_
  simp only [List.mem_append] at hg
  rcases hg with (hg | hg) | hg
  · revert g
    simp [isReadable_str, isReadable]
  · exact forall_optionalField (·.isReadable depth = true)
      (fun t _ => t.isReadable_toJson depth) g hg
  · revert g
    simp [figure h.cpu, figure h.memory, figure h.errors]

theorem beq_eq (f g : Forecast) : (f == g) =
    (f.bleeding == g.bleeding && (f.reason == g.reason && (f.bleedingAt == g.bleedingAt &&
      (f.cpuPercent == g.cpuPercent && (f.memPercent == g.memPercent &&
        f.errorRate == g.errorRate))))) := rfl

theorem ofFields_toJson (f : Forecast) : ofFields (fun name _ => f.toJson.get? name) =
    { f with
      cpuPercent := Lenient.figure (some (float f.cpuPercent))
      memPercent := Lenient.figure (some (float f.memPercent))
      errorRate := Lenient.figure (some (float f.errorRate)) } := by
  have field (name : String) : f.toJson.get? name = List.lookup name
      (([("bleed_reason", str f.reason), ("bleeding", Json.bool f.bleeding)] : List (String × Json))
        ++ optionalField "bleeding_at" Instant.toJson f.bleedingAt
        ++ [("cpu_percent", float f.cpuPercent), ("error_rate", float f.errorRate),
          ("mem_percent", float f.memPercent)]) := by
    apply get?_obj
    cases f.bleedingAt <;> simp
  have flag : f.toJson.get? "bleeding" = some (.bool f.bleeding) := by
    rw [field]
    rfl
  have reason : f.toJson.get? "bleed_reason" = some (str f.reason) := by
    rw [field]
    rfl
  have start : f.toJson.get? "bleeding_at" = f.bleedingAt.map Instant.toJson := by
    rw [field]
    cases f.bleedingAt <;> rfl
  have cpu : f.toJson.get? "cpu_percent" = some (float f.cpuPercent) := by
    rw [field]
    cases f.bleedingAt <;> rfl
  have memory : f.toJson.get? "mem_percent" = some (float f.memPercent) := by
    rw [field]
    cases f.bleedingAt <;> rfl
  have errors : f.toJson.get? "error_rate" = some (float f.errorRate) := by
    rw [field]
    cases f.bleedingAt <;> rfl
  simp [ofFields, flag, reason, start, cpu, memory, errors]

theorem ofJson?_toJson {f : Forecast} (h : f.Reads) :
    ∃ f', ofJson? f.toJson = some f' ∧ (f' == f) = true := by
  have read : ofJson? f.toJson = some (ofFields fun name _ => f.toJson.get? name) := rfl
  rw [ofFields_toJson] at read
  refine ⟨_, read, ?_⟩
  rw [beq_eq]
  simp [Lenient.figure_float h.cpu, Lenient.figure_float h.memory,
    Lenient.figure_float h.errors]

theorem isFinite_ofJson? {j : Json} {f : Forecast} (h : ofJson? j = some f) : f.IsFinite := by
  have fields (field : String → Nat → Option Json) : (ofFields field).IsFinite :=
    ⟨Lenient.isFinite_figure _, Lenient.isFinite_figure _, Lenient.isFinite_figure _⟩
  cases j with
  | object members =>
    cases h
    exact fields _
  | array items =>
    rw [ofJson?] at h
    split at h
    · cases h
      exact fields _
    · cases h
  | _ => cases h

end Forecast

namespace Heartbeat

def IsFinite (p : Heartbeat) : Prop := ∀ f ∈ p.forecast, f.IsFinite

def Reads (p : Heartbeat) : Prop := ∀ f ∈ p.forecast, f.Reads

theorem isWritten_toJson (p : Heartbeat) : (Payload.heartbeat p).toJson.IsWritten := by
  refine isWritten_obj fun g hg => ?_
  rw [List.mem_append] at hg
  rcases hg with hg | hg
  · revert g
    simp [isWritten_str, isWritten_list p.backends BackendClaim.isWritten_toJson]
  · exact forall_optionalField IsWritten (fun x _ => x.isWritten_toJson) g hg

theorem isReadable_toJson {p : Heartbeat} (h : p.Reads) (depth : Nat) :
    (Payload.heartbeat p).toJson.isReadable (depth + 3) = true := by
  refine isReadable_obj fun g hg => ?_
  rw [List.mem_append] at hg
  rcases hg with hg | hg
  · revert g
    have claims : (list BackendClaim.toJson p.backends).isReadable (depth + 2) = true :=
      isReadable_list p.backends fun c => c.isReadable_toJson depth
    simp [isReadable_str, claims]
  · exact forall_optionalField (·.isReadable (depth + 2) = true)
      (fun f hf => Forecast.isReadable_toJson (h f hf) (depth + 1)) g hg

theorem beq_eq (p q : Heartbeat) : (p == q) =
    (p.backends == q.backends && (p.fingerprint == q.fingerprint && p.forecast == q.forecast)) := rfl

theorem ofJson_toJson {p : Heartbeat} (h : p.Reads) :
    (ofJson (Payload.heartbeat p).toJson == p) = true := by
  have field (name : String) : (Payload.heartbeat p).toJson.get? name = List.lookup name
      (([("backends", list BackendClaim.toJson p.backends), ("fingerprint", str p.fingerprint)] :
          List (String × Json))
        ++ optionalField "predictive" Forecast.toJson p.forecast) := by
    apply get?_obj
    cases p.forecast <;> simp
  have claims : (Payload.heartbeat p).toJson.get? "backends" =
      some (list BackendClaim.toJson p.backends) := by
    rw [field]
    rfl
  have fingerprint : (Payload.heartbeat p).toJson.get? "fingerprint" = some (str p.fingerprint) := by
    rw [field]
    rfl
  have forecast : (Payload.heartbeat p).toJson.get? "predictive" =
      p.forecast.map Forecast.toJson := by
    rw [field]
    cases p.forecast <;> rfl
  have backends : (ofJson (Payload.heartbeat p).toJson).backends = p.backends := by
    have objects : (p.backends.map BackendClaim.toJson).filter Json.isObject =
        p.backends.map BackendClaim.toJson := by
      rw [List.filter_eq_self]
      intro j hj
      obtain ⟨c, -, rfl⟩ := List.mem_map.1 hj
      rfl
    have array : (list BackendClaim.toJson p.backends).array? =
        some (p.backends.map BackendClaim.toJson) := rfl
    rw [ofJson, claims, Option.bind_some, array, Option.getD_some, objects, List.map_map]
    exact (List.map_congr_left fun c _ => c.ofJson_toJson).trans (List.map_id _)
  have same : ((ofJson (Payload.heartbeat p).toJson).forecast == p.forecast) = true := by
    rw [ofJson, forecast]
    cases given : p.forecast with
    | none => rfl
    | some f =>
      obtain ⟨f', read, same⟩ := Forecast.ofJson?_toJson (h f given)
      rw [Option.map_some, Option.bind_some, read]
      exact same
  have text : (ofJson (Payload.heartbeat p).toJson).fingerprint = p.fingerprint := by
    rw [ofJson, fingerprint, Lenient.text_str]
  rw [beq_eq, backends, text, same]
  simp

theorem isFinite_ofJson (j : Json) : (ofJson j).IsFinite := by
  intro f hf
  obtain ⟨forecast, -, read⟩ := Option.bind_eq_some_iff.1 hf
  exact Forecast.isFinite_ofJson? read

end Heartbeat

theorem RegisterRequest.ofJson_toJson (r : RegisterRequest) :
    ofJson (Payload.register r).toJson = r := by
  have field (name : String) : (Payload.register r).toJson.get? name = List.lookup name
      [("address", .str r.address), ("port", .nat r.port.toNat), ("service", .str r.service),
        ("weight", .nat r.weight.toNat)] := get?_obj (by simp) name
  simp [ofJson, field, List.lookup_cons]

theorem DeregisterRequest.ofJson_toJson (r : DeregisterRequest) :
    ofJson (Payload.deregister r).toJson = r := by
  have field (name : String) : (Payload.deregister r).toJson.get? name = List.lookup name
      [("address", .str r.address), ("port", .nat r.port.toNat), ("service", .str r.service)] :=
    get?_obj (by simp) name
  simp [ofJson, field, List.lookup_cons]

theorem AuthRequest.ofJson_toJson (r : AuthRequest) :
    ofJson (Payload.agentAuth r).toJson = r := by
  have field (name : String) : (Payload.agentAuth r).toJson.get? name = List.lookup name
      [("certificate_pem", .str r.certificatePem), ("fingerprint", .str r.fingerprint),
        ("service_token", .str r.serviceToken)] := get?_obj (by simp) name
  simp [ofJson, field, List.lookup_cons]

namespace Payload

def kinds : List String := ["heartbeat", "register", "deregister", "agent_auth"]

theorem mem_kinds_iff {kind : String} : kind ∈ kinds ↔
    kind = "heartbeat" ∨ kind = "register" ∨ kind = "deregister" ∨ kind = "agent_auth" := by
  simp [kinds]

def IsSendable : Payload → Prop
  | heartbeat p => p.IsFinite
  | unknown kind => kind ∉ kinds
  | _ => True

def Reads : Payload → Prop
  | heartbeat p => p.Reads
  | _ => True

theorem isWritten_toJson (p : Payload) : p.toJson.IsWritten := by
  cases p with
  | heartbeat p => exact p.isWritten_toJson
  | register p => exact isWritten_obj (by simp [isWritten_str, isWritten_nat])
  | deregister p => exact isWritten_obj (by simp [isWritten_str, isWritten_nat])
  | agentAuth p => exact isWritten_obj (by simp [isWritten_str])
  | unknown kind => trivial

theorem isReadable_toJson {p : Payload} (h : p.Reads) (depth : Nat) :
    p.toJson.isReadable (depth + 3) = true := by
  cases p with
  | heartbeat p => exact Heartbeat.isReadable_toJson h depth
  | register p =>
    exact isReadable_obj (by simp [isReadable_str, isReadable_uint16, isReadable_uint32])
  | deregister p => exact isReadable_obj (by simp [isReadable_str, isReadable_uint16])
  | agentAuth p => exact isReadable_obj (by simp [isReadable_str])
  | unknown kind => rfl

theorem ofJson?_of_unknown {kind : String} (h : kind ∉ kinds) (j : Json) :
    ofJson? kind j = some (.unknown kind) := by
  simp only [mem_kinds_iff, not_or] at h
  obtain ⟨heartbeat, register, deregister, agentAuth⟩ := h
  rw [ofJson?, if_neg heartbeat, if_neg register, if_neg deregister, if_neg agentAuth]

theorem ofJson?_toJson {p : Payload} (h : p.IsSendable) (reads : p.Reads) :
    ∃ p', ofJson? p.kind p.toJson = some p' ∧ (p' == p) = true := by
  cases p with
  | heartbeat p => exact ⟨_, rfl, Heartbeat.ofJson_toJson reads⟩
  | register r =>
    refine ⟨_, rfl, ?_⟩
    rw [r.ofJson_toJson]
    exact beq_self_eq_true r
  | deregister r =>
    refine ⟨_, rfl, ?_⟩
    rw [r.ofJson_toJson]
    exact beq_self_eq_true r
  | agentAuth r =>
    refine ⟨_, rfl, ?_⟩
    rw [r.ofJson_toJson]
    exact beq_self_eq_true r
  | unknown kind => exact ⟨_, ofJson?_of_unknown h _, beq_self_eq_true kind⟩

theorem isSendable_of_ofJson? {kind : String} {j : Json} {p : Payload}
    (h : ofJson? kind j = some p) : p.IsSendable := by
  by_cases known : kind ∈ kinds
  · rcases mem_kinds_iff.1 known with rfl | rfl | rfl | rfl
    · obtain ⟨-, rfl⟩ : j.isObject = true ∧ heartbeat (.ofJson j) = p := by simpa [ofJson?] using h
      exact Heartbeat.isFinite_ofJson j
    · obtain ⟨-, rfl⟩ : j.isObject = true ∧ register (.ofJson j) = p := by simpa [ofJson?] using h
      trivial
    · obtain ⟨-, rfl⟩ : j.isObject = true ∧ deregister (.ofJson j) = p := by simpa [ofJson?] using h
      trivial
    · obtain ⟨-, rfl⟩ : j.isObject = true ∧ agentAuth (.ofJson j) = p := by simpa [ofJson?] using h
      trivial
  · rw [ofJson?_of_unknown known] at h
    cases h
    exact known

end Payload

namespace Message

theorem isWritten_toJson (m : Message) : m.toJson.IsWritten := by
  refine isWritten_obj fun f hf => ?_
  simp only [List.mem_append] at hf
  rcases hf with (hf | hf) | hf
  · revert f
    simp [isWritten_str]
  · exact forall_optionalField IsWritten (fun x _ => x.isWritten_toJson) f hf
  · cases List.mem_singleton.1 hf
    exact m.payload.isWritten_toJson

theorem parse?_encode (m : Message) : parse? m.encode = some m.toJson :=
  parse?_text m.isWritten_toJson

theorem envelope?_toJson {m : Message} (h : m.payload.Reads) : envelope? m.toJson =
    some [some (str m.payload.kind), some (str m.agentId), some (str m.region),
      m.timestamp.map Instant.toJson, some m.payload.toJson] := by
  have fields : m.toJson.fields? fieldNames =
      some [some (str m.payload.kind), some (str m.agentId), some (str m.region),
        m.timestamp.map Instant.toJson, some m.payload.toJson] := by
    unfold toJson
    rw [fields?_obj]
    · cases m.timestamp <;> rfl
    · cases m.timestamp <;> simp
  have stamped : (m.timestamp.map Instant.toJson).all (isReadable depthLimit) = true := by
    cases m.timestamp with
    | none => rfl
    | some t => rw [Option.map_some, Option.all_some, t.isReadable_toJson]
  have payload : m.payload.toJson.isReadable depthLimit = true := Payload.isReadable_toJson h 123
  simp [envelope?, fields, isReadable_str, stamped, payload]

theorem beq_eq (m n : Message) : (m == n) =
    (m.agentId == n.agentId && (m.region == n.region && (m.timestamp == n.timestamp &&
      m.payload == n.payload))) := rfl

theorem decode_of_sendable {m : Message} (h : m.payload.IsSendable) (reads : m.payload.Reads) :
    ∃ m', decode m.encode = .ok m' ∧ (m' == m) = true := by
  obtain ⟨payload, read, same⟩ := Payload.ofJson?_toJson h reads
  refine ⟨{ m with payload := payload }, ?_, ?_⟩
  · rw [decode, parse?_encode]
    simp [ofJson, envelope?_toJson reads, read]
  · rw [beq_eq]
    simp [same]

theorem isSendable_of_decode {body : Bytes} {m : Message} (h : decode body = .ok m) :
    m.payload.IsSendable := by
  rw [decode] at h
  split at h
  · rw [ofJson] at h
    split at h
    · dsimp only at h
      split at h
      · next read =>
        cases h
        exact Payload.isSendable_of_ofJson? read
      · cases h
    · cases h
  · cases h

/-- What can be sent arrives as it is, and whatever has arrived can be sent on so. Of the figures it
is taken for granted that they are read back from what is written of them. -/
theorem decode_encode :
    (∀ m : Message, m.payload.IsSendable → m.payload.Reads →
      ∃ m', decode m.encode = .ok m' ∧ (m' == m) = true) ∧
    ∀ (body : Bytes) (m : Message), decode body = .ok m →
      m.payload.IsSendable ∧
        (m.payload.Reads → ∃ m', decode m.encode = .ok m' ∧ (m' == m) = true) := by
  refine ⟨fun m sendable reads => decode_of_sendable sendable reads, fun body m arrived => ?_⟩
  have sendable := isSendable_of_decode arrived
  exact ⟨sendable, decode_of_sendable sendable⟩

def forecasting : Message where
  agentId := "agent \"\u00e9\"\n"
  region := ""
  timestamp := some Instant.latest
  payload := .heartbeat {
    backends := [⟨"web", "10.0.0.1", 8080, 100, true⟩, ⟨"", "", 0, 0, false⟩]
    fingerprint := "AB:CD"
    forecast := some ⟨true, "load", some Instant.epoch, 93.5, -0.0, 1e16⟩ }

theorem reads_forecasting : forecasting.payload.Reads := by
  intro f hf
  cases hf
  constructor <;> exact readsBack_of_short (by decide +kernel) (by decide +kernel) (by decide +kernel)

theorem isSendable_forecasting : forecasting.payload.IsSendable :=
  fun f hf => (reads_forecasting f hf).isFinite

def looseBody : Bytes :=
  Bytes.ofString
    "\x7b\"type\":\"register\",\"payload\":\x7b\"port\":8080.0,\"weight\":\"heavy\"\x7d\x7d"

def looselyRead : Message := ⟨"", "", none, .register ⟨"", "", 8080, 0⟩⟩

theorem decode_encode_forecasting :
    (forecasting.payload.IsSendable ∧ forecasting.payload.Reads ∧
      ∃ m', decode forecasting.encode = .ok m' ∧ (m' == forecasting) = true) ∧
    decode looseBody = .ok looselyRead ∧
      ∃ m', decode looselyRead.encode = .ok m' ∧ (m' == looselyRead) = true :=
  ⟨⟨isSendable_forecasting, reads_forecasting,
      decode_encode.1 _ isSendable_forecasting reads_forecasting⟩, rfl,
    (decode_encode.2 looseBody looselyRead rfl).2 trivial⟩

end Message

end HealthConsensus
