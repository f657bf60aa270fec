import HealthConsensus.Proofs.Gossip.Envelopes

/-!
Rejection: a message is rejected for its envelope or for a payload that is no object, and for
nothing else. Payloads are read here as their types declare it, by readers each of which can fail.
-/

namespace HealthConsensus

open Json

namespace Json

def lastMembers : List (Bytes × Json) → List (Bytes × Json)
  | [] => []
  | f :: members =>
    if members.any fun g => Quoted.text? g.1 == Quoted.text? f.1 then lastMembers members
    else f :: lastMembers members

def asMap : Json → Json
  | .object members => .object (lastMembers members)
  | j => j

theorem get?_object (name : String) (members : List (Bytes × Json)) :
    (object members).get? name = (members.reverse.find? (isNamed name)).map Prod.snd := rfl

theorem mem_lastMembers {f : Bytes × Json} {members : List (Bytes × Json)}
    (h : f ∈ lastMembers members) : f ∈ members := by
  induction members with
  | nil => exact h
  | cons g members ih =>
    rw [lastMembers] at h
    split at h
    · exact List.mem_cons_of_mem g (ih h)
    · rcases List.mem_cons.1 h with rfl | h
      · exact List.mem_cons_self
      · exact List.mem_cons_of_mem g (ih h)

theorem filter_lastMembers (name : String) (members : List (Bytes × Json)) :
    (lastMembers members).filter (isNamed name) =
      (members.reverse.find? (isNamed name)).toList := by
  induction members with
  | nil => rfl
  | cons f members ih =>
    rw [List.reverse_cons, List.find?_append, lastMembers]
    by_cases own : isNamed name f = true
    · have same (g : Bytes × Json) : (Quoted.text? g.1 == Quoted.text? f.1) = isNamed name g := by
        rw [eq_of_beq own, isNamed]
      simp only [same]
      cases later : members.reverse.find? (isNamed name) with
      | some g =>
        have repeated : members.any (isNamed name) = true :=
          List.any_eq_true.2 ⟨g, List.mem_reverse.1 (List.mem_of_find?_eq_some later),
            List.find?_some later⟩
        rw [if_pos repeated, ih, later]
        rfl
      | none =>
        have sole : members.any (isNamed name) = false := by
          simpa using later
        rw [if_neg (by rw [sole]; decide), List.filter_cons_of_pos own, ih, later]
        simp [own]
    · have other : [f].find? (isNamed name) = none := by simp [own]
      rw [other, Option.or_none, ← ih]
      split
      · rfl
      · exact List.filter_cons_of_neg own

theorem fields?_asMap {members : List (Bytes × Json)}
    (texts : ∀ f ∈ members, (Quoted.text? f.1).isSome = true) (names : List String) :
    (object members).asMap.fields? names =
      some (names.map fun name => (object members).get? name) := by
  have texts' : ∀ f ∈ lastMembers members, (Quoted.text? f.1).isSome = true :=
    fun f hf => texts f (mem_lastMembers hf)
  obtain ⟨ms, read⟩ := members?_of_texts texts'
  obtain ⟨-, filtered⟩ := filter_of_members? read
  rw [asMap, fields?_object, read, Option.bind_some]
  refine mapM_eq_some fun name _ => pick_eq_some_iff.2 ?_
  rw [filtered, filter_lastMembers, get?_object]
  cases members.reverse.find? (isNamed name) <;> rfl

end Json

namespace Lenient

def coerced {α : Type} (default : α) (read : Json → Option α) (j : Json) : Option α :=
  some ((read j).getD default)

def slot {α : Type} (default : α) (read : Json → Option α) : Option Json → Option α :=
  Field.withDefault default (coerced default read)

def settled? (j : Json) : Option Number := j.number?.map Number.settle

def integer? (bound : Nat) (j : Json) : Option Nat :=
  match settled? j with
  | some (.natural n) => if n < bound then some n else none
  | _ => none

def uint16? (j : Json) : Option UInt16 := (integer? UInt16.size j).map UInt16.ofNat

def uint32? (j : Json) : Option UInt32 := (integer? UInt32.size j).map UInt32.ofNat

def figure? (j : Json) : Option Float := (settled? j).map Number.toFloat

def nullable? {α : Type} (read : Json → Option α) : Json → Option (Option α)
  | .null => some none
  | j => (read j).map some

def time? : Json → Option (Option Instant) :=
  nullable? fun j => j.string?.bind Rfc3339.parse?

variable (v : Option Json)

theorem slot_text : slot "" string? v = some (text v) := by
  cases v <;> rfl

theorem slot_flag : slot false bool? v = some (flag v) := by
  cases v <;> rfl

theorem slot_figure : slot 0 figure? v = some (figure v) := by
  cases v <;> rfl

theorem natBelow_some (bound : Nat) (j : Json) :
    natBelow bound (some j) = (integer? bound j).getD 0 := by
  have settled : ((some j).bind number?).map Number.settle = settled? j := rfl
  rw [natBelow, integer?, settled]
  cases settled? j with
  | none => rfl
  | some y =>
    cases y with
    | natural n =>
      dsimp only
      split <;> rfl
    | _ => rfl

theorem slot_integer {α : Type} (bound : Nat) (ofNat : Nat → α) :
    slot (ofNat 0) (fun j => (integer? bound j).map ofNat) v = some (ofNat (natBelow bound v)) := by
  cases v with
  | none => rfl
  | some j =>
    rw [natBelow_some]
    cases read : integer? bound j <;> simp [slot, coerced, read]

theorem slot_uint16 : slot 0 uint16? v = some (uint16 v) := slot_integer v UInt16.size UInt16.ofNat

theorem slot_uint32 : slot 0 uint32? v = some (uint32 v) := slot_integer v UInt32.size UInt32.ofNat

theorem slot_nullable {α : Type} (read : Json → Option α) (null : read .null = none) :
    slot none (nullable? read) v = some (v.bind read) := by
  have flat (o : Option α) : (o.map some).getD none = o := by cases o <;> rfl
  cases v with
  | none => rfl
  | some j =>
    cases j with
    | null => exact congrArg some null.symm
    | _ => exact congrArg some (flat _)

theorem slot_time : slot none time? v = some (time v) := by
  rw [time?, slot_nullable v _ rfl, time, Option.bind_assoc]

end Lenient

namespace BackendClaim

def nothing : BackendClaim := ⟨"", "", 0, 0, false⟩

def declared? (j : Json) : Option BackendClaim := do
  let [service, address, port, weight, healthy] ←
    j.asMap.fields? ["service", "address", "port", "weight", "healthy"] | none
  return {
    service := ← Lenient.slot "" string? service
    address := ← Lenient.slot "" string? address
    port := ← Lenient.slot 0 Lenient.uint16? port
    weight := ← Lenient.slot 0 Lenient.uint32? weight
    healthy := ← Lenient.slot false bool? healthy }

def declaredList? : Json → Option (List BackendClaim)
  | .array items => some ((items.filter isObject).map fun j => (declared? j).getD nothing)
  | _ => some []

end BackendClaim

namespace Forecast

def declared? (j : Json) : Option Forecast := do
  let [bleeding, reason, bleedingAt, cpuPercent, memPercent, errorRate] ←
    j.asMap.fields? fieldNames | none
  return {
    bleeding := ← Lenient.slot false bool? bleeding
    reason := ← Lenient.slot "" string? reason
    bleedingAt := ← Lenient.slot none Lenient.time? bleedingAt
    cpuPercent := ← Lenient.slot 0 Lenient.figure? cpuPercent
    memPercent := ← Lenient.slot 0 Lenient.figure? memPercent
    errorRate := ← Lenient.slot 0 Lenient.figure? errorRate }

end Forecast

def Heartbeat.declared? (j : Json) : Option Heartbeat := do
  let [backends, fingerprint, forecast] ←
    j.asMap.fields? ["backends", "fingerprint", "predictive"] | none
  return {
    backends := ← Field.withDefault [] BackendClaim.declaredList? backends
    fingerprint := ← Lenient.slot "" string? fingerprint
    forecast := ← Lenient.slot none (Lenient.nullable? Forecast.declared?) forecast }

def RegisterRequest.declared? (j : Json) : Option RegisterRequest := do
  let [service, address, port, weight] ←
    j.asMap.fields? ["service", "address", "port", "weight"] | none
  return {
    service := ← Lenient.slot "" string? service
    address := ← Lenient.slot "" string? address
    port := ← Lenient.slot 0 Lenient.uint16? port
    weight := ← Lenient.slot 0 Lenient.uint32? weight }

def DeregisterRequest.declared? (j : Json) : Option DeregisterRequest := do
  let [service, address, port] ← j.asMap.fields? ["service", "address", "port"] | none
  return {
    service := ← Lenient.slot "" string? service
    address := ← Lenient.slot "" string? address
    port := ← Lenient.slot 0 Lenient.uint16? port }

def AuthRequest.declared? (j : Json) : Option AuthRequest := do
  let [certificatePem, serviceToken, fingerprint] ←
    j.asMap.fields? ["certificate_pem", "service_token", "fingerprint"] | none
  return {
    certificatePem := ← Lenient.slot "" string? certificatePem
    serviceToken := ← Lenient.slot "" string? serviceToken
    fingerprint := ← Lenient.slot "" string? fingerprint }

namespace Payload

def declared {α : Type} (kind : String) (payload : α → Payload) (read : Json → Option α)
    (j : Json) : Except Error Payload :=
  if !j.isObject then .error (.gossip (kind ++ " payload is not an object"))
  else
    match read j with
    | some x => .ok (payload x)
    | none => .error (.gossip ("invalid " ++ kind ++ " payload"))

def ofKind (kind : String) (j : Json) : Except Error Payload :=
  if kind = "heartbeat" then declared kind heartbeat Heartbeat.declared? j
  else if kind = "register" then declared kind register RegisterRequest.declared? j
  else if kind = "deregister" then declared kind deregister DeregisterRequest.declared? j
  else if kind = "agent_auth" then declared kind agentAuth AuthRequest.declared? j
  else .ok (.unknown kind)

end Payload

namespace Json

theorem readable_items {depth : Nat} {items : List Json} (h : itemsReadable depth items = true) :
    ∀ j ∈ items, j.isReadable depth = true := by
  induction items with
  | nil => exact nofun
  | cons j items ih =>
    obtain ⟨first, others⟩ := Bool.and_eq_true_iff.1 h
    exact List.forall_mem_cons.2 ⟨first, ih others⟩

theorem readable_fields {depth : Nat} {members : List (Bytes × Json)}
    (h : fieldsReadable depth members = true) :
    ∀ f ∈ members, (Quoted.text? f.1).isSome = true ∧ f.2.isReadable depth = true := by
  induction members with
  | nil => exact nofun
  | cons f members ih =>
    obtain ⟨first, others⟩ := Bool.and_eq_true_iff.1 h
    exact List.forall_mem_cons.2 ⟨Bool.and_eq_true_iff.1 first, ih others⟩

theorem readable_array {depth : Nat} {items : List Json}
    (h : (array items).isReadable depth = true) : ∃ depth', ∀ j ∈ items, j.isReadable depth' = true := by
  cases depth with
  | zero => cases h
  | succ depth => exact ⟨depth, readable_items h⟩

theorem readable_object {depth : Nat} {members : List (Bytes × Json)}
    (h : (object members).isReadable depth = true) :
    (∀ f ∈ members, (Quoted.text? f.1).isSome = true) ∧
      ∃ depth', ∀ name j, (object members).get? name = some j → j.isReadable depth' = true := by
  cases depth with
  | zero => cases h
  | succ depth =>
    have all := readable_fields h
    refine ⟨fun f hf => (all f hf).1, depth, fun name j found => ?_⟩
    rw [get?_object] at found
    obtain ⟨f, last, rfl⟩ := Option.map_eq_some_iff.1 found
    exact (all f (List.mem_reverse.1 (List.mem_of_find?_eq_some last))).2

end Json

section Declared

variable {members : List (Bytes × Json)}

section Texts

variable (texts : ∀ f ∈ members, (Quoted.text? f.1).isSome = true)

include texts

theorem BackendClaim.declared?_object :
    declared? (.object members) = some (ofJson (.object members)) := by
  simp [declared?, fields?_asMap texts, Lenient.slot_text, Lenient.slot_uint16, Lenient.slot_uint32,
    Lenient.slot_flag, ofJson]

theorem Forecast.declared?_object :
    declared? (.object members) = ofJson? (.object members) := by
  simp [declared?, fields?_asMap texts, fieldNames, Lenient.slot_text, Lenient.slot_flag,
    Lenient.slot_time, Lenient.slot_figure, ofJson?, ofFields]

theorem RegisterRequest.declared?_object :
    declared? (.object members) = some (ofJson (.object members)) := by
  simp [declared?, fields?_asMap texts, Lenient.slot_text, Lenient.slot_uint16, Lenient.slot_uint32,
    ofJson]

theorem DeregisterRequest.declared?_object :
    declared? (.object members) = some (ofJson (.object members)) := by
  simp [declared?, fields?_asMap texts, Lenient.slot_text, Lenient.slot_uint16, ofJson]

theorem AuthRequest.declared?_object :
    declared? (.object members) = some (ofJson (.object members)) := by
  simp [declared?, fields?_asMap texts, Lenient.slot_text, ofJson]

end Texts

theorem Forecast.declared?_array (items : List Json) :
    declared? (.array items) = ofJson? (.array items) := by
  have same : (array items).asMap = array items := rfl
  by_cases few : items.length ≤ fieldNames.length
  · have read : (array items).fields? fieldNames =
        some [items[0]?, items[1]?, items[2]?, items[3]?, items[4]?, items[5]?] := fields?_items few
    rw [declared?, same, read, ofJson?, if_pos few]
    simp [Lenient.slot_text, Lenient.slot_flag, Lenient.slot_time, Lenient.slot_figure, ofFields]
  · have none : (array items).fields? fieldNames = none := if_neg few
    rw [declared?, same, none, ofJson?, if_neg few]
    rfl

theorem Forecast.declared?_eq {depth : Nat} {j : Json} (readable : j.isReadable depth = true) :
    declared? j = ofJson? j := by
  cases j with
  | object members => exact declared?_object (readable_object readable).1
  | array items => exact declared?_array items
  | _ => rfl

theorem BackendClaim.declaredList?_eq {depth : Nat} {j : Json}
    (readable : j.isReadable depth = true) : declaredList? j =
      some (((j.array?.getD []).filter isObject).map ofJson) := by
  cases j with
  | array items =>
    obtain ⟨depth', all⟩ := readable_array readable
    refine congrArg some (List.map_congr_left fun j hj => ?_)
    obtain ⟨there, object⟩ := List.mem_filter.1 hj
    cases j with
    | object members =>
      rw [declared?_object (readable_object (all _ there)).1]
      rfl
    | _ => cases object
  | _ => rfl

theorem Heartbeat.declared?_object {depth : Nat}
    (readable : (object members).isReadable depth = true) :
    declared? (.object members) = some (ofJson (.object members)) := by
  obtain ⟨texts, depth', within⟩ := readable_object readable
  have backends : Field.withDefault [] BackendClaim.declaredList?
      ((object members).get? "backends") = some (ofJson (.object members)).backends := by
    rw [ofJson]
    cases found : (object members).get? "backends" with
    | none => rfl
    | some j => exact BackendClaim.declaredList?_eq (within _ j found)
  have forecast : Lenient.slot none (Lenient.nullable? Forecast.declared?)
      ((object members).get? "predictive") = some (ofJson (.object members)).forecast := by
    rw [Lenient.slot_nullable _ _ rfl, ofJson]
    cases found : (object members).get? "predictive" with
    | none => rfl
    | some j => exact congrArg some (Forecast.declared?_eq (within _ j found))
  simp [declared?, fields?_asMap texts, Lenient.slot_text, backends, forecast]
  rfl

end Declared

namespace Payload

theorem declared_object {α : Type} {kind : String} {payload : α → Payload}
    {read : Json → Option α} {members : List (Bytes × Json)} {x : α}
    (h : read (.object members) = some x) :
    declared kind payload read (.object members) = .ok (payload x) := by
  simp [declared, isObject, h]

theorem ofKind_of_unknown {kind : String} (h : kind ∉ kinds) (j : Json) :
    ofKind kind j = .ok (.unknown kind) := by
  simp only [mem_kinds_iff, not_or] at h
  obtain ⟨heartbeat, register, deregister, agentAuth⟩ := h
  rw [ofKind, if_neg heartbeat, if_neg register, if_neg deregister, if_neg agentAuth]

theorem ofKind_eq {depth : Nat} (kind : String) {j : Json} (readable : j.isReadable depth = true) :
    ofKind kind j =
      match ofJson? kind j with
      | some payload => .ok payload
      | none => .error (.gossip (kind ++ " payload is not an object")) := by
  by_cases known : kind ∈ kinds
  · cases j with
    | object members =>
      have texts := (readable_object readable).1
      rcases mem_kinds_iff.1 known with rfl | rfl | rfl | rfl
      · exact declared_object (Heartbeat.declared?_object readable)
      · exact declared_object (RegisterRequest.declared?_object texts)
      · exact declared_object (DeregisterRequest.declared?_object texts)
      · exact declared_object (AuthRequest.declared?_object texts)
    | _ =>
      rcases mem_kinds_iff.1 known with rfl | rfl | rfl | rfl <;> rfl
  · rw [ofKind_of_unknown known, ofJson?_of_unknown known]

theorem ofJson?_of_known {kind : String} (known : kind ∈ kinds) (j : Json) :
    if j.isObject then ∃ payload, ofJson? kind j = some payload ∧ payload.kind = kind
    else ofJson? kind j = none := by
  rcases mem_kinds_iff.1 known with rfl | rfl | rfl | rfl <;> cases j <;> simp [ofJson?, isObject, Payload.kind]

end Payload

namespace Message

def declared (body : Bytes) : Except Error Message :=
  match (Json.parse? body).bind envelope? with
  | some [kind, agentId, region, timestamp, payload] => do
    let payload ← Payload.ofKind (Lenient.text kind) (payload.getD .null)
    return ⟨Lenient.text agentId, Lenient.text region, Lenient.time timestamp, payload⟩
  | _ => .error (.gossip "invalid envelope")

theorem declared_eq_decode (body : Bytes) : declared body = decode body := by
  by_cases h : ∃ e : Envelope, e.ReadFrom body
  · obtain ⟨e, read⟩ := h
    have readable : (e.payload.getD .null).isReadable depthLimit = true := by
      obtain ⟨j, -, -, readable⟩ := read
      cases payload : e.payload with
      | none => rfl
      | some v => exact readable e.payload (by simp [Envelope.values]) v payload
    rw [decode_readFrom read, declared, Envelope.readFrom_iff.1 read]
    dsimp only [Envelope.values]
    rw [Payload.ofKind_eq _ readable]
    cases Payload.ofJson? (Lenient.text e.kind) (e.payload.getD .null) <;> rfl
  · rw [decode_unreadable h, declared, Envelope.unreadable_iff.1 h]

theorem decode_error {body : Bytes} {error : Error} (h : decode body = .error error) :
    error = .gossip "invalid envelope" ∨
      ∃ kind ∈ Payload.kinds, error = .gossip (kind ++ " payload is not an object") := by
  by_cases readable : ∃ e : Envelope, e.ReadFrom body
  · obtain ⟨e, read⟩ := readable
    rw [decode_readFrom read] at h
    split at h
    · cases h
    · next none =>
      cases h
      refine .inr ⟨_, ?_, rfl⟩
      by_contra unknown
      rw [Payload.ofJson?_of_unknown unknown] at none
      cases none
  · rw [decode_unreadable readable] at h
    cases h
    exact .inl rfl

section Readable

variable {e : Envelope} {body : Bytes} (read : e.ReadFrom body)

include read

theorem decode_unknown (unknown : Lenient.text e.kind ∉ Payload.kinds) :
    ∃ m, decode body = .ok m ∧ m.payload = .unknown (Lenient.text e.kind) := by
  rw [decode_readFrom read, Payload.ofJson?_of_unknown unknown]
  exact ⟨_, rfl, rfl⟩

theorem decode_object {members : List (Bytes × Json)} (object : e.payload = some (.object members)) :
    ∃ m, decode body = .ok m ∧ m.payload.kind = Lenient.text e.kind := by
  by_cases known : Lenient.text e.kind ∈ Payload.kinds
  · obtain ⟨payload, found, kind⟩ : ∃ payload, Payload.ofJson? (Lenient.text e.kind)
        (.object members) = some payload ∧ payload.kind = Lenient.text e.kind :=
      Payload.ofJson?_of_known known (.object members)
    rw [decode_readFrom read, object, Option.getD_some, found]
    exact ⟨_, rfl, kind⟩
  · obtain ⟨m, decoded, payload⟩ := decode_unknown read known
    exact ⟨m, decoded, congrArg Payload.kind payload⟩

theorem decode_no_object (known : Lenient.text e.kind ∈ Payload.kinds)
    (other : ∀ members, e.payload ≠ some (.object members)) :
    decode body = .error (.gossip (Lenient.text e.kind ++ " payload is not an object")) := by
  have rejected := Payload.ofJson?_of_known known (e.payload.getD .null)
  have plain : (e.payload.getD .null).isObject = false := by
    cases payload : e.payload with
    | none => rfl
    | some j =>
      cases j with
      | object members => exact absurd payload (other members)
      | _ => rfl
  rw [plain] at rejected
  rw [decode_readFrom read, show Payload.ofJson? _ _ = none from rejected]

end Readable

/-- A message is rejected exactly if its text is no envelope or the payload of a known kind is no
object. Nothing else fails: not the other fields of the envelope, not the content of a payload. -/
theorem decode_rejects_exactly (body : Bytes) :
    ((∃ error, decode body = .error error) ↔ (¬∃ e : Envelope, e.ReadFrom body) ∨
      ∃ e : Envelope, e.ReadFrom body ∧ Lenient.text e.kind ∈ Payload.kinds ∧
        ∀ members, e.payload ≠ some (.object members)) ∧
    (∀ (e : Envelope) (members : List (Bytes × Json)), e.ReadFrom body →
      e.payload = some (.object members) →
        ∃ m, decode body = .ok m ∧ m.payload.kind = Lenient.text e.kind) ∧
    (∀ e : Envelope, e.ReadFrom body → Lenient.text e.kind ∉ Payload.kinds →
      ∃ m, decode body = .ok m ∧ m.payload = .unknown (Lenient.text e.kind)) ∧
    declared body = decode body ∧
      ∀ kind ∈ Payload.kinds, declared body ≠ .error (.gossip ("invalid " ++ kind ++ " payload")) := by
  refine ⟨⟨?_, ?_⟩, fun e members read object => decode_object read object,
    fun e read unknown => decode_unknown read unknown, declared_eq_decode body, ?_⟩
  · rintro ⟨error, failed⟩
    by_contra accepted
    push Not at accepted
    obtain ⟨⟨e, read⟩, accepted⟩ := accepted
    by_cases known : Lenient.text e.kind ∈ Payload.kinds
    · obtain ⟨members, object⟩ := accepted e read known
      obtain ⟨m, decoded, -⟩ := decode_object read object
      cases failed.symm.trans decoded
    · obtain ⟨m, decoded, -⟩ := decode_unknown read known
      cases failed.symm.trans decoded
  · rintro (unreadable | ⟨e, read, known, other⟩)
    · exact ⟨_, decode_unreadable unreadable⟩
    · exact ⟨_, decode_no_object read known other⟩
  · intro kind known failed
    rw [declared_eq_decode] at failed
    have texts : ∀ kind ∈ Payload.kinds,
        Error.gossip ("invalid " ++ kind ++ " payload") ≠ .gossip "invalid envelope" ∧
          ∀ kind' ∈ Payload.kinds, Error.gossip ("invalid " ++ kind ++ " payload") ≠
            .gossip (kind' ++ " payload is not an object") := by decide
    rcases decode_error failed with envelope | ⟨kind', known', payload⟩
    · exact (texts kind known).1 envelope
    · exact (texts kind known).2 kind' known' payload

def positionalBody : Bytes :=
  Bytes.ofString " [ \"heartbeat\" , 7 , null,\t[ ], \x7b\"backends\": 3e0 \x7d ] "

def repeatedBody : Bytes := Bytes.ofString "\x7b\"region\": \"eu\", \"r\\u0065gion\": \"us\"\x7d"

def trailingBody : Bytes := Bytes.ofString "[\"hello\",]"

theorem decode_positional_and_repeated :
    (∃ m, decode positionalBody = .ok m ∧ m.payload.kind = "heartbeat") ∧
      (∃ error, decode repeatedBody = .error error) ∧ ∃ error, decode trailingBody = .error error := by
  obtain ⟨-, accepts, -⟩ := decode_rejects_exactly positionalBody
  refine ⟨?_, ?_, ?_⟩
  · have held : (Json.parse? positionalBody).bind envelope? = some (Envelope.values
        ⟨some (str "heartbeat"), some (nat 7), some .null, some (.array []),
          some (obj [("backends", .number ⟨false, [51], none, some ⟨none, [48]⟩⟩)])⟩) := by rfl
    exact accepts _ _ (Envelope.readFrom_iff.2 held) rfl
  · exact (decode_rejects_exactly repeatedBody).1.2 (.inl (Envelope.unreadable_iff.2 (by rfl)))
  · exact (decode_rejects_exactly trailingBody).1.2 (.inl (Envelope.unreadable_iff.2 (by rfl)))

end Message

end HealthConsensus
