import HealthConsensus.Proofs.Gossip.Rejection

namespace HealthConsensus

open Json

inductive FieldType where
  | text
  | flag
  | uint16
  | uint32
  | figure
  | time

namespace FieldType

@[reducible]
def Value : FieldType → Type
  | text => String
  | flag => Bool
  | uint16 => UInt16
  | uint32 => UInt32
  | figure => Float
  | time => Option Instant

def default : (t : FieldType) → t.Value
  | text => ""
  | flag => false
  | uint16 => 0
  | uint32 => 0
  | figure => 0
  | time => none

/-- What a value of the type stands for. An integer is what the number is worth, also as a double,
and a figure is any number, with no sign at a zero. -/
def Holds : (t : FieldType) → Json → t.Value → Prop
  | text, j, s => j.string? = some s
  | flag, j, b => j = .bool b
  | uint16, j, n => ∃ y, j.number? = some y ∧ y.value = n.toNat
  | uint32, j, n => ∃ y, j.number? = some y ∧ y.value = n.toNat
  | figure, j, x => ∃ y, j.number? = some y ∧ x = if y.value = 0 then 0 else y.toFloat
  | time, j, t => ∃ s i, j.string? = some s ∧ Rfc3339.parse? s = some i ∧ t = some i

inductive ReadFrom (t : FieldType) (v : Option Json) : t.Value → Prop
  | typed {j : Json} {a : t.Value} : v = some j → t.Holds j a → ReadFrom t v a
  | otherwise : (∀ j a, v = some j → ¬t.Holds j a) → ReadFrom t v t.default

def read? : (t : FieldType) → Json → Option t.Value
  | text => string?
  | flag => bool?
  | uint16 => Lenient.uint16?
  | uint32 => Lenient.uint32?
  | figure => Lenient.figure?
  | time => fun j => (j.string?.bind Rfc3339.parse?).map some

def read (t : FieldType) (v : Option Json) : t.Value := (v.bind t.read?).getD t.default

end FieldType

namespace Lenient

theorem integer?_eq_some_iff {bound n : Nat} (moderate : bound ≤ Number.integralBound) {j : Json} :
    integer? bound j = some n ↔ n < bound ∧ ∃ y, j.number? = some y ∧ y.value = n := by
  rw [integer?, settled?]
  constructor
  · intro h
    split at h
    · next m settled =>
      obtain ⟨y, read, natural⟩ := Option.map_eq_some_iff.1 settled
      obtain ⟨below, same⟩ := Option.ite_none_right_eq_some.1 h
      cases same
      exact ⟨below, y, read, Number.value_of_settle natural⟩
    · cases h
  · rintro ⟨below, y, read, value⟩
    have natural : y.settle = .natural n :=
      Number.settle_of_value (canonical_of_number? read) value (Nat.lt_of_lt_of_le below moderate)
    rw [read, Option.map_some, natural]
    exact if_pos below

theorem integer?_map_eq_some_iff {α : Type} {bound : Nat} {ofNat : Nat → α} {toNat : α → Nat}
    (moderate : bound ≤ Number.integralBound) (below : ∀ a, toNat a < bound)
    (ofNat_toNat : ∀ a, ofNat (toNat a) = a) (toNat_ofNat : ∀ n < bound, toNat (ofNat n) = n)
    {j : Json} {a : α} : (integer? bound j).map ofNat = some a ↔
      ∃ y, j.number? = some y ∧ y.value = toNat a := by
  rw [Option.map_eq_some_iff]
  constructor
  · rintro ⟨n, read, rfl⟩
    obtain ⟨within, number⟩ := (integer?_eq_some_iff moderate).1 read
    rw [toNat_ofNat n within]
    exact number
  · intro number
    exact ⟨toNat a, (integer?_eq_some_iff moderate).2 ⟨below a, number⟩, ofNat_toNat a⟩

theorem figure?_eq_some_iff {j : Json} {x : Float} : figure? j = some x ↔
    ∃ y, j.number? = some y ∧ x = if y.value = 0 then 0 else y.toFloat := by
  rw [figure?, settled?, Option.map_map, Option.map_eq_some_iff]
  constructor
  · rintro ⟨y, read, rfl⟩
    exact ⟨y, read, Number.toFloat_settle (canonical_of_number? read)⟩
  · rintro ⟨y, read, rfl⟩
    exact ⟨y, read, Number.toFloat_settle (canonical_of_number? read)⟩

end Lenient

namespace FieldType

variable {t : FieldType} {j : Json} {v : Option Json}

theorem read?_eq_some_iff {a : t.Value} : t.read? j = some a ↔ t.Holds j a := by
  cases t with
  | text => exact Iff.rfl
  | flag => cases j <;> simp [read?, Holds, bool?]
  | uint16 =>
    exact Lenient.integer?_map_eq_some_iff (by decide) UInt16.toNat_lt_size
      (fun n => UInt16.ofNat_toNat) fun n within => UInt16.toNat_ofNat_of_lt within
  | uint32 =>
    exact Lenient.integer?_map_eq_some_iff (by decide) UInt32.toNat_lt_size
      (fun n => UInt32.ofNat_toNat) fun n within => UInt32.toNat_ofNat_of_lt within
  | figure => exact Lenient.figure?_eq_some_iff
  | time =>
    simp only [read?, Holds, Option.map_eq_some_iff, Option.bind_eq_some_iff]
    constructor
    · rintro ⟨i, ⟨s, string, time⟩, rfl⟩
      exact ⟨s, i, string, time, rfl⟩
    · rintro ⟨s, i, string, time, rfl⟩
      exact ⟨i, ⟨s, string, time⟩, rfl⟩

theorem readFrom_iff {a : t.Value} : t.ReadFrom v a ↔ a = t.read v := by
  cases found : v.bind t.read? with
  | some b =>
    obtain ⟨j, there, read⟩ := Option.bind_eq_some_iff.1 found
    have typed : t.Holds j b := read?_eq_some_iff.1 read
    rw [FieldType.read, found, Option.getD_some]
    constructor
    · intro h
      cases h with
      | typed there' holds =>
        cases there.symm.trans there'
        exact Option.some.inj ((read?_eq_some_iff.2 holds).symm.trans read)
      | otherwise none => exact absurd typed (none j b there)
    · rintro rfl
      exact .typed there typed
  | none =>
    have none (j : Json) (b : t.Value) (there : v = some j) : ¬t.Holds j b := by
      intro holds
      rw [there, Option.bind_some, read?_eq_some_iff.2 holds] at found
      cases found
    rw [FieldType.read, found, Option.getD_none]
    constructor
    · intro h
      cases h with
      | typed there holds => exact absurd holds (none _ _ there)
      | otherwise _ => rfl
    · rintro rfl
      exact .otherwise none

/-- The numerals 80.0, 8e1, 80.5, 65536.0 and 80.0000000000000071 as ports. -/
example : [Numeral.mk false [56, 48] (some [48]) none, ⟨false, [56], none, some ⟨none, [49]⟩⟩,
    ⟨false, [56, 48], some [53], none⟩, ⟨false, [54, 53, 53, 51, 54], some [48], none⟩,
    ⟨false, [56, 48], some (Numeral.zeros 14 ++ [55, 49]), none⟩].map
      (fun x => uint16.read (some (.number x))) = [80, 80, 0, 0, 0] := by decide +kernel

theorem some_read (t : FieldType) (v : Option Json) :
    some (t.read v) = Lenient.slot t.default t.read? v := by
  cases v <;> rfl

@[simp] theorem read_text (v : Option Json) : text.read v = Lenient.text v := rfl

@[simp] theorem read_flag (v : Option Json) : flag.read v = Lenient.flag v := rfl

@[simp] theorem read_uint16 (v : Option Json) : uint16.read v = Lenient.uint16 v :=
  Option.some.inj ((some_read uint16 v).trans (Lenient.slot_uint16 v))

@[simp] theorem read_uint32 (v : Option Json) : uint32.read v = Lenient.uint32 v :=
  Option.some.inj ((some_read uint32 v).trans (Lenient.slot_uint32 v))

@[simp] theorem read_figure (v : Option Json) : figure.read v = Lenient.figure v :=
  Option.some.inj ((some_read figure v).trans (Lenient.slot_figure v))

@[simp] theorem read_time (v : Option Json) : time.read v = Lenient.time v := by
  have flat (o : Option Instant) : (o.map some).getD none = o := by cases o <;> rfl
  cases v with
  | none => rfl
  | some j => exact flat _

end FieldType

structure Slot (α : Type) where
  name : String
  type : FieldType
  get : α → type.Value

section Slots

variable {α : Type}

def ReadByName (slots : List (Slot α)) (j : Json) (a : α) : Prop :=
  ∀ s ∈ slots, s.type.ReadFrom (j.get? s.name) (s.get a)

def ReadByPlace (slots : List (Slot α)) (items : List Json) (a : α) : Prop :=
  ∀ s ∈ slots.zipIdx, s.1.type.ReadFrom items[s.2]? (s.1.get a)

end Slots

def BackendClaim.slots : List (Slot BackendClaim) :=
  [⟨"service", .text, service⟩, ⟨"address", .text, address⟩, ⟨"port", .uint16, port⟩,
    ⟨"weight", .uint32, weight⟩, ⟨"healthy", .flag, healthy⟩]

def Forecast.slots : List (Slot Forecast) :=
  [⟨"bleeding", .flag, bleeding⟩, ⟨"bleed_reason", .text, reason⟩,
    ⟨"bleeding_at", .time, bleedingAt⟩, ⟨"cpu_percent", .figure, cpuPercent⟩,
    ⟨"mem_percent", .figure, memPercent⟩, ⟨"error_rate", .figure, errorRate⟩]

def RegisterRequest.slots : List (Slot RegisterRequest) :=
  [⟨"service", .text, service⟩, ⟨"address", .text, address⟩, ⟨"port", .uint16, port⟩,
    ⟨"weight", .uint32, weight⟩]

def DeregisterRequest.slots : List (Slot DeregisterRequest) :=
  [⟨"service", .text, service⟩, ⟨"address", .text, address⟩, ⟨"port", .uint16, port⟩]

def AuthRequest.slots : List (Slot AuthRequest) :=
  [⟨"certificate_pem", .text, certificatePem⟩, ⟨"service_token", .text, serviceToken⟩,
    ⟨"fingerprint", .text, fingerprint⟩]

theorem BackendClaim.readByName_ofJson (j : Json) : ReadByName slots j (ofJson j) := by
  simp [ReadByName, slots, FieldType.readFrom_iff, ofJson]

theorem RegisterRequest.readByName_ofJson (j : Json) : ReadByName slots j (ofJson j) := by
  simp [ReadByName, slots, FieldType.readFrom_iff, ofJson]

theorem DeregisterRequest.readByName_ofJson (j : Json) : ReadByName slots j (ofJson j) := by
  simp [ReadByName, slots, FieldType.readFrom_iff, ofJson]

theorem AuthRequest.readByName_ofJson (j : Json) : ReadByName slots j (ofJson j) := by
  simp [ReadByName, slots, FieldType.readFrom_iff, ofJson]

theorem Forecast.readByName_ofFields (j : Json) :
    ReadByName slots j (ofFields fun name _ => j.get? name) := by
  simp [ReadByName, slots, FieldType.readFrom_iff, ofFields]

theorem Forecast.readByPlace_ofFields (items : List Json) :
    ReadByPlace slots items (ofFields fun _ i => items[i]?) := by
  simp [ReadByPlace, slots, FieldType.readFrom_iff, ofFields]

inductive Content where
  | field (t : FieldType) (a : t.Value)
  | claims (cs : List BackendClaim)
  | forecast (f : Option Forecast)

namespace Content

def entries : Option Json → List Json
  | some (.array items) => items.filter isObject
  | _ => []

inductive ReadFrom (v : Option Json) : Content → Prop
  | field {t : FieldType} {a : t.Value} : t.ReadFrom v a → ReadFrom v (.field t a)
  | claims {cs : List BackendClaim} :
      List.Forall₂ (fun j c => ReadByName BackendClaim.slots j c) (entries v) cs →
        ReadFrom v (.claims cs)
  | named {members : List (Bytes × Json)} {f : Forecast} : v = some (.object members) →
      ReadByName Forecast.slots (.object members) f → ReadFrom v (.forecast (some f))
  | positional {items : List Json} {f : Forecast} : v = some (.array items) →
      items.length ≤ Forecast.slots.length → ReadByPlace Forecast.slots items f →
        ReadFrom v (.forecast (some f))
  | absent : (∀ members, v ≠ some (.object members)) →
      (∀ items, v = some (.array items) → Forecast.slots.length < items.length) →
        ReadFrom v (.forecast none)

theorem readFrom_claims (v : Option Json) : ReadFrom v
    (.claims ((((v.bind array?).getD []).filter isObject).map BackendClaim.ofJson)) := by
  apply ReadFrom.claims
  have entries : entries v = ((v.bind array?).getD []).filter isObject := by
    cases v with
    | none => rfl
    | some j => cases j <;> rfl
  rw [entries, List.forall₂_map_right_iff, List.forall₂_same]
  exact fun j _ => BackendClaim.readByName_ofJson j

theorem readFrom_forecast (v : Option Json) :
    ReadFrom v (.forecast (v.bind Forecast.ofJson?)) := by
  cases v with
  | none => exact .absent (by simp) (by simp)
  | some j =>
    cases j with
    | object members => exact .named rfl (Forecast.readByName_ofFields _)
    | array items =>
      rw [Option.bind_some, Forecast.ofJson?]
      split
      · next few => exact .positional rfl few (Forecast.readByPlace_ofFields items)
      · next many =>
        refine .absent (by simp) fun items' same => ?_
        cases same
        exact not_le.1 many
    | _ => exact .absent (by simp) (by simp)

end Content

theorem lookup_congr {β : Type} {name : String} {l l' : List (String × β)}
    (h : List.Forall₂ (fun f g => f.1 = g.1 ∧ (f.1 = name → f.2 = g.2)) l l') :
    l.lookup name = l'.lookup name := by
  induction h with
  | nil => rfl
  | @cons f g l l' both _ ih =>
    obtain ⟨names, values⟩ := both
    rw [List.lookup_cons, List.lookup_cons, ← names, ih]
    by_cases own : f.1 = name
    · rw [values own]
    · rw [beq_false_of_ne (Ne.symm own)]

section Slots

variable {α : Type} {slots : List (Slot α)} {j j' : Json} {a a' : α}

def Slot.content (a : α) (s : Slot α) : String × Content := (s.name, .field s.type (s.get a))

theorem ReadByName.content (h : ReadByName slots j a) :
    ∀ f ∈ slots.map (Slot.content a), f.2.ReadFrom (j.get? f.1) := by
  intro f hf
  obtain ⟨s, slot, rfl⟩ := List.mem_map.1 hf
  exact .field (h s slot)

theorem ReadByName.get_eq (h : ReadByName slots j a) (h' : ReadByName slots j' a') {s : Slot α}
    (slot : s ∈ slots) (same : j.get? s.name = j'.get? s.name) : s.get a = s.get a' := by
  have read := FieldType.readFrom_iff.1 (h s slot)
  have read' := FieldType.readFrom_iff.1 (h' s slot)
  rw [read, read', same]

theorem ReadByName.lookup_content (h : ReadByName slots j a) (h' : ReadByName slots j' a')
    {name : String} (same : j.get? name = j'.get? name) :
    (slots.map (Slot.content a)).lookup name = (slots.map (Slot.content a')).lookup name := by
  apply lookup_congr
  rw [List.forall₂_map_left_iff, List.forall₂_map_right_iff, List.forall₂_same]
  intro s slot
  refine ⟨rfl, ?_⟩
  rintro rfl
  exact congrArg (Content.field s.type) (h.get_eq h' slot same)

end Slots

namespace Payload

def fields : Payload → List (String × Content)
  | heartbeat h => [("backends", .claims h.backends), ("fingerprint", .field .text h.fingerprint),
      ("predictive", .forecast h.forecast)]
  | register r => RegisterRequest.slots.map (Slot.content r)
  | deregister r => DeregisterRequest.slots.map (Slot.content r)
  | agentAuth r => AuthRequest.slots.map (Slot.content r)
  | unknown _ => []

section Object

variable {kind : String} {members members' : List (Bytes × Json)} {p p' : Payload}

theorem ne_unknown (known : kind ∈ kinds) (h : ofJson? kind (.object members) = some p)
    (other : String) : p ≠ .unknown other := by
  rcases mem_kinds_iff.1 known with rfl | rfl | rfl | rfl <;> cases h <;> simp

theorem readFrom_fields (known : kind ∈ kinds) (h : ofJson? kind (.object members) = some p) :
    ∀ f ∈ p.fields, f.2.ReadFrom ((Json.object members).get? f.1) := by
  rcases mem_kinds_iff.1 known with rfl | rfl | rfl | rfl
  · cases h
    have backends := Content.readFrom_claims ((Json.object members).get? "backends")
    have fingerprint : FieldType.text.ReadFrom ((Json.object members).get? "fingerprint")
        (Lenient.text ((Json.object members).get? "fingerprint")) := FieldType.readFrom_iff.2 rfl
    have forecast := Content.readFrom_forecast ((Json.object members).get? "predictive")
    simp only [fields, Heartbeat.ofJson, List.forall_mem_cons]
    exact ⟨backends, .field fingerprint, forecast, List.forall_mem_nil _⟩
  · cases h
    exact (RegisterRequest.readByName_ofJson _).content
  · cases h
    exact (DeregisterRequest.readByName_ofJson _).content
  · cases h
    exact (AuthRequest.readByName_ofJson _).content

theorem lookup_fields (known : kind ∈ kinds) (h : ofJson? kind (.object members) = some p)
    (h' : ofJson? kind (.object members') = some p') {name : String}
    (same : (Json.object members).get? name = (Json.object members').get? name) :
    p.fields.lookup name = p'.fields.lookup name := by
  rcases mem_kinds_iff.1 known with rfl | rfl | rfl | rfl
  · cases h
    cases h'
    apply lookup_congr
    -- the three fields one after the other, each of them with its own name for the looked-up one
    refine .cons ⟨rfl, ?_⟩ (.cons ⟨rfl, ?_⟩ (.cons ⟨rfl, ?_⟩ .nil)) <;> rintro rfl <;>
      simp only [Heartbeat.ofJson, same]
  · cases h
    cases h'
    exact (RegisterRequest.readByName_ofJson _).lookup_content
      (RegisterRequest.readByName_ofJson _) same
  · cases h
    cases h'
    exact (DeregisterRequest.readByName_ofJson _).lookup_content
      (DeregisterRequest.readByName_ofJson _) same
  · cases h
    cases h'
    exact (AuthRequest.readByName_ofJson _).lookup_content
      (AuthRequest.readByName_ofJson _) same

end Object

end Payload

theorem Json.get?_of_filter {name : String} {members members' : List (Bytes × Json)}
    (same : members.filter (isNamed name) = members'.filter (isNamed name)) :
    (object members).get? name = (object members').get? name := by
  have last (members : List (Bytes × Json)) : (object members).get? name =
      ((members.filter (isNamed name)).getLast?).map Prod.snd := by
    rw [get?_object, ← List.head?_filter, List.filter_reverse, List.head?_reverse]
  rw [last, last, same]

namespace Message

variable {e : Envelope} {body : Bytes} {members : List (Bytes × Json)}

theorem decode_known (read : e.ReadFrom body) (object : e.payload = some (.object members))
    (known : Lenient.text e.kind ∈ Payload.kinds) : ∃ m, decode body = .ok m ∧
      Payload.ofJson? (Lenient.text e.kind) (.object members) = some m.payload ∧
        m.payload.kind = Lenient.text e.kind := by
  obtain ⟨payload, found, kind⟩ : ∃ payload, Payload.ofJson? (Lenient.text e.kind)
      (.object members) = some payload ∧ payload.kind = Lenient.text e.kind :=
    Payload.ofJson?_of_known known (.object members)
  rw [decode_readFrom read, object, Option.getD_some, found]
  exact ⟨_, rfl, rfl, kind⟩

/-- The payload of a known kind is read field by field. Each field is what the value under its name
stands for, or the default of its type, and no other member of the object has a part in it. -/
theorem decode_field_by_field (read : e.ReadFrom body)
    (object : e.payload = some (.object members)) (known : Lenient.text e.kind ∈ Payload.kinds) :
    ∃ m, decode body = .ok m ∧ m.payload.kind = Lenient.text e.kind ∧
      (∀ kind, m.payload ≠ .unknown kind) ∧
      (∀ f ∈ m.payload.fields, f.2.ReadFrom ((Json.object members).get? f.1)) ∧
      ∀ (e' : Envelope) (body' : Bytes) (members' : List (Bytes × Json)), e'.ReadFrom body' →
        e'.payload = some (.object members') → Lenient.text e'.kind = Lenient.text e.kind →
          ∃ m', decode body' = .ok m' ∧ ∀ name,
            members'.filter (isNamed name) = members.filter (isNamed name) →
              m'.payload.fields.lookup name = m.payload.fields.lookup name := by
  obtain ⟨m, decoded, found, kind⟩ := decode_known read object known
  refine ⟨m, decoded, kind, Payload.ne_unknown known found, Payload.readFrom_fields known found,
    fun e' body' members' read' object' same => ?_⟩
  rw [← same] at known found
  obtain ⟨m', decoded', found', -⟩ := decode_known read' object' known
  exact ⟨m', decoded', fun name alike =>
    Payload.lookup_fields known found' found (Json.get?_of_filter alike)⟩

def strayBody : Bytes := Bytes.ofString "\x7b\"type\":\"heartbeat\",\"region\":4,
  \"payload\":\x7b\"backends\":[\x7b\"port\":80.0\x7d,7],\"more\":[]\x7d\x7d"

def positionedBody : Bytes := Bytes.ofString "[\"heartbeat\",null,null,null,
  \x7b\"fingerprint\":\"f\",\"backends\":[\x7b\"port\":80.0\x7d,7]\x7d]"

def claimsField : Json :=
  .array [obj [("port", .number ⟨false, [56, 48], some [48], none⟩)], nat 7]

theorem decode_same_claims : ∃ m m', decode strayBody = .ok m ∧ decode positionedBody = .ok m' ∧
    m.payload.kind = "heartbeat" ∧
      m'.payload.fields.lookup "backends" = m.payload.fields.lookup "backends" := by
  have stray : (Json.parse? strayBody).bind envelope? = some (Envelope.values
      ⟨some (str "heartbeat"), none, some (nat 4), none,
        some (obj [("backends", claimsField), ("more", .array [])])⟩) := by rfl
  have positioned : (Json.parse? positionedBody).bind envelope? = some (Envelope.values
      ⟨some (str "heartbeat"), some .null, some .null, some .null,
        some (obj [("fingerprint", str "f"), ("backends", claimsField)])⟩) := by rfl
  obtain ⟨m, decoded, kind, -, -, others⟩ :=
    decode_field_by_field (Envelope.readFrom_iff.2 stray) rfl (by decide)
  obtain ⟨m', decoded', alike⟩ :=
    others _ positionedBody _ (Envelope.readFrom_iff.2 positioned) rfl rfl
  exact ⟨m, m', decoded, decoded', kind, alike "backends" (by rfl)⟩

end Message

end HealthConsensus
