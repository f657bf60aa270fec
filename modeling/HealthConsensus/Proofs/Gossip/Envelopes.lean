import HealthConsensus.Proofs.Gossip.RoundTrip
import HealthConsensus.Proofs.Json.Grammar
import HealthConsensus.Proofs.Json.Records

namespace HealthConsensus

open Json

namespace Json

def isNamed (name : String) (f : Bytes × Json) : Bool := Quoted.text? f.1 == some name

def Sole (name : String) (members : List (Bytes × Json)) (v : Option Json) : Prop :=
  (members.filter (isNamed name)).map Prod.snd = v.toList

variable {α β : Type}

theorem mapM_eq_some_iff {f : α → Option β} {xs : List α} {ys : List β} :
    xs.mapM f = some ys ↔ List.Forall₂ (fun x y => f x = some y) xs ys := by
  induction xs generalizing ys with
  | nil => simp [eq_comm]
  | cons x xs ih =>
    rw [List.mapM_cons]
    constructor
    · intro h
      obtain ⟨y, hy, h⟩ := Option.bind_eq_some_iff.1 h
      obtain ⟨zs, hzs, same⟩ := Option.bind_eq_some_iff.1 h
      cases same
      exact .cons hy (ih.1 hzs)
    · rintro (_ | ⟨hy, hys⟩)
      rw [hy, ih.2 hys]
      rfl

theorem pick_eq_some_iff {ms : List (String × Json)} {name : String} {v : Option Json} :
    pick ms name = some v ↔ (ms.filter (·.1 == name)).map Prod.snd = v.toList := by
  rw [pick]
  generalize ms.filter (·.1 == name) = found
  rcases found with _ | ⟨f, _ | ⟨g, others⟩⟩ <;> cases v <;> simp

theorem members?_cons (k : Bytes) (j : Json) (members : List (Bytes × Json)) :
    (object ((k, j) :: members)).members? = (Quoted.text? k).bind fun name =>
      (object members).members?.map ((name, j) :: ·) := by
  rw [members?, members?, List.mapM_cons]
  dsimp only
  cases Quoted.text? k with
  | none => rfl
  | some name =>
    cases members.mapM fun f : Bytes × Json => (Quoted.text? f.1).map (·, f.2) <;> rfl

theorem members?_of_texts {members : List (Bytes × Json)}
    (texts : ∀ f ∈ members, (Quoted.text? f.1).isSome = true) :
    ∃ ms, (object members).members? = some ms := by
  induction members with
  | nil => exact ⟨[], rfl⟩
  | cons f members ih =>
    obtain ⟨name, text⟩ := Option.isSome_iff_exists.1 (texts f List.mem_cons_self)
    obtain ⟨ms, read⟩ := ih fun g hg => texts g (List.mem_cons_of_mem f hg)
    exact ⟨(name, f.2) :: ms, by rw [members?_cons, text, read]; rfl⟩

theorem filter_of_members? {members : List (Bytes × Json)} {ms : List (String × Json)}
    (h : (object members).members? = some ms) :
    (∀ f ∈ members, (Quoted.text? f.1).isSome = true) ∧
      ∀ name, (ms.filter (·.1 == name)).map Prod.snd =
        (members.filter (isNamed name)).map Prod.snd := by
  induction members generalizing ms with
  | nil =>
    cases h
    exact ⟨nofun, fun _ => rfl⟩
  | cons f members ih =>
    obtain ⟨k, j⟩ := f
    rw [members?_cons] at h
    obtain ⟨own, text, h⟩ := Option.bind_eq_some_iff.1 h
    obtain ⟨ms, read, rfl⟩ := Option.map_eq_some_iff.1 h
    obtain ⟨texts, filtered⟩ := ih read
    refine ⟨List.forall_mem_cons.2 ⟨Option.isSome_of_eq_some text, texts⟩, fun name => ?_⟩
    by_cases named : own = name
    · simp [isNamed, text, named, filtered]
    · simp [isNamed, text, named, filtered]

theorem length_of_fields? {j : Json} {names : List String} {vs : List (Option Json)}
    (h : j.fields? names = some vs) : vs.length = names.length := by
  cases j with
  | array items =>
    obtain ⟨few, same⟩ := Option.ite_none_right_eq_some.1 h
    cases same
    simp [few]
  | object members =>
    rw [fields?_object] at h
    obtain ⟨ms, -, h⟩ := Option.bind_eq_some_iff.1 h
    exact (mapM_eq_some_iff.1 h).length_eq.symm
  | _ => cases h

theorem fields?_items {items : List Json} {names : List String}
    (few : items.length ≤ names.length) :
    (array items).fields? names = some ((List.range names.length).map fun i => items[i]?) := by
  rw [fields?, if_pos few]
  refine congrArg some (List.ext_getElem (by simp [few]) fun i _ _ => ?_)
  by_cases inside : i < items.length
  · simp [inside]
  · simp [List.getElem_append, inside]

end Json

structure Envelope where
  kind : Option Json
  agentId : Option Json
  region : Option Json
  timestamp : Option Json
  payload : Option Json

namespace Envelope

def values (e : Envelope) : List (Option Json) :=
  [e.kind, e.agentId, e.region, e.timestamp, e.payload]

/-- An object in which no field stands twice, or an array of the fields in their order. -/
inductive IsOf (e : Envelope) : Json → Prop
  | named {members : List (Bytes × Json)} :
      (∀ f ∈ members, (Quoted.text? f.1).isSome = true) →
      List.Forall₂ (fun name v => Sole name members v) Message.fieldNames e.values →
        IsOf e (.object members)
  | positional {items : List Json} : items.length ≤ 5 →
      e = ⟨items[0]?, items[1]?, items[2]?, items[3]?, items[4]?⟩ → IsOf e (.array items)

def ReadFrom (e : Envelope) (body : Bytes) : Prop :=
  ∃ j : Json, j.Spells body ∧ e.IsOf j ∧
    ∀ v ∈ e.values, ∀ j, v = some j → j.isReadable Message.depthLimit = true

variable {e e' : Envelope} {j : Json} {body : Bytes}

theorem exists_values {vs : List (Option Json)} (five : vs.length = 5) :
    ∃ e : Envelope, vs = e.values := by
  match vs with
  | [kind, agentId, region, timestamp, payload] =>
    exact ⟨⟨kind, agentId, region, timestamp, payload⟩, rfl⟩

theorem values_inj : e.values = e'.values ↔ e = e' := by
  cases e
  cases e'
  simp [values]

theorem isOf_object_iff {members : List (Bytes × Json)} : e.IsOf (.object members) ↔
    (object members).fields? Message.fieldNames = some e.values := by
  rw [fields?_object]
  constructor
  · rintro ⟨texts, sole⟩
    obtain ⟨ms, read⟩ := members?_of_texts texts
    obtain ⟨-, filtered⟩ := filter_of_members? read
    rw [read, Option.bind_some, mapM_eq_some_iff]
    refine sole.imp fun name v h => pick_eq_some_iff.2 ?_
    rw [filtered name]
    exact h
  · intro h
    obtain ⟨ms, read, h⟩ := Option.bind_eq_some_iff.1 h
    obtain ⟨texts, filtered⟩ := filter_of_members? read
    refine .named texts ((mapM_eq_some_iff.1 h).imp fun name v h => ?_)
    rw [Sole, ← filtered name]
    exact pick_eq_some_iff.1 h

theorem isOf_array_iff {items : List Json} : e.IsOf (.array items) ↔
    (array items).fields? Message.fieldNames = some e.values := by
  by_cases few : items.length ≤ 5
  · have read : (array items).fields? Message.fieldNames =
        some [items[0]?, items[1]?, items[2]?, items[3]?, items[4]?] := fields?_items few
    rw [read, Option.some.injEq, eq_comm]
    constructor
    · intro h
      cases h with
      | positional _ same => exact congrArg values same
    · intro same
      exact .positional few (values_inj.1 same)
  · have none : (array items).fields? Message.fieldNames = none := if_neg few
    rw [none]
    constructor
    · intro h
      cases h with
      | positional few' _ => exact absurd few' few
    · exact nofun

theorem isOf_iff : e.IsOf j ↔ j.fields? Message.fieldNames = some e.values := by
  cases j with
  | object members => exact isOf_object_iff
  | array items => exact isOf_array_iff
  | _ => exact ⟨nofun, nofun⟩

theorem envelope?_eq_some_iff : Message.envelope? j = some e.values ↔
    e.IsOf j ∧ ∀ v ∈ e.values, ∀ j, v = some j → j.isReadable Message.depthLimit = true := by
  have readable (vs : List (Option Json)) :
      vs.all (fun f => f.all (Json.isReadable Message.depthLimit)) = true ↔
        ∀ v ∈ vs, ∀ j, v = some j → j.isReadable Message.depthLimit = true := by
    simp only [List.all_eq_true, Option.all_eq_true]
  rw [isOf_iff]
  constructor
  · intro h
    obtain ⟨vs, read, h⟩ := Option.bind_eq_some_iff.1 h
    obtain ⟨all, same⟩ := Option.ite_none_right_eq_some.1 h
    cases same
    exact ⟨read, (readable _).1 all⟩
  · rintro ⟨read, all⟩
    refine Option.bind_eq_some_iff.2 ⟨_, read, if_pos ((readable _).2 all)⟩

theorem readFrom_iff : e.ReadFrom body ↔
    (Json.parse? body).bind Message.envelope? = some e.values := by
  rw [Option.bind_eq_some_iff]
  constructor
  · rintro ⟨j, spells, envelope⟩
    exact ⟨j, parse?_eq_some_iff.2 spells, envelope?_eq_some_iff.2 envelope⟩
  · rintro ⟨j, parsed, envelope⟩
    exact ⟨j, parse?_eq_some_iff.1 parsed, envelope?_eq_some_iff.1 envelope⟩

theorem unreadable_iff : (¬∃ e : Envelope, e.ReadFrom body) ↔
    (Json.parse? body).bind Message.envelope? = none := by
  constructor
  · intro h
    cases found : (Json.parse? body).bind Message.envelope? with
    | none => rfl
    | some vs =>
      obtain ⟨j, -, envelope⟩ := Option.bind_eq_some_iff.1 found
      obtain ⟨fields, read, held⟩ := Option.bind_eq_some_iff.1 envelope
      obtain ⟨-, same⟩ := Option.ite_none_right_eq_some.1 held
      cases same
      obtain ⟨e, rfl⟩ := exists_values (length_of_fields? read)
      exact absurd ⟨e, readFrom_iff.2 found⟩ h
  · rintro none ⟨e, h⟩
    cases none.symm.trans (readFrom_iff.1 h)

end Envelope

namespace Message

variable {e : Envelope} {body : Bytes}

theorem decode_readFrom (h : e.ReadFrom body) : decode body =
    match Payload.ofJson? (Lenient.text e.kind) (e.payload.getD .null) with
    | some payload => .ok ⟨Lenient.text e.agentId, Lenient.text e.region, Lenient.time e.timestamp,
        payload⟩
    | none => .error (.gossip (Lenient.text e.kind ++ " payload is not an object")) := by
  obtain ⟨j, parsed, envelope⟩ := Option.bind_eq_some_iff.1 (Envelope.readFrom_iff.1 h)
  rw [decode, parsed]
  dsimp only
  rw [ofJson, envelope]
  rfl

theorem decode_unreadable (h : ¬∃ e : Envelope, e.ReadFrom body) :
    decode body = .error (.gossip "invalid envelope") := by
  have none := Envelope.unreadable_iff.1 h
  rw [decode]
  cases parsed : Json.parse? body with
  | none => rfl
  | some j =>
    rw [parsed, Option.bind_some] at none
    dsimp only
    rw [ofJson, none]

end Message

end HealthConsensus
