import HealthConsensus.Json.Reader
import HealthConsensus.Proofs.Json.Text

namespace HealthConsensus.Json

theorem isWritten_str (s : String) : (str s).IsWritten := ⟨Bytes.ofString s, rfl⟩

theorem isWritten_nat (n : Nat) : (nat n).IsWritten := Numeral.proper_ofNat n

theorem isWritten_float (x : Float) : (float x).IsWritten := by
  unfold float
  split
  · exact Numeral.proper_ofFloat x
  · trivial

theorem isWritten_obj {fields : List (String × Json)} (h : ∀ f ∈ fields, f.2.IsWritten) :
    (obj fields).IsWritten := by
  rw [obj, IsWritten]
  induction fields with
  | nil => trivial
  | cons f fields ih =>
    exact ⟨⟨Bytes.ofString f.1, rfl⟩, h f List.mem_cons_self,
      ih fun g hg => h g (List.mem_cons_of_mem f hg)⟩

@[simp] theorem optionalField_none {α : Type} (name : String) (write : α → Json) :
    optionalField name write none = [] := rfl

@[simp] theorem optionalField_some {α : Type} (name : String) (write : α → Json) (a : α) :
    optionalField name write (some a) = [(name, write a)] := rfl

theorem forall_optionalField {α : Type} (P : Json → Prop) {name : String} {write : α → Json}
    {x : Option α} (h : ∀ a ∈ x, P (write a)) : ∀ f ∈ optionalField name write x, P f.2 := by
  intro f hf
  cases x with
  | none => cases hf
  | some a =>
    cases List.mem_singleton.1 hf
    exact h a rfl

@[simp] theorem string?_str (s : String) : (str s).string? = some s := Quoted.text?_ofString s

@[simp] theorem bool?_bool (b : Bool) : (Json.bool b).bool? = some b := rfl

theorem natBelow?_nat {n bound : Nat} (small : n < UInt64.size) (h : n < bound) :
    natBelow? bound (nat n) = some n := by
  simp [natBelow?, number?, nat, Numeral.number?, Numeral.isWhole, Numeral.ofNat, small, h]

@[simp] theorem uint16?_nat (n : UInt16) : (nat n.toNat).uint16? = some n := by
  have bound := n.toNat_lt_size
  rw [uint16?, natBelow?_nat (Nat.lt_trans bound (by decide)) bound]
  simp

@[simp] theorem uint32?_nat (n : UInt32) : (nat n.toNat).uint32? = some n := by
  have bound := n.toNat_lt_size
  rw [uint32?, natBelow?_nat (Nat.lt_trans bound (by decide)) bound]
  simp

@[simp] theorem uint64?_nat (n : UInt64) : (nat n.toNat).uint64? = some n := by
  rw [uint64?, natBelow?_nat n.toNat_lt_size n.toNat_lt_size]
  simp

theorem mapM_eq_some {α β : Type} {f : α → Option β} {g : α → β} {xs : List α}
    (h : ∀ x ∈ xs, f x = some (g x)) : xs.mapM f = some (xs.map g) := by
  induction xs with
  | nil => rfl
  | cons x xs ih =>
    rw [List.mapM_cons, h x List.mem_cons_self,
      ih fun y hy => h y (List.mem_cons_of_mem x hy)]
    rfl

@[simp] theorem members?_obj (fields : List (String × Json)) :
    (obj fields).members? = some fields := by
  rw [obj, members?, mapM_eq_some (g := fun f : Bytes × Json => ((Quoted.text? f.1).getD "", f.2))]
  · simp [Function.comp_def]
  · intro f hf
    obtain ⟨f, -, rfl⟩ := List.mem_map.1 hf
    simp

theorem filter_name {fields : List (String × Json)} (distinct : (fields.map Prod.fst).Nodup)
    (name : String) :
    fields.filter (·.1 == name) = (List.lookup name fields).toList.map (name, ·) := by
  induction fields with
  | nil => rfl
  | cons f fields ih =>
    obtain ⟨key, j⟩ := f
    obtain ⟨fresh, distinct⟩ := List.nodup_cons.1 distinct
    by_cases h : key = name
    · subst h
      have none : fields.filter (·.1 == key) = [] := by
        refine List.filter_eq_nil_iff.2 fun g hg same => fresh ?_
        exact List.mem_map.2 ⟨g, hg, eq_of_beq same⟩
      simp [none]
    · have other : (name == key) = false := beq_false_of_ne (Ne.symm h)
      simp [List.lookup_cons, h, other, ih distinct]

theorem fields?_obj {fields : List (String × Json)} (distinct : (fields.map Prod.fst).Nodup)
    (names : List String) :
    (obj fields).fields? names = some (names.map fun name => List.lookup name fields) := by
  rw [fields?, members?_obj]
  · refine mapM_eq_some fun name _ => ?_
    rw [filter_name distinct]
    cases List.lookup name fields <;> rfl
  · exact fun _ h => nomatch h

theorem get?_obj {fields : List (String × Json)} (distinct : (fields.map Prod.fst).Nodup)
    (name : String) : (obj fields).get? name = List.lookup name fields := by
  have named : (fun f : Bytes × Json => Quoted.text? f.1 == some name) ∘
      (fun f : String × Json => (Quoted.ofString f.1, f.2)) = fun f => f.1 == name := by
    funext f
    rw [Function.comp_apply, Quoted.text?_ofString]
    rfl
  rw [obj, get?, ← List.head?_filter, List.filter_reverse, List.filter_map, named,
    filter_name distinct]
  cases List.lookup name fields <;> rfl

namespace Field

variable {α : Type} {read : Json → Option α}

@[simp] theorem required_some (j : Json) : required read (some j) = read j := rfl

@[simp] theorem withDefault_some (a : α) (j : Json) : withDefault a read (some j) = read j := rfl

theorem optional_map {write : α → Json} (h : ∀ a, read (write a) = some a)
    (null : read .null = none) (x : Option α) : Field.optional read (x.map write) = some x := by
  cases x with
  | none => rfl
  | some a =>
    unfold Field.optional
    split
    · next same => cases same
    · next same =>
      have written : write a = .null := Option.some.inj same
      cases null.symm.trans (written ▸ h a)
    · next same =>
      cases same
      rw [h]
      rfl

end Field

end HealthConsensus.Json
