import HealthConsensus.Gossip.Codec
import HealthConsensus.Proofs.Backend.Record
import HealthConsensus.Proofs.Json.Figures

namespace HealthConsensus

open Json

namespace Json

theorem number?_nat {n : Nat} (small : n < UInt64.size) : (nat n).number? = some (.natural n) := by
  simp [number?, nat, Numeral.number?, Numeral.isWhole, Numeral.ofNat, small]

theorem isWritten_list {α : Type} {write : α → Json} (xs : List α) (h : ∀ x, (write x).IsWritten) :
    (list write xs).IsWritten := by
  rw [list, IsWritten]
  induction xs with
  | nil => trivial
  | cons x xs ih => exact ⟨h x, ih⟩

section Readable

variable {depth : Nat}

theorem isReadable_str (s : String) : (str s).isReadable depth = true := by
  rw [str, isReadable, Quoted.text?_ofString]
  rfl

theorem isReadable_of_number? {j : Json} {n : Number} (h : j.number? = some n) :
    j.isReadable depth = true := by
  cases j with
  | number x => exact Option.isSome_of_eq_some h
  | _ => cases h

theorem isReadable_nat {n : Nat} (small : n < UInt64.size) : (nat n).isReadable depth = true :=
  isReadable_of_number? (number?_nat small)

theorem isReadable_uint16 (n : UInt16) : (nat n.toNat).isReadable depth = true :=
  isReadable_nat (Nat.lt_trans n.toNat_lt_size (by decide))

theorem isReadable_uint32 (n : UInt32) : (nat n.toNat).isReadable depth = true :=
  isReadable_nat (Nat.lt_trans n.toNat_lt_size (by decide))

theorem isReadable_obj {fields : List (String × Json)}
    (h : ∀ f ∈ fields, f.2.isReadable depth = true) : (obj fields).isReadable (depth + 1) = true := by
  rw [obj, isReadable]
  induction fields with
  | nil => rfl
  | cons f fields ih =>
    rw [List.map_cons, fieldsReadable, Quoted.text?_ofString, h f List.mem_cons_self,
      ih fun g hg => h g (List.mem_cons_of_mem f hg)]
    rfl

theorem isReadable_list {α : Type} {write : α → Json} (xs : List α)
    (h : ∀ x, (write x).isReadable depth = true) : (list write xs).isReadable (depth + 1) = true := by
  rw [list, isReadable]
  induction xs with
  | nil => rfl
  | cons x xs ih =>
    rw [List.map_cons, itemsReadable, h x, ih]
    rfl

end Readable

end Json

theorem Instant.isReadable_toJson (t : Instant) (depth : Nat) : t.toJson.isReadable depth = true :=
  isReadable_str _

namespace Lenient

@[simp] theorem text_str (s : String) : text (some (str s)) = s := by simp [text]

@[simp] theorem flag_bool (b : Bool) : flag (some (.bool b)) = b := rfl

theorem natBelow_nat {n bound : Nat} (small : n < UInt64.size) (h : n < bound) :
    natBelow bound (some (nat n)) = n := by
  simp [natBelow, number?_nat small, Number.settle, h]

@[simp] theorem uint16_nat (n : UInt16) : uint16 (some (nat n.toNat)) = n := by
  have bound := n.toNat_lt_size
  rw [uint16, natBelow_nat (Nat.lt_trans bound (by decide)) bound]
  simp

@[simp] theorem uint32_nat (n : UInt32) : uint32 (some (nat n.toNat)) = n := by
  have bound := n.toNat_lt_size
  rw [uint32, natBelow_nat (Nat.lt_trans bound (by decide)) bound]
  simp

@[simp] theorem time_toJson (t : Option Instant) : time (t.map Instant.toJson) = t := by
  cases t with
  | none => rfl
  | some t =>
    rw [time, Option.map_some, Option.bind_some, Instant.toJson, string?_str, Option.bind_some,
      Rfc3339.parse?_text]

theorem figure_float {x : Float} (h : ReadsBack x) : (figure (some (float x)) == x) = true := by
  have read : figure (some (float x)) = (Number.real x).settle.toFloat := by
    simp [figure, number?_of_readsBack h]
  rw [read]
  exact Number.settle_toFloat (isFinite_of_float? h)

theorem isFinite_figure (field : Option Json) : (figure field).isFinite = true := by
  rw [figure]
  cases read : field.bind number? with
  | none => decide
  | some n =>
    apply Number.isFinite_toFloat
    apply Number.canonical_settle
    obtain ⟨j, -, read⟩ := Option.bind_eq_some_iff.1 read
    exact canonical_of_number? read

end Lenient

end HealthConsensus
