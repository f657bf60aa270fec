import HealthConsensus.Proofs.Node.Restart

/-!
Which backends share a record in the store. A store key joins service, address and port with colons,
and the port is what follows the last one; services and addresses may have colons of their own.
-/

namespace HealthConsensus

theorem append_cons_eq_append_cons_iff {α : Type} {x : α} {a b a' b' : List α} :
    a ++ x :: b = a' ++ x :: b' ↔
      a = a' ∧ b = b' ∨ (∃ m, a' = a ++ x :: m ∧ b = m ++ x :: b') ∨
        ∃ m, a = a' ++ x :: m ∧ b' = m ++ x :: b := by
  constructor
  · intro same
    rcases List.append_eq_append_iff.1 same with ⟨front, ha, hb⟩ | ⟨front, ha, hb⟩
    · rcases List.cons_eq_append_iff.1 hb with ⟨rfl, tail⟩ | ⟨m, rfl, tail⟩
      · rw [List.append_nil] at ha
        exact .inl ⟨ha.symm, (List.cons.inj tail).2.symm⟩
      · exact .inr (.inl ⟨m, ha, tail⟩)
    · rcases List.cons_eq_append_iff.1 hb with ⟨rfl, tail⟩ | ⟨m, rfl, tail⟩
      · rw [List.append_nil] at ha
        exact .inl ⟨ha, (List.cons.inj tail).2⟩
      · exact .inr (.inr ⟨m, ha, tail⟩)
  · rintro (⟨rfl, rfl⟩ | ⟨m, rfl, rfl⟩ | ⟨m, rfl, rfl⟩)
    · rfl
    · simp
    · simp

theorem colon_not_mem_decimal (n : Nat) : ':' ∉ (toString n).toList := by
  intro colon
  rw [Nat.toString_eq_repr, Nat.toList_repr] at colon
  exact absurd (toDigits_digits colon) (by decide)

theorem decimal_injective {n m : Nat} (h : (toString n).toList = (toString m).toList) : n = m := by
  rw [Nat.toString_eq_repr, Nat.toString_eq_repr, Nat.toList_repr, Nat.toList_repr] at h
  rw [← @Nat.ofDigitChars_ten_toDigits n, h, Nat.ofDigitChars_ten_toDigits]

namespace BackendKey

variable {k k' : BackendKey}

def Shifts (k k' : BackendKey) : Prop :=
  ∃ between, k'.service = k.service ++ ":" ++ between ∧ k.address = between ++ ":" ++ k'.address

def Overlaps (k k' : BackendKey) : Prop := k.port = k'.port ∧ (k.Shifts k' ∨ k'.Shifts k)

theorem shifts_iff : k.Shifts k' ↔ ∃ m, k'.service.toList = k.service.toList ++ ':' :: m ∧
    k.address.toList = m ++ ':' :: k'.address.toList := by
  constructor
  · rintro ⟨between, service, address⟩
    refine ⟨between.toList, ?_, ?_⟩
    · rw [service]
      simp
    · rw [address]
      simp
  · rintro ⟨m, service, address⟩
    refine ⟨String.ofList m, String.toList_inj.1 ?_, String.toList_inj.1 ?_⟩
    · rw [service]
      simp
    · rw [address]
      simp

theorem toList_text (k : BackendKey) : k.text.toList =
    (k.service.toList ++ ':' :: k.address.toList) ++ ':' :: (toString k.port.toNat).toList := by
  simp [text]

theorem text_eq_iff : k.text = k'.text ↔ k = k' ∨ k.Overlaps k' := by
  rw [← String.toList_inj, toList_text, toList_text, append_cons_eq_append_cons_iff]
  constructor
  · rintro (⟨front, port⟩ | ⟨m, -, port⟩ | ⟨m, -, port⟩)
    · have ports : k.port = k'.port := UInt16.toNat_inj.1 (decimal_injective port)
      rcases append_cons_eq_append_cons_iff.1 front with ⟨service, address⟩ | shift | shift
      · left
        cases k
        cases k'
        cases String.toList_inj.1 service
        cases String.toList_inj.1 address
        cases ports
        rfl
      · exact .inr ⟨ports, .inl (shifts_iff.2 shift)⟩
      · exact .inr ⟨ports, .inr (shifts_iff.2 shift)⟩
    -- what follows the last colon is a number
    · exact absurd (port ▸ by simp) (colon_not_mem_decimal k.port.toNat)
    · exact absurd (port ▸ by simp) (colon_not_mem_decimal k'.port.toNat)
  · rintro (rfl | ⟨ports, shift⟩)
    · exact .inl ⟨rfl, rfl⟩
    · refine .inl ⟨append_cons_eq_append_cons_iff.2 (.inr ?_), by rw [ports]⟩
      exact shift.imp shifts_iff.1 shifts_iff.1

theorem storeKey_eq_iff : k.storeKey = k'.storeKey ↔ k = k' ∨ k.Overlaps k' := by
  rw [← text_eq_iff, storeKey, storeKey, String.append_right_inj]

end BackendKey

namespace RecordWrite

def IsAbout (k : BackendKey) : RecordWrite → Prop
  | putBackend b => b.key = k
  | dropBackend k' => k' = k
  | _ => False

theorem IsAbout.get?_into {k : BackendKey} {w : RecordWrite} (h : w.IsAbout k) {s : String}
    (other : s ≠ k.storeKey) (c : Contents) : (w.storeWrite.into c).get? s = c.get? s := by
  cases w with
  | putBackend b =>
    obtain rfl : b.key = k := h
    exact Contents.get?_set.trans (if_neg other)
  | dropBackend k' =>
    obtain rfl : k' = k := h
    exact Contents.get?_erase.trans (if_neg other)
  | putPin pin => exact h.elim
  | dropPin agentId => exact h.elim

/-- Persisting or deleting one backend leaves the record of another one as it is unless their keys
overlap, and then it does not. -/
theorem record_untouched_iff (k k' : BackendKey) :
    (∀ (c : Contents) (w : RecordWrite), w.IsAbout k →
      (w.storeWrite.into c).get? k'.storeKey = c.get? k'.storeKey) ↔
    k ≠ k' ∧ ¬k.Overlaps k' := by
  rw [← not_or, ← BackendKey.storeKey_eq_iff]
  constructor
  · intro untouched same
    have kept := untouched (Contents.empty.set k'.storeKey []) (.dropBackend k) rfl
    rw [storeWrite, StoreWrite.into, Contents.get?_erase, Contents.get?_set, if_pos same.symm,
      if_pos rfl] at kept
    cases kept
  · intro apart c w about
    exact about.get?_into (fun same => apart same.symm) c

end RecordWrite

namespace Node

def replica : Registration := ⟨"a1", "eu", "db:replica", "10.0.0.1", 5432, 100, true⟩

def namesake : Registration := ⟨"a1", "eu", "db", "replica:10.0.0.1", 5432, 100, true⟩

def replicaAndNamesake : List NodeAction :=
  [.call .epoch (.registry (.register replica)), .call .epoch (.registry (.register namesake)),
    .call .epoch (.registry (.deregister namesake.key))]

theorem record_lost_with_namesake :
    replica.key ≠ namesake.key ∧ replica.key.storeKey = namesake.key.storeKey ∧
    (run (replicaAndNamesake.take 2) (fresh {} (.memory .empty))).1.state.registry.keys
      = [replica.key, namesake.key] ∧
    ((run replicaAndNamesake (fresh {} (.memory .empty))).1.state.registry.get? replica.key).isSome
      = true ∧
    ((start {} (run replicaAndNamesake (fresh {} (.memory .empty))).1.flush.1.storage
        .epoch).1.toOption.map fun n => (n.state.registry.get? replica.key).isSome) = some false :=
  ⟨by decide, by decide, by decide +kernel, by decide +kernel, by decide +kernel⟩

end Node

end HealthConsensus
