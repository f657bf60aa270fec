import HealthConsensus.Text.Bytes

namespace HealthConsensus

theorem toDigits_digits {n : Nat} {c : Char} (h : c ∈ Nat.toDigits 10 n) : c.isDigit = true :=
  Nat.isDigit_of_mem_toDigits (by decide) (by decide) h

theorem head?_toDigits {n : Nat} (h : 0 < n) : (Nat.toDigits 10 n).head? ≠ some '0' := by
  induction n using Nat.strongRecOn with
  | ind n ih =>
    by_cases small : n < 10
    · rw [Nat.toDigits_of_lt_base small]
      have digit : ∀ i : Fin 10, 0 < i.val → i.val.digitChar ≠ '0' := by decide
      intro same
      exact digit ⟨n, small⟩ h (Option.some.inj same)
    · have first := ih (n / 10) (by omega) (by omega)
      obtain ⟨c, cs, digits⟩ := List.exists_cons_of_ne_nil (@Nat.toDigits_ne_nil (n / 10) 10)
      rw [Nat.toDigits_of_base_le (by decide) (by omega), digits, List.cons_append, List.head?_cons]
      rwa [digits, List.head?_cons] at first

namespace Ascii

theorem ofChar_toNat {c : Char} (h : c.isDigit = true) : (ofChar c).toNat = c.toNat := by
  obtain ⟨-, small⟩ := Char.isDigit_iff_toNat.1 h
  have small : c.toNat ≤ 57 := small
  exact Nat.mod_eq_of_lt (Nat.lt_of_le_of_lt small (by decide))

theorem isDigit_ofChar {c : Char} (h : c.isDigit = true) : isDigit (ofChar c) = true := by
  obtain ⟨low, high⟩ := Char.isDigit_iff_toNat.1 h
  have low : 48 ≤ c.toNat := low
  have high : c.toNat ≤ 57 := high
  simp only [isDigit, Bool.and_eq_true, decide_eq_true_eq, UInt8.le_iff_toNat_le, ofChar_toNat h]
  exact ⟨low, high⟩

theorem isDigit_of_mem_natDigits {n : Nat} {b : UInt8} (h : b ∈ natDigits n) :
    isDigit b = true := by
  obtain ⟨c, hc, rfl⟩ := List.mem_map.1 h
  exact isDigit_ofChar (toDigits_digits hc)

theorem natDigits_ne_nil (n : Nat) : natDigits n ≠ [] :=
  fun h => Nat.toDigits_ne_nil (List.map_eq_nil_iff.1 h)

theorem natValue_map_ofChar {cs : List Char} (h : ∀ c ∈ cs, c.isDigit = true) (n : Nat) :
    (cs.map ofChar).foldl (fun n d => 10 * n + digitValue d) n = Nat.ofDigitChars 10 cs n := by
  induction cs generalizing n with
  | nil => rfl
  | cons c cs ih =>
    rw [List.map_cons, List.foldl_cons, digitValue, ofChar_toNat (h c List.mem_cons_self)]
    exact ih (fun d hd => h d (List.mem_cons_of_mem c hd)) _

@[simp] theorem natValue_natDigits (n : Nat) : natValue (natDigits n) = n := by
  rw [natValue, natDigits, natValue_map_ofChar fun c hc => toDigits_digits hc]
  exact Nat.ofDigitChars_ten_toDigits

theorem natDigits_zero : natDigits 0 = [48] := by decide

theorem head?_natDigits {n : Nat} (h : 0 < n) : (natDigits n).head? ≠ some 48 := by
  intro zero
  rw [natDigits, List.head?_map] at zero
  obtain ⟨c, first, same⟩ := Option.map_eq_some_iff.1 zero
  have digit : c.isDigit = true := toDigits_digits (List.mem_of_mem_head? first)
  have value : c.toNat = 48 := (ofChar_toNat digit).symm.trans (congrArg UInt8.toNat same)
  have char : c = '0' := Char.toNat_inj.1 value
  exact head?_toDigits h (char ▸ first)

end Ascii

end HealthConsensus
