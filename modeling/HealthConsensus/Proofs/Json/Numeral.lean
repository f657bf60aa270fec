import HealthConsensus.Json.Token
import HealthConsensus.Proofs.Number.Digits

namespace HealthConsensus

namespace Ascii

def AllDigits (ds : Bytes) : Prop := ds ≠ [] ∧ ∀ b ∈ ds, isDigit b = true

theorem allDigits_natDigits (n : Nat) : AllDigits (natDigits n) :=
  ⟨natDigits_ne_nil n, fun _ => isDigit_of_mem_natDigits⟩

theorem AllDigits.append {ds es : Bytes} (h : AllDigits ds) (h' : ∀ b ∈ es, isDigit b = true) :
    AllDigits (ds ++ es) := by
  refine ⟨fun nil => h.1 (List.append_eq_nil_iff.1 nil).1, fun b hb => ?_⟩
  exact (List.mem_append.1 hb).elim (h.2 b) (h' b)

end Ascii

open Ascii

namespace Numeral

structure Proper (x : Numeral) : Prop where
  whole : AllDigits x.whole
  first : x.whole = [48] ∨ x.whole.head? ≠ some 48
  fraction : ∀ ds, x.fraction = some ds → AllDigits ds
  exponent : ∀ e, x.exponent = some e → AllDigits e.digits

theorem proper_ofNat (n : Nat) : (ofNat n).Proper where
  whole := allDigits_natDigits n
  first := by
    rcases Nat.eq_zero_or_pos n with rfl | positive
    · exact .inl natDigits_zero
    · exact .inr (head?_natDigits positive)
  fraction _ h := nomatch h
  exponent _ h := nomatch h

theorem mem_zeros {n : Nat} {b : UInt8} (h : b ∈ zeros n) : isDigit b = true := by
  rw [List.eq_of_mem_replicate h]
  rfl

theorem allDigits_take {ds : Bytes} (h : AllDigits ds) {n : Nat} (positive : 0 < n) :
    AllDigits (ds.take n) := by
  refine ⟨fun nil => ?_, fun b hb => h.2 b (List.mem_of_mem_take hb)⟩
  rcases List.take_eq_nil_iff.1 nil with zero | empty
  · omega
  · exact h.1 empty

theorem allDigits_drop {ds : Bytes} (h : AllDigits ds) {n : Nat} (shorter : n < ds.length) :
    AllDigits (ds.drop n) := by
  refine ⟨fun nil => ?_, fun b hb => h.2 b (List.mem_of_mem_drop hb)⟩
  have all := List.drop_eq_nil_iff.1 nil
  omega

theorem natDigits_first (n : Nat) : natDigits n = [48] ∨ (natDigits n).head? ≠ some 48 :=
  (proper_ofNat n).first

theorem proper_scientific (x : Decimal) (top : Int) :
    Proper ⟨x.negative, (natDigits x.digits).take 1,
      if (natDigits x.digits).length ≤ 1 then none else some ((natDigits x.digits).drop 1),
      some ⟨some (decide (top < 0)), natDigits top.natAbs⟩⟩ where
  whole := allDigits_take (allDigits_natDigits _) (by decide)
  first := by
    obtain ⟨d, ds, digits⟩ := List.exists_cons_of_ne_nil (natDigits_ne_nil x.digits)
    by_cases zero : d = 48
    · exact .inl (by simp [digits, zero])
    · exact .inr (by simpa [digits] using zero)
  fraction ds h := by
    dsimp only at h
    split at h
    · cases h
    · next long =>
      cases h
      exact allDigits_drop (allDigits_natDigits _) (by omega)
  exponent e h := by
    cases h
    exact allDigits_natDigits _

theorem proper_small (x : Decimal) (n : Nat) :
    Proper ⟨x.negative, zeros 1, some (zeros n ++ natDigits x.digits), none⟩ where
  whole := ⟨List.cons_ne_nil _ _, fun _ => mem_zeros⟩
  first := .inl rfl
  fraction ds h := by
    cases h
    refine ⟨fun nil => natDigits_ne_nil _ (List.append_eq_nil_iff.1 nil).2, fun b hb => ?_⟩
    exact (List.mem_append.1 hb).elim mem_zeros isDigit_of_mem_natDigits
  exponent _ h := nomatch h

theorem proper_integral (x : Decimal) (n : Nat) (zero : x.digits = 0 → n = 0) :
    Proper ⟨x.negative, natDigits x.digits ++ zeros n, some (zeros 1), none⟩ where
  whole := (allDigits_natDigits _).append fun _ => mem_zeros
  first := by
    rcases Nat.eq_zero_or_pos x.digits with none | positive
    · rw [none, zero none]
      exact .inl rfl
    · refine .inr fun first => head?_natDigits positive ?_
      obtain ⟨d, ds, digits⟩ := List.exists_cons_of_ne_nil (natDigits_ne_nil x.digits)
      rw [digits] at first ⊢
      exact first
  fraction ds h := by
    cases h
    exact ⟨by decide, fun _ => mem_zeros⟩
  exponent _ h := nomatch h

theorem proper_split (x : Decimal) (n : Nat) (positive : 0 < n)
    (shorter : n < (natDigits x.digits).length) :
    Proper ⟨x.negative, (natDigits x.digits).take n, some ((natDigits x.digits).drop n), none⟩ where
  whole := allDigits_take (allDigits_natDigits _) positive
  first := by
    rcases natDigits_first x.digits with single | nonzero
    · rw [single] at shorter
      change n < 1 at shorter
      omega
    · exact .inr (by simpa [List.head?_take, Nat.ne_of_gt positive] using nonzero)
  fraction ds h := by
    cases h
    exact allDigits_drop (allDigits_natDigits _) shorter
  exponent _ h := nomatch h

theorem proper_ofDecimal (x : Decimal) : (ofDecimal .json x).Proper := by
  unfold ofDecimal
  dsimp only
  generalize place : (if x.digits = 0 then (0 : Int) else _) = top
  split
  · exact proper_scientific x top
  · split
    · exact proper_small x _
    · split
      · refine proper_integral x _ fun zero => ?_
        rw [if_pos zero] at place
        simp [zero, natDigits_zero, ← place]
      · exact proper_split x _ (by omega) (by omega)

theorem proper_ofFloat (x : Float) : (ofFloat .json x).Proper := proper_ofDecimal _

def fractionText : Option Bytes → Bytes
  | none => []
  | some ds => 46 :: ds

def Exponent.signed (e : Exponent) : Bytes :=
  match e.sign with
  | none => e.digits
  | some true => 45 :: e.digits
  | some false => 43 :: e.digits

def exponentText (mark : UInt8) : Option Exponent → Bytes
  | none => []
  | some e => mark :: e.signed

def spelling (mark : UInt8) (x : Numeral) : Bytes :=
  (if x.negative then [45] else []) ++ x.whole ++ fractionText x.fraction
    ++ exponentText mark x.exponent

theorem text_eq (x : Numeral) : x.text = x.spelling 101 := by
  unfold text spelling
  cases x.fraction <;> cases x.exponent <;> rfl

end Numeral

namespace Json.Token

def EndsNumber (rest : Bytes) : Prop :=
  ∀ b ∈ rest.head?, isDigit b = false ∧ b ≠ 46 ∧ b ≠ 101 ∧ b ≠ 69

theorem endsNumber_nil : EndsNumber [] := fun _ h => nomatch h

theorem endsNumber_cons {b : UInt8} (h : b = 44 ∨ b = 93 ∨ b = 125) (rest : Bytes) :
    EndsNumber (b :: rest) := by
  intro c hc
  cases hc
  rcases h with rfl | rfl | rfl <;> exact ⟨rfl, by decide, by decide, by decide⟩

theorem digits?_append {ds rest : Bytes} (h : AllDigits ds)
    (next : ∀ b ∈ rest.head?, isDigit b = false) : digits? (ds ++ rest) = some (ds, rest) := by
  have taken : (ds ++ rest).takeWhile isDigit = ds := by
    rw [List.takeWhile_append_of_pos h.2]
    cases rest with
    | nil => simp
    | cons b rest => simp [next b rfl]
  have dropped : (ds ++ rest).dropWhile isDigit = rest := by
    rw [List.dropWhile_append_of_pos h.2]
    cases rest with
    | nil => rfl
    | cons b rest => simp [next b rfl]
  rw [digits?, taken, dropped]
  cases ds with
  | nil => exact absurd rfl h.1
  | cons d ds => rfl

theorem wholeDigits?_append {ds rest : Bytes} (h : AllDigits ds)
    (first : ds = [48] ∨ ds.head? ≠ some 48) (next : ∀ b ∈ rest.head?, isDigit b = false) :
    wholeDigits? (ds ++ rest) = some (ds, rest) := by
  rw [wholeDigits?, digits?_append h next]
  rcases first with rfl | nonzero
  · rfl
  · split
    · next same =>
      cases same
      exact absurd rfl nonzero
    · rfl

theorem fraction?_text {fraction : Option Bytes} {rest : Bytes}
    (h : ∀ ds, fraction = some ds → AllDigits ds)
    (next : ∀ b ∈ rest.head?, isDigit b = false ∧ b ≠ 46) :
    fraction? (Numeral.fractionText fraction ++ rest) = some (fraction, rest) := by
  cases fraction with
  | none =>
    unfold fraction?
    split
    · next same =>
      have point : rest = _ := same
      exact absurd rfl (next 46 (point ▸ rfl)).2
    · rfl
  | some ds =>
    change (digits? (ds ++ rest)).map _ = _
    rw [digits?_append (h ds rfl) fun b hb => (next b hb).1]
    rfl

theorem exponentSign_signed {e : Numeral.Exponent} (h : AllDigits e.digits) (rest : Bytes) :
    exponentSign (e.signed ++ rest) = (e.sign, e.digits ++ rest) := by
  obtain ⟨sign, ds⟩ := e
  cases sign with
  | some negative => cases negative <;> rfl
  | none =>
    obtain ⟨d, ds, rfl⟩ := List.exists_cons_of_ne_nil h.1
    have digit := h.2 d List.mem_cons_self
    change exponentSign (d :: (ds ++ rest)) = _
    rw [exponentSign]
    · rfl
    · intro _ same
      cases same
      cases digit
    · intro _ same
      cases same
      cases digit

theorem exponent?_text {mark : UInt8} (letter : mark = 101 ∨ mark = 69)
    {exponent : Option Numeral.Exponent} {rest : Bytes}
    (h : ∀ e, exponent = some e → AllDigits e.digits) (ends : EndsNumber rest) :
    exponent? (Numeral.exponentText mark exponent ++ rest) = some (exponent, rest) := by
  cases exponent with
  | none =>
    cases rest with
    | nil => rfl
    | cons b rest =>
      obtain ⟨-, -, small, capital⟩ := ends b rfl
      simp [Numeral.exponentText, exponent?, small, capital]
  | some e =>
    have digits := digits?_append (h e rfl) fun b hb => (ends b hb).1
    have marked : (mark == 101 || mark == 69) = true := by simpa using letter
    rw [Numeral.exponentText, List.cons_append, exponent?, if_pos marked]
    simp [exponentSign_signed (h e rfl) rest, digits]

theorem minus_text (negative : Bool) {tail : Bytes} (h : ∀ b ∈ tail.head?, isDigit b = true) :
    minus ((if negative then [45] else []) ++ tail) = (negative, tail) := by
  cases negative with
  | true => rfl
  | false =>
    change minus tail = _
    unfold minus
    split
    · next same =>
      have digit := h 45 rfl
      cases digit
    · rfl

theorem head?_fractionText {fraction : Option Bytes} {tail : Bytes}
    (h : ∀ b ∈ tail.head?, isDigit b = false) :
    ∀ b ∈ (Numeral.fractionText fraction ++ tail).head?, isDigit b = false := by
  cases fraction with
  | none => exact h
  | some ds =>
    intro b hb
    cases hb
    rfl

theorem head?_exponentText {mark : UInt8} (letter : mark = 101 ∨ mark = 69)
    (exponent : Option Numeral.Exponent) {rest : Bytes} (ends : EndsNumber rest) :
    ∀ b ∈ (Numeral.exponentText mark exponent ++ rest).head?, isDigit b = false ∧ b ≠ 46 := by
  intro b hb
  cases exponent with
  | none => exact ⟨(ends b hb).1, (ends b hb).2.1⟩
  | some e =>
    cases hb
    rcases letter with rfl | rfl <;> exact ⟨rfl, by decide⟩

theorem number?_spelling {x : Numeral} (h : x.Proper) {mark : UInt8}
    (letter : mark = 101 ∨ mark = 69) {rest : Bytes} (ends : EndsNumber rest) :
    number? (x.spelling mark ++ rest) = some (x, rest) := by
  let last := Numeral.exponentText mark x.exponent ++ rest
  let after := Numeral.fractionText x.fraction ++ last
  have next := head?_exponentText letter x.exponent ends
  have text : x.spelling mark ++ rest = (if x.negative then [45] else []) ++ (x.whole ++ after) := by
    simp [Numeral.spelling, after, last]
  have sign : minus (x.spelling mark ++ rest) = (x.negative, x.whole ++ after) := by
    rw [text]
    apply minus_text
    obtain ⟨d, ds, whole⟩ := List.exists_cons_of_ne_nil h.whole.1
    rw [whole]
    intro b hb
    cases hb
    exact h.whole.2 d (whole ▸ List.mem_cons_self)
  have whole : wholeDigits? (x.whole ++ after) = some (x.whole, after) :=
    wholeDigits?_append h.whole h.first (head?_fractionText fun b hb => (next b hb).1)
  have fraction : fraction? after = some (x.fraction, last) := fraction?_text h.fraction next
  have exponent : exponent? last = some (x.exponent, rest) :=
    exponent?_text letter h.exponent ends
  simp [number?, sign, whole, fraction, exponent]

end Json.Token

end HealthConsensus
