import HealthConsensus.Number.Literal
import HealthConsensus.Proofs.Text.Bytes

namespace HealthConsensus.Literal

def isNumeralByte (b : UInt8) : Bool := Ascii.isAlphanumeric b || b == 43 || b == 45 || b == 46

def isNumeral (c : Char) : Bool := c.isAlphanum || c == '+' || c == '-' || c == '.'

variable {s : String} {bs : Bytes} {b : UInt8}

theorem isNumeral_ofNat_range : ∀ n < 128,
    isNumeralByte (Ascii.ofChar (Char.ofNat n)) = isNumeral (Char.ofNat n) := by decide

theorem lt_of_isNumeralByte (h : isNumeralByte b) : b.toNat < 128 := by
  unfold isNumeralByte Ascii.isAlphanumeric Ascii.isLetter Ascii.isUpper Ascii.isLower
    Ascii.isDigit at h
  simp only [Bool.or_eq_true, Bool.and_eq_true, decide_eq_true_eq, UInt8.le_iff_toNat_le,
    beq_iff_eq, ← UInt8.toNat_inj] at h
  simp only [UInt8.reduceToNat] at h
  omega

theorem exists_high_byte {c : Char} (h : 127 < c.val.toNat) :
    ∃ b ∈ String.utf8EncodeChar c, 128 ≤ b.toNat := by
  unfold String.utf8EncodeChar
  dsimp only
  rw [if_neg (Nat.not_le_of_lt h)]
  generalize c.val.toNat = m at *
  split_ifs <;> refine ⟨_, List.mem_cons_self, ?_⟩ <;> rw [UInt8.toNat_ofNat'] <;> omega

theorem isNumeral_of_bytes (h : ∀ b ∈ Bytes.ofString s, isNumeralByte b) :
    ∀ c ∈ s.toList, isNumeral c := by
  intro c hc
  have own : ∀ b ∈ String.utf8EncodeChar c, isNumeralByte b := fun b hb => by
    rw [Bytes.ofString_eq] at h
    exact h b (List.mem_flatMap.2 ⟨c, hc, hb⟩)
  by_cases ascii : c.val.toNat ≤ 127
  · rw [String.utf8EncodeChar, if_pos ascii] at own
    have byte : isNumeralByte (Ascii.ofChar c) := own _ List.mem_cons_self
    have same := isNumeral_ofNat_range c.toNat (Nat.lt_succ_of_le ascii)
    rw [Char.ofNat_toNat] at same
    rwa [← same]
  · obtain ⟨b, hb, high⟩ := exists_high_byte (Nat.lt_of_not_le ascii)
    exact absurd (lt_of_isNumeralByte (own b hb)) (Nat.not_lt_of_le high)

theorem numeral_of_digit (h : Ascii.isDigit b) : isNumeralByte b := by
  simp [isNumeralByte, Ascii.isAlphanumeric, h]

theorem numeral_of_sign (h : ∀ b ∈ (sign bs).2, isNumeralByte b) : ∀ b ∈ bs, isNumeralByte b := by
  unfold sign at h
  split at h
  · exact List.forall_mem_cons.2 ⟨by decide, h⟩
  · exact List.forall_mem_cons.2 ⟨by decide, h⟩
  · exact h

theorem numeral_of_isDigits (h : isDigits bs) : ∀ b ∈ bs, isNumeralByte b := by
  unfold isDigits at h
  intro b hb
  exact numeral_of_digit (List.all_eq_true.1 (Bool.and_eq_true_iff.1 h).2 b hb)

theorem numeral_of_int? {n : Int} (h : int? s = some n) : ∀ c ∈ s.toList, isNumeral c := by
  refine isNumeral_of_bytes (numeral_of_sign ?_)
  unfold int? at h
  cases parts : sign (Bytes.ofString s) with
  | mk negative ds =>
    simp only [parts] at h
    split at h
    · next digits => exact numeral_of_isDigits digits
    · cases h

theorem numeral_of_exponent? {n : Int} (h : exponent? bs = some n) :
    ∀ b ∈ bs, isNumeralByte b := by
  cases bs with
  | nil =>
    intro b hb
    cases hb
  | cons mark rest =>
    unfold exponent? at h
    cases parts : sign rest with
    | mk negative ds =>
      simp only [parts] at h
      split at h
      · next marked =>
        obtain ⟨letter, digits⟩ := Bool.and_eq_true_iff.1 marked
        have later : ∀ b ∈ (sign rest).2, isNumeralByte b := by
          rw [parts]
          exact numeral_of_isDigits digits
        refine List.forall_mem_cons.2 ⟨?_, numeral_of_sign later⟩
        rcases Bool.or_eq_true_iff.1 letter with e | e <;> rw [beq_iff_eq.1 e] <;> decide
      · cases h

theorem numeral_of_dropWhile (h : ∀ b ∈ bs.dropWhile Ascii.isDigit, isNumeralByte b) :
    ∀ b ∈ bs, isNumeralByte b := by
  rw [← List.takeWhile_append_dropWhile (p := Ascii.isDigit) (l := bs)]
  refine List.forall_mem_append.2 ⟨fun b hb => numeral_of_digit ?_, h⟩
  exact List.all_eq_true.1 List.all_takeWhile b hb

theorem numeral_of_decimal? {negative : Bool} {x : Decimal} (h : decimal? negative bs = some x) :
    ∀ b ∈ bs, isNumeralByte b := by
  apply numeral_of_dropWhile
  unfold decimal? at h
  simp only [Option.bind_eq_bind] at h
  generalize bs.dropWhile Ascii.isDigit = rest at h ⊢
  split at h
  · next later =>
    split at h
    · cases h
    · obtain ⟨exponent, read, -⟩ := Option.bind_eq_some_iff.1 h
      exact List.forall_mem_cons.2 ⟨by decide, numeral_of_dropWhile (numeral_of_exponent? read)⟩
  · split at h
    · cases h
    · obtain ⟨exponent, read, -⟩ := Option.bind_eq_some_iff.1 h
      exact numeral_of_exponent? read

theorem letter_of_toLower (h : Ascii.isLower (Ascii.toLower b)) : Ascii.isLetter b := by
  unfold Ascii.toLower at h
  unfold Ascii.isLetter
  split at h
  · next upper => rw [upper, Bool.true_or]
  · rw [h, Bool.or_true]

theorem numeral_of_lower {word : String} (h : bs.map Ascii.toLower = Bytes.ofString word)
    (letters : (Bytes.ofString word).all Ascii.isLower) : ∀ b ∈ bs, isNumeralByte b := by
  intro b hb
  have lower := List.all_eq_true.1 letters (Ascii.toLower b) (h ▸ List.mem_map_of_mem hb)
  simp [isNumeralByte, Ascii.isAlphanumeric, letter_of_toLower lower]

theorem numeral_of_float? {x : Float} (h : float? s = some x) : ∀ c ∈ s.toList, isNumeral c := by
  refine isNumeral_of_bytes (numeral_of_sign ?_)
  unfold float? at h
  cases parts : sign (Bytes.ofString s) with
  | mk negative ds =>
    simp only [parts] at h
    split at h
    · next word => exact numeral_of_lower word (by decide)
    · split at h
      · next word =>
        rcases Bool.or_eq_true_iff.1 word with word | word
        · exact numeral_of_lower (of_decide_eq_true word) (by decide)
        · exact numeral_of_lower (of_decide_eq_true word) (by decide)
      · obtain ⟨x, read, -⟩ := Option.map_eq_some_iff.1 h
        exact numeral_of_decimal? read

theorem alphanum_of_toLower {c : Char} (h : c.toLower.isAlphanum) : c.isAlphanum := by
  unfold Char.toLower at h
  split at h
  · next bounds =>
    have upper : c.isUpper = true := decide_eq_true bounds
    change (c.isUpper || c.isLower || c.isDigit) = true
    rw [upper]
    rfl
  · exact h

theorem numeral_of_word {word : String} (h : Ascii.lower s = word)
    (letters : word.toList.all Char.isAlphanum) : ∀ c ∈ s.toList, isNumeral c := by
  intro c hc
  have mem : c.toLower ∈ word.toList := by
    rw [← h, Ascii.lower, String.toList_map]
    exact List.mem_map_of_mem hc
  simp [isNumeral, alphanum_of_toLower (List.all_eq_true.1 letters _ mem)]

end HealthConsensus.Literal
