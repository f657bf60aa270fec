import HealthConsensus.Json.Basic
import HealthConsensus.Proofs.Text.Bytes

namespace HealthConsensus

namespace Quoted

inductive Written : UInt8 → Bytes → Prop
  | plain (b : UInt8) : b ≠ 34 → b ≠ 92 → 32 ≤ b → Written b [b]
  | short (b letter : UInt8) : letter ≠ 117 → shortEscape? letter = some b → Written b [92, letter]
  | number (b x y : UInt8) : codeUnit? 48 48 x y = some b.toNat → b < 32 →
      Written b [92, 117, 48, 48, x, y]

theorem codeUnit?_hexDigits (b : UInt8) (h : b < 32) :
    codeUnit? 48 48 (Ascii.hexDigit (b.toNat / 16)) (Ascii.hexDigit (b.toNat % 16)) =
      some b.toNat := by
  have all : ∀ n : Fin 32, codeUnit? 48 48 (Ascii.hexDigit (n.val / 16))
      (Ascii.hexDigit (n.val % 16)) = some n.val := by decide
  exact all ⟨b.toNat, h⟩

theorem written_short {b letter code : UInt8} (h : (b == code) = true) (number : letter ≠ 117)
    (named : shortEscape? letter = some code) : Written b [92, letter] := by
  obtain rfl := eq_of_beq h
  exact .short b letter number named

theorem written_escapeByte (b : UInt8) : Written b (escapeByte b) := by
  unfold escapeByte
  split
  · next h => exact written_short h (by decide) rfl
  · next quote =>
    split
    · next h => exact written_short h (by decide) rfl
    · next backslash =>
      split
      · next h => exact .plain b (by simpa using quote) (by simpa using backslash) h
      · next control =>
        have small : b < 32 := UInt8.not_le.1 control
        split
        · next h => exact written_short h (by decide) rfl
        · split
          · next h => exact written_short h (by decide) rfl
          · split
            · next h => exact written_short h (by decide) rfl
            · split
              · next h => exact written_short h (by decide) rfl
              · split
                · next h => exact written_short h (by decide) rfl
                · exact .number b _ _ (codeUnit?_hexDigits b small) small

theorem utf8_control (b : UInt8) (h : b < 32) : utf8 b.toNat = [b] := by
  have all : ∀ n : Fin 32, utf8 n.val = [UInt8.ofNat n.val] := by decide
  have one := all ⟨b.toNat, h⟩
  rwa [UInt8.ofNat_toNat] at one

theorem unescapeOnto_written {b : UInt8} {ws : Bytes} (h : Written b ws) (done rest : Bytes) :
    unescapeOnto done (ws ++ rest) = unescapeOnto (b :: done) rest := by
  cases h with
  | plain quote backslash control =>
    rw [List.singleton_append, unescapeOnto]
    · rintro _ _ _ _ _ rfl
      exact absurd rfl backslash
    · rintro _ _ rfl
      exact absurd rfl backslash
    · rintro rfl
      exact absurd rfl backslash
  | short letter number named =>
    rw [List.cons_append, List.singleton_append, unescapeOnto, named]
    rintro _ _ _ _ _ rfl
    exact absurd rfl number
  | number x y unit small =>
    have bound : b.toNat < 32 := UInt8.lt_iff_toNat_lt.1 small
    have low : isLowSurrogate b.toNat = false := by
      simp only [isLowSurrogate, Bool.and_eq_false_iff, decide_eq_false_iff_not]
      omega
    have high : isHighSurrogate b.toNat = false := by
      simp only [isHighSurrogate, Bool.and_eq_false_iff, decide_eq_false_iff_not]
      omega
    simp [unescapeOnto, unit, low, high, utf8_control b small]

theorem unescapeOnto_escape (bs done : Bytes) :
    unescapeOnto done (escape bs) = some (done.reverse ++ bs) := by
  induction bs generalizing done with
  | nil => simp [escape, unescapeOnto]
  | cons b bs ih =>
    rw [escape, List.flatMap_cons, unescapeOnto_written (written_escapeByte b), ← escape, ih]
    simp

@[simp] theorem text?_ofString (s : String) : text? (ofString s) = some s := by
  rw [text?, unescape?, ofString, unescapeOnto_escape]
  exact Bytes.toString?_ofString s

end Quoted

end HealthConsensus
