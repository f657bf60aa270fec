import HealthConsensus.Store.Contents
import HealthConsensus.Text.Bytes
import Mathlib.Tactic.SplitIfs

namespace HealthConsensus

namespace Bytes

@[simp] theorem toString?_ofString (s : String) : toString? (ofString s) = some s :=
  dif_pos s.isValidUTF8

theorem ofString_append (s t : String) : ofString (s ++ t) = ofString s ++ ofString t := by
  simp [ofString, String.toUTF8]

theorem ofString_inj {s t : String} : ofString s = ofString t ↔ s = t := by
  constructor
  · intro same
    have read := toString?_ofString s
    rw [same, toString?_ofString] at read
    exact (Option.some.inj read).symm
  · rintro rfl
    rfl

theorem toString?_eq_some_iff {bs : Bytes} {s : String} :
    toString? bs = some s ↔ bs = ofString s := by
  constructor
  · intro h
    unfold toString? String.fromUTF8? at h
    split at h
    · cases h
      rfl
    · cases h
  · rintro rfl
    exact toString?_ofString s

theorem after?_eq_some_iff {start bs rest : Bytes} :
    after? start bs = some rest ↔ bs = start ++ rest := by
  unfold after?
  constructor
  · intro h
    split at h
    · next starts =>
      obtain ⟨more, rfl⟩ := List.isPrefixOf_iff_prefix.1 starts
      cases h
      rw [List.drop_left]
    · cases h
  · rintro rfl
    simp

theorem ofString_eq (s : String) : ofString s = s.toList.flatMap String.utf8EncodeChar := by
  rw [ofString, String.toUTF8, ← String.utf8Encode_toList, List.utf8Encode, List.data_toByteArray]

theorem cons_lt_cons_iff {a b : UInt8} {x y : Bytes} :
    a :: x < b :: y ↔ a.toNat < b.toNat ∨ a.toNat = b.toNat ∧ x < y := by
  rw [List.cons_lt_cons_iff, UInt8.lt_iff_toNat_lt, UInt8.toNat_inj]

theorem encodeChar_lt {c d : Char} (h : c < d) (x y : Bytes) :
    String.utf8EncodeChar c ++ x < String.utf8EncodeChar d ++ y := by
  have less : c.val.toNat < d.val.toNat := h
  have bound : d.val.toNat < 0x110000 := by
    rcases d.valid with low | ⟨-, high⟩ <;> omega
  have twice (n : Nat) : n / 4096 = n / 64 / 64 := by omega
  have thrice (n : Nat) : n / 262144 = n / 64 / 64 / 64 := by omega
  unfold String.utf8EncodeChar
  dsimp only
  generalize c.val.toNat = m at *
  generalize d.val.toNat = n at *
  -- the first byte tells how many there are, and among equally many the highest digits come first
  split_ifs <;>
    simp only [List.cons_append, List.nil_append, cons_lt_cons_iff, UInt8.toNat_ofNat', twice,
      thrice] <;> omega

theorem flatMap_lt {cs ds : List Char} (h : cs < ds) :
    cs.flatMap String.utf8EncodeChar < ds.flatMap String.utf8EncodeChar := by
  induction cs generalizing ds with
  | nil =>
    cases ds with
    | nil => exact absurd h (List.lt_irrefl _)
    | cons d ds =>
      obtain ⟨b, bs, bytes⟩ := List.exists_cons_of_length_pos
        (show 0 < (String.utf8EncodeChar d).length by simp [Char.utf8Size_pos])
      rw [List.flatMap_cons, bytes]
      exact List.nil_lt_cons _ _
  | cons c cs ih =>
    cases ds with
    | nil => exact absurd h (List.not_lt_nil _)
    | cons d ds =>
      rw [List.flatMap_cons, List.flatMap_cons]
      rcases List.cons_lt_cons_iff.1 h with first | ⟨rfl, later⟩
      · exact encodeChar_lt first _ _
      · exact List.append_left_lt (ih later)

theorem ofString_lt_iff {s t : String} : ofString s < ofString t ↔ s < t := by
  have forwards {s t : String} (h : s < t) : ofString s < ofString t := by
    rw [ofString_eq, ofString_eq]
    exact flatMap_lt (String.lt_iff.1 h)
  refine ⟨fun h => ?_, forwards⟩
  apply Decidable.byContradiction
  intro before
  by_cases same : s = t
  · exact List.lt_irrefl _ (same ▸ h)
  · exact List.lt_asymm h (forwards (Contents.lt_of_not_lt_of_ne before same))

theorem ofString_prefix_iff {s t : String} :
    ofString s <+: ofString t ↔ s.toList <+: t.toList := by
  constructor
  · rintro ⟨rest, bytes⟩
    apply List.isPrefix_of_utf8Encode_append_eq_utf8Encode rest.toByteArray
    rw [ofString_eq, ofString_eq] at bytes
    simp only [List.utf8Encode, ← List.toByteArray_append, bytes]
  · rintro ⟨rest, chars⟩
    rw [ofString_eq, ofString_eq, ← chars, List.flatMap_append]
    exact List.prefix_append _ _

end Bytes

end HealthConsensus
