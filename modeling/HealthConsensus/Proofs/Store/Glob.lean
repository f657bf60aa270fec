import HealthConsensus.Proofs.Store.Contents
import HealthConsensus.Proofs.Text.Bytes
import HealthConsensus.Store.Glob

namespace HealthConsensus.Glob

def IsPlain (b : UInt8) : Prop := b ≠ 42 ∧ b ≠ 63 ∧ b ≠ 91 ∧ b ≠ 92

theorem pieces_plain {b : UInt8} (plain : IsPlain b) (fuel : Nat) (rest : Bytes) :
    pieces (fuel + 1) (b :: rest) = .literal b :: pieces fuel rest := by
  obtain ⟨star, mark, bracket, backslash⟩ := plain
  change (if b == 42 then _ else if b == 63 then _ else if b == 91 then _ else _) = _
  rw [if_neg (by simpa using star), if_neg (by simpa using mark),
    if_neg (by simpa using bracket)]
  split
  · exact absurd rfl backslash
  · rfl

theorem pieces_run {bs : Bytes} (plain : ∀ b ∈ bs, IsPlain b) (fuel : Nat) (rest : Bytes) :
    pieces (fuel + bs.length) (bs ++ rest) = bs.map .literal ++ pieces fuel rest := by
  induction bs with
  | nil => rfl
  | cons b bs ih =>
    have later := ih fun c hc => plain c (List.mem_cons_of_mem b hc)
    rw [List.length_cons, ← Nat.add_assoc, List.cons_append,
      pieces_plain (plain b List.mem_cons_self), later]
    rfl

theorem isPlain_of_mem_encode {c : Char} (other : c ∉ specials) {b : UInt8}
    (h : b ∈ String.utf8EncodeChar c) : IsPlain b := by
  have differs {d : Char} (hd : d ∈ specials) : c.val.toNat ≠ d.val.toNat := fun same =>
    other (Char.ext (UInt32.toNat_inj.1 same) ▸ hd)
  have star : c.val.toNat ≠ 42 := differs (show '*' ∈ specials by decide)
  have mark : c.val.toNat ≠ 63 := differs (show '?' ∈ specials by decide)
  have bracket : c.val.toNat ≠ 91 := differs (show '[' ∈ specials by decide)
  have backslash : c.val.toNat ≠ 92 := differs (show '\\' ∈ specials by decide)
  simp only [IsPlain, ne_eq, ← UInt8.toNat_inj]
  unfold String.utf8EncodeChar at h
  dsimp only at h
  generalize c.val.toNat = m at *
  -- the bytes of a character that is no ASCII one are all above 127
  split_ifs at h <;> simp only [List.mem_cons, List.not_mem_nil, or_false] at h <;>
    rcases h with rfl | rfl | rfl | rfl <;> simp <;> omega

theorem escapeChar_special {c : Char} (h : c ∈ specials) :
    ∃ b, String.utf8EncodeChar c = [b] ∧
      (escapeChar c).flatMap String.utf8EncodeChar = [92, b] := by
  simp only [specials, List.mem_cons, List.not_mem_nil, or_false] at h
  rcases h with rfl | rfl | rfl | rfl | rfl <;> exact ⟨_, rfl, rfl⟩

theorem escapeChar_other {c : Char} (h : c ∉ specials) : escapeChar c = [c] :=
  if_neg (by simpa using h)

theorem pieces_escaped (cs : List Char) {fuel : Nat}
    (enough : ((cs.flatMap escapeChar).flatMap String.utf8EncodeChar).length < fuel) :
    pieces fuel ((cs.flatMap escapeChar).flatMap String.utf8EncodeChar ++ [42]) =
      (cs.flatMap String.utf8EncodeChar).map .literal ++ [.anyRun] := by
  induction cs generalizing fuel with
  | nil =>
    obtain ⟨fuel, rfl⟩ := Nat.exists_eq_add_of_lt enough
    cases fuel <;> rfl
  | cons c cs ih =>
    rw [List.flatMap_cons, List.flatMap_append, List.length_append] at enough
    rw [List.flatMap_cons, List.flatMap_append, List.append_assoc, List.flatMap_cons,
      List.map_append, List.append_assoc]
    by_cases special : c ∈ specials
    · obtain ⟨b, byte, escaped⟩ := escapeChar_special special
      rw [escaped] at enough ⊢
      rw [byte]
      rw [List.length_cons, List.length_singleton] at enough
      obtain ⟨left, rfl⟩ : ∃ left, fuel = left + 1 := ⟨fuel - 1, by omega⟩
      exact congrArg (Piece.literal b :: ·) (ih (by omega))
    · rw [escapeChar_other special, List.flatMap_singleton] at enough ⊢
      obtain ⟨left, rfl⟩ : ∃ left, fuel = left + (String.utf8EncodeChar c).length :=
        ⟨fuel - (String.utf8EncodeChar c).length, by omega⟩
      rw [pieces_run fun b hb => isPlain_of_mem_encode special hb, ih (by omega)]

theorem anyEnd_iff {test : Bytes → Bool} {text : Bytes} :
    anyEnd test text = true ↔ ∃ skipped rest, text = skipped ++ rest ∧ test rest = true := by
  induction text with
  | nil => simp [anyEnd]
  | cons b bs ih =>
    rw [anyEnd, Bool.or_eq_true, ih]
    constructor
    · rintro (here | ⟨skipped, rest, rfl, later⟩)
      · exact ⟨[], b :: bs, rfl, here⟩
      · exact ⟨b :: skipped, rest, rfl, later⟩
    · rintro ⟨skipped, rest, parts, passed⟩
      cases skipped with
      | nil => exact .inl (parts ▸ passed)
      | cons a skipped =>
        cases parts
        exact .inr ⟨skipped, rest, rfl, passed⟩

theorem covers_start (bs text : Bytes) :
    covers (bs.map .literal ++ [.anyRun]) text = bs.isPrefixOf text := by
  induction bs generalizing text with
  | nil => simpa [covers] using anyEnd_iff.2 ⟨text, [], (List.append_nil text).symm, rfl⟩
  | cons b bs ih =>
    cases text with
    | nil => rfl
    | cons a text => simp [covers, Piece.takes, ih, BEq.comm, List.isPrefixOf]

theorem isMatch_ofStart_bytes (start : String) (text : Bytes) :
    isMatch (Bytes.ofString (ofStart start)) text = (Bytes.ofString start).isPrefixOf text := by
  have pattern : Bytes.ofString (ofStart start) =
      (start.toList.flatMap escapeChar).flatMap String.utf8EncodeChar ++ [42] := by
    rw [Bytes.ofString_eq, ofStart, String.toList_ofList, List.flatMap_append]
    rfl
  rw [isMatch, parse, pattern, pieces_escaped _ (by simp), ← Bytes.ofString_eq, covers_start]

theorem isMatch_ofStart (start k : String) :
    isMatch (Bytes.ofString (ofStart start)) (Bytes.ofString k) = startsWith start k := by
  rw [isMatch_ofStart_bytes, Bool.eq_iff_iff, List.isPrefixOf_iff_prefix,
    Bytes.ofString_prefix_iff, startsWith_iff]

end HealthConsensus.Glob
