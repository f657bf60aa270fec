import HealthConsensus.Proofs.Store.Glob

namespace HealthConsensus.Glob

/-- The items of a class from behind its opening on, and what follows the class. A class that
nothing closes ends with the pattern. -/
inductive Lists : Bytes → List ClassItem → Bytes → Prop
  | ended : Lists [] [] []
  | closed (rest : Bytes) : Lists (93 :: rest) [] rest
  | quoted (c : UInt8) {bs rest : Bytes} {items : List ClassItem} (later : Lists bs items rest) :
    Lists (92 :: c :: bs) (.one c :: items) rest
  | range {low : UInt8} (high : UInt8) {bs rest : Bytes} {items : List ClassItem}
    (opens : low ≠ 93) (bare : low ≠ 92) (later : Lists bs items rest) :
    Lists (low :: 45 :: high :: bs) (.range low high :: items) rest
  | one {c : UInt8} {bs rest : Bytes} {items : List ClassItem} (opens : c ≠ 93)
    (bare : c = 92 → bs = []) (alone : ∀ high more, bs ≠ 45 :: high :: more)
    (later : Lists bs items rest) : Lists (c :: bs) (.one c :: items) rest

inductive Begins : Bytes → Piece → Bytes → Prop
  | star (rest : Bytes) : Begins (42 :: rest) .anyRun rest
  | mark (rest : Bytes) : Begins (63 :: rest) .anyByte rest
  | among {body rest : Bytes} {items : List ClassItem} (positive : ∀ more, body ≠ 94 :: more)
    (lists : Lists body items rest) : Begins (91 :: body) (.inClass false items) rest
  | outside {body rest : Bytes} {items : List ClassItem} (lists : Lists body items rest) :
    Begins (91 :: 94 :: body) (.inClass true items) rest
  | quoted (c : UInt8) (rest : Bytes) : Begins (92 :: c :: rest) (.literal c) rest
  | itself {c : UInt8} {rest : Bytes} (star : c ≠ 42) (mark : c ≠ 63) (bracket : c ≠ 91)
    (bare : c = 92 → rest = []) : Begins (c :: rest) (.literal c) rest

inductive Fits : Bytes → Bytes → Prop
  | done : Fits [] []
  | run {pattern rest text : Bytes} (skipped : Bytes) (begins : Begins pattern .anyRun rest)
    (later : Fits rest text) : Fits pattern (skipped ++ text)
  | byte {pattern rest text : Bytes} {piece : Piece} {b : UInt8}
    (begins : Begins pattern piece rest) (takes : piece.takes b = true) (later : Fits rest text) :
    Fits pattern (b :: text)

variable {pattern rest text body bs : Bytes} {piece : Piece} {items : List ClassItem} {fuel : Nat}

theorem Lists.length_le (lists : Lists bs items rest) : rest.length ≤ bs.length := by
  induction lists with
  | ended => exact Nat.le_refl 0
  | _ => simp only [List.length_cons]; omega

theorem Begins.length_lt (begins : Begins pattern piece rest) : rest.length < pattern.length := by
  cases begins with
  | among _ lists | outside lists =>
    have := lists.length_le
    simp only [List.length_cons]
    omega
  | _ => simp only [List.length_cons]; omega

theorem Begins.exists_left (begins : Begins pattern piece rest) (enough : pattern.length ≤ fuel) :
    ∃ left, fuel = left + 1 ∧ rest.length ≤ left := by
  have shorter := begins.length_lt
  exact ⟨fuel - 1, by omega, by omega⟩

theorem exists_lists (bs : Bytes) : ∃ items rest, Lists bs items rest := by
  match bs with
  | [] => exact ⟨[], [], .ended⟩
  | c :: bs =>
    by_cases closes : c = 93
    · subst closes
      exact ⟨[], bs, .closed bs⟩
    by_cases bare : c = 92 → bs = []
    · by_cases range : ∃ high more, bs = 45 :: high :: more
      · obtain ⟨high, more, rfl⟩ := range
        obtain ⟨items, rest, later⟩ := exists_lists more
        exact ⟨_, rest, .range high closes (fun quotes => nomatch bare quotes) later⟩
      · obtain ⟨items, rest, later⟩ := exists_lists bs
        exact ⟨_, rest, .one closes bare (fun high more same => range ⟨high, more, same⟩) later⟩
    · obtain ⟨rfl, more⟩ := Classical.not_imp.1 bare
      obtain ⟨d, bs, rfl⟩ := List.exists_cons_of_ne_nil more
      obtain ⟨items, rest, later⟩ := exists_lists bs
      exact ⟨_, rest, .quoted d later⟩
termination_by bs.length

theorem exists_begins (c : UInt8) (bs : Bytes) : ∃ piece rest, Begins (c :: bs) piece rest := by
  by_cases star : c = 42
  · subst star
    exact ⟨_, bs, .star bs⟩
  by_cases mark : c = 63
  · subst mark
    exact ⟨_, bs, .mark bs⟩
  by_cases bracket : c = 91
  · subst bracket
    by_cases negated : ∃ more, bs = 94 :: more
    · obtain ⟨more, rfl⟩ := negated
      obtain ⟨items, rest, lists⟩ := exists_lists more
      exact ⟨_, rest, .outside lists⟩
    · obtain ⟨items, rest, lists⟩ := exists_lists bs
      exact ⟨_, rest, .among (fun more same => negated ⟨more, same⟩) lists⟩
  by_cases bare : c = 92 → bs = []
  · exact ⟨_, bs, .itself star mark bracket bare⟩
  · obtain ⟨rfl, more⟩ := Classical.not_imp.1 bare
    obtain ⟨d, rest, rfl⟩ := List.exists_cons_of_ne_nil more
    exact ⟨_, rest, .quoted d rest⟩

theorem classItems_quoted (c : UInt8) (fuel : Nat) (bs : Bytes) :
    classItems (fuel + 1) (92 :: c :: bs) =
      (.one c :: (classItems fuel bs).1, (classItems fuel bs).2) := rfl

theorem classItems_range {low : UInt8} (opens : low ≠ 93) (bare : low ≠ 92) (high : UInt8)
    (fuel : Nat) (bs : Bytes) : classItems (fuel + 1) (low :: 45 :: high :: bs) =
      (.range low high :: (classItems fuel bs).1, (classItems fuel bs).2) := by
  rw [classItems, if_neg (by simpa using opens)]
  exact bare

theorem classItems_one {c : UInt8} (opens : c ≠ 93) (bare : c = 92 → bs = [])
    (alone : ∀ high more, bs ≠ 45 :: high :: more) (fuel : Nat) :
    classItems (fuel + 1) (c :: bs) =
      (.one c :: (classItems fuel bs).1, (classItems fuel bs).2) := by
  rw [classItems, if_neg (by simpa using opens)]
  · exact alone
  · intro d more quotes same
    cases (bare quotes).symm.trans same

theorem classItems_of_lists (lists : Lists bs items rest) (enough : bs.length ≤ fuel) :
    classItems fuel bs = (items, rest) := by
  induction lists generalizing fuel with
  | ended => cases fuel <;> rfl
  | closed rest =>
    obtain ⟨more, rfl⟩ := Nat.exists_eq_add_of_lt enough
    rfl
  | quoted c later ih =>
    obtain ⟨more, rfl⟩ := Nat.exists_eq_add_of_lt enough
    rw [classItems_quoted, ih (by rw [List.length_cons]; omega)]
  | range high opens bare later ih =>
    obtain ⟨more, rfl⟩ := Nat.exists_eq_add_of_lt enough
    rw [classItems_range opens bare, ih (by simp only [List.length_cons]; omega)]
  | one opens bare alone later ih =>
    obtain ⟨more, rfl⟩ := Nat.exists_eq_add_of_lt enough
    rw [classItems_one opens bare alone, ih (Nat.le_add_right _ _)]

theorem pieces_outside (body : Bytes) (fuel : Nat) : pieces (fuel + 1) (91 :: 94 :: body) =
    .inClass true (classItems fuel body).1 :: pieces fuel (classItems fuel body).2 := rfl

theorem pieces_class (body : Bytes) (fuel : Nat) : pieces (fuel + 1) (91 :: body) =
    let (negated, bs) : Bool × Bytes := match body with
      | 94 :: rest => (true, rest)
      | rest => (false, rest)
    .inClass negated (classItems fuel bs).1 :: pieces fuel (classItems fuel bs).2 := rfl

theorem pieces_among (positive : ∀ more, body ≠ 94 :: more) (fuel : Nat) :
    pieces (fuel + 1) (91 :: body) =
      .inClass false (classItems fuel body).1 :: pieces fuel (classItems fuel body).2 := by
  rw [pieces_class]
  split
  next opening =>
    split at opening
    · exact absurd rfl (positive _)
    · cases opening
      rfl

theorem pieces_of_begins (begins : Begins pattern piece rest)
    (enough : pattern.length ≤ fuel + 1) :
    pieces (fuel + 1) pattern = piece :: pieces fuel rest := by
  cases begins with
  | star | mark | quoted => rfl
  | among positive lists =>
    rw [pieces_among positive, classItems_of_lists lists (Nat.le_of_succ_le_succ enough)]
  | @outside body _ _ lists =>
    have all : body.length ≤ fuel := Nat.le_of_succ_le (Nat.le_of_succ_le_succ enough)
    rw [pieces_outside, classItems_of_lists lists all]
  | @itself c _ star mark bracket bare =>
    by_cases backslash : c = 92
    · cases bare backslash
      cases backslash
      rfl
    · exact pieces_plain ⟨star, mark, bracket, backslash⟩ fuel rest

theorem covers_cons_iff {ps : List Piece} : covers (piece :: ps) text = true ↔
    (piece = .anyRun ∧ ∃ skipped rest, text = skipped ++ rest ∧ covers ps rest = true) ∨
      ∃ b rest, text = b :: rest ∧ piece.takes b = true ∧ covers ps rest = true := by
  cases piece with
  | anyRun => simp [covers, anyEnd_iff, Piece.takes]
  | anyByte | literal | inClass => cases text <;> simp [covers]

theorem fits_of_covers (enough : pattern.length ≤ fuel)
    (covered : covers (pieces fuel pattern) text = true) : Fits pattern text := by
  -- over the fuel and not over the pattern, since a piece may be read off many bytes
  induction fuel generalizing pattern text with
  | zero =>
    cases List.eq_nil_of_length_eq_zero (Nat.le_zero.1 enough)
    cases List.isEmpty_iff.1 covered
    exact .done
  | succ fuel ih =>
    cases pattern with
    | nil =>
      cases List.isEmpty_iff.1 covered
      exact .done
    | cons c bs =>
      obtain ⟨piece, rest, begins⟩ := exists_begins c bs
      have room : rest.length ≤ fuel :=
        Nat.le_of_lt_succ (Nat.lt_of_lt_of_le begins.length_lt enough)
      rw [pieces_of_begins begins enough, covers_cons_iff] at covered
      rcases covered with ⟨rfl, skipped, later, rfl, covered⟩ | ⟨b, later, rfl, takes, covered⟩
      · exact .run skipped begins (ih room covered)
      · exact .byte begins takes (ih room covered)

theorem covers_of_fits (fits : Fits pattern text) (enough : pattern.length ≤ fuel) :
    covers (pieces fuel pattern) text = true := by
  induction fits generalizing fuel with
  | done => cases fuel <;> rfl
  | run skipped begins later ih =>
    obtain ⟨left, rfl, room⟩ := begins.exists_left enough
    rw [pieces_of_begins begins enough, covers_cons_iff]
    exact .inl ⟨rfl, skipped, _, rfl, ih room⟩
  | byte begins takes later ih =>
    obtain ⟨left, rfl, room⟩ := begins.exists_left enough
    rw [pieces_of_begins begins enough, covers_cons_iff]
    exact .inr ⟨_, _, rfl, takes, ih room⟩

theorem isMatch_iff_fits : isMatch pattern text = true ↔ Fits pattern text :=
  ⟨fits_of_covers (Nat.le_refl _), fun fits => covers_of_fits fits (Nat.le_refl _)⟩

instance (pattern text : Bytes) : Decidable (Fits pattern text) :=
  decidable_of_iff _ isMatch_iff_fits

/-- A text fits the pattern made of a start exactly if it begins with the start, be it judged by the
rules or by the matcher, and by its bytes or by its characters. -/
theorem ofStart_exact (start : String) :
    (∀ text : Bytes, Fits (Bytes.ofString (ofStart start)) text ↔ Bytes.ofString start <+: text) ∧
      ∀ k : String,
        (Fits (Bytes.ofString (ofStart start)) (Bytes.ofString k) ↔ start.toList <+: k.toList) ∧
        (isMatch (Bytes.ofString (ofStart start)) (Bytes.ofString k) = true ↔
          start.toList <+: k.toList) := by
  have bytes (text : Bytes) :
      Fits (Bytes.ofString (ofStart start)) text ↔ Bytes.ofString start <+: text := by
    rw [← isMatch_iff_fits, isMatch_ofStart_bytes, List.isPrefixOf_iff_prefix]
  refine ⟨bytes, fun k => ⟨?_, ?_⟩⟩
  · rw [bytes, Bytes.ofString_prefix_iff]
  · rw [isMatch_iff_fits, bytes, Bytes.ofString_prefix_iff]

example :
    let pattern := Bytes.ofString (ofStart "a*[é-z]?\\")
    Fits pattern (Bytes.ofString "a*[é-z]?\\*") ∧
      ¬Fits pattern (Bytes.ofString "ab[é-z]?\\*") ∧ ¬Fits pattern (Bytes.ofString "a*[é-z]?") := by
  decide +kernel

end HealthConsensus.Glob
