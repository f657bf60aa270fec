import HealthConsensus.Toml.Document
import Mathlib.Data.List.TakeDrop

namespace HealthConsensus.Toml

section Readers

variable {α β : Type} {cs : List Char}

@[simp] theorem bind_apply (x : Reader α) (f : α → Reader β) (cs : List Char) :
    (x >>= f) cs = (x cs).bind fun p => f p.1 p.2 := rfl

@[simp] theorem pure_apply (a : α) (cs : List Char) : (pure a : Reader α) cs = some (a, cs) := rfl

@[simp] theorem peek_cons (c : Char) (cs : List Char) : peek (c :: cs) = some (some c, c :: cs) :=
  rfl

@[simp] theorem skipChar_self (c : Char) (cs : List Char) : skipChar c (c :: cs) = some ((), cs) :=
  if_pos rfl

end Readers

inductive Written (c : Char) : List Char → Prop
  | plain : isPrintable c → c ≠ '"' → c ≠ '\\' → Written c [c]
  | escape (ws : List Char) : (∀ rest, escaped (ws ++ rest) = some (c, rest)) →
      Written c ('\\' :: ws)

inductive Spells : List Char → List Char → Prop
  | nil : Spells [] []
  | cons {c : Char} {cs ws vs : List Char} :
      Written c ws → Spells cs vs → Spells (c :: cs) (ws ++ vs)

variable {c : Char} {cs ws : List Char}

def numberOf (n : Nat) : List Char := (Nat.toDigits 16 n).leftpad 4 '0'

theorem hexValue?_numberOf_range : ∀ n < 128,
    (numberOf n).length = 4 ∧ hexValue? (numberOf n) = some n := by decide

theorem escaped_number {n : Nat} (h : n < 128) (rest : List Char) :
    escaped ('u' :: numberOf n ++ rest) = some (Char.ofNat n, rest) := by
  obtain ⟨width, value⟩ := hexValue?_numberOf_range n h
  have valid : n.isValidChar := .inl (by omega)
  have taken : (numberOf n ++ rest).take 4 = numberOf n := List.take_left' width
  have left : (numberOf n ++ rest).drop 4 = rest := List.drop_left' width
  have read : codePoint 4 (numberOf n ++ rest) = some (Char.ofNat n, rest) := by
    simp only [codePoint, taken, left, value, width, valid, decide_true, Bool.and_self, if_true]
  simpa [escaped] using read

theorem exists_written (c : Char) : ∃ ws, Written c ws := by
  by_cases quote : c = '"'
  · exact ⟨_, .escape ['"'] fun rest => by subst quote; rfl⟩
  by_cases backslash : c = '\\'
  · exact ⟨_, .escape ['\\'] fun rest => by subst backslash; rfl⟩
  by_cases printable : isPrintable c
  · exact ⟨_, .plain printable quote backslash⟩
  · have small : c.toNat < 128 := by
      apply Decidable.byContradiction
      intro large
      have space : ' ' ≤ c := by
        rw [Char.le_def, UInt32.le_iff_toNat_le]
        exact Nat.le_trans (by decide) (Nat.le_of_not_lt large)
      have other : c ≠ '\x7f' := by
        rintro rfl
        exact large (by decide)
      simp [isPrintable, space, other] at printable
    exact ⟨_, .escape ('u' :: numberOf c.toNat) fun rest => by
      rw [escaped_number small, Char.ofNat_toNat]⟩

theorem exists_spells (cs : List Char) : ∃ ws, Spells cs ws := by
  induction cs with
  | nil => exact ⟨[], .nil⟩
  | cons c cs ih =>
    obtain ⟨ws, written⟩ := exists_written c
    obtain ⟨vs, spelled⟩ := ih
    exact ⟨_, .cons written spelled⟩

theorem basicString_quote (fuel : Nat) (done rest : List Char) :
    basicString (fuel + 1) done ('"' :: rest) = some (String.ofList done.reverse, rest) := rfl

theorem basicString_written (written : Written c ws) (fuel : Nat) (done rest : List Char) :
    basicString (fuel + 1) done (ws ++ rest) = basicString fuel (c :: done) rest := by
  cases written with
  | plain printable quote backslash =>
    simp [basicString, printable]
  | escape ws read =>
    simp [basicString, read]

theorem basicString_spells {fuel : Nat} (spelled : Spells cs ws) (h : cs.length < fuel)
    (done rest : List Char) : basicString fuel done (ws ++ '"' :: rest) =
      some (String.ofList (done.reverse ++ cs), rest) := by
  induction spelled generalizing fuel done with
  | nil =>
    obtain ⟨fuel, rfl⟩ := Nat.exists_eq_add_one_of_ne_zero (Nat.ne_of_gt h)
    rw [List.append_nil]
    exact basicString_quote fuel done rest
  | cons written spelled ih =>
    obtain ⟨fuel, rfl⟩ := Nat.exists_eq_add_one_of_ne_zero (Nat.ne_of_gt (Nat.zero_lt_of_lt h))
    rw [List.append_assoc, basicString_written written, ih (Nat.lt_of_succ_lt_succ h)]
    simp

theorem Spells.length_le (spelled : Spells cs ws) : cs.length ≤ ws.length := by
  induction spelled with
  | nil => exact Nat.le_refl 0
  | cons written spelled ih =>
    have more : ∀ {c : Char} {ws : List Char}, Written c ws → 1 ≤ ws.length := by
      rintro c ws (_ | _) <;> simp
    have := more written
    rw [List.length_cons, List.length_append]
    omega

theorem string_spells {fuel : Nat} (spelled : Spells cs ws) (h : cs.length < fuel) :
    string fuel ('"' :: (ws ++ ['"'])) = some (String.ofList cs, []) := by
  have long : "\"\"\"".toList.isPrefixOf ('"' :: (ws ++ ['"'])) = false := by
    cases spelled with
    | nil => rfl
    | cons written spelled =>
      cases written with
      | plain printable quote backslash => simp [List.isPrefixOf, quote.symm]
      | escape ws read => rfl
  have longLiteral : "'''".toList.isPrefixOf ('"' :: (ws ++ ['"'])) = false := rfl
  have short : "\"".toList.isPrefixOf ('"' :: (ws ++ ['"'])) = true := rfl
  simp only [string, bind_apply, startsWith, long, longLiteral, short, Option.bind_some,
    Bool.false_eq_true, if_false, if_true, skipChar_self]
  exact basicString_spells spelled h [] []

theorem value_spells {fuel : Nat} (spelled : Spells cs ws) (h : cs.length ≤ fuel) :
    value (fuel + 1) ('"' :: (ws ++ ['"'])) = some (.text (String.ofList cs), []) := by
  have read := string_spells spelled (Nat.lt_succ_of_le h)
  simp only [value, bind_apply, peek_cons, Option.bind_some, read, pure_apply]

theorem ne_of_isBare {d : Char} (h : isBare c) (mark : isBare d = false) : c ≠ d := by
  rintro rfl
  rw [h] at mark
  cases mark

theorem skipSpaces_bare (h : isBare c) (cs : List Char) :
    skipSpaces (c :: cs) = some ((), c :: cs) := by
  have space := ne_of_isBare h (show isBare ' ' = false by decide)
  have tab := ne_of_isBare h (show isBare '\t' = false by decide)
  simp [skipSpaces, takeWhile, List.span, List.span.loop, isSpace, space, tab]

theorem skipBlankLines_bare (h : isBare c) (fuel : Nat) (cs : List Char) :
    skipBlankLines fuel (c :: cs) = some ((), c :: cs) := by
  have comment := ne_of_isBare h (show isBare '#' = false by decide)
  have feed := ne_of_isBare h (show isBare '\n' = false by decide)
  have carriage := ne_of_isBare h (show isBare '\r' = false by decide)
  cases fuel with
  | zero => rfl
  | succ fuel =>
    simp only [skipBlankLines, bind_apply, skipSpaces_bare h, skipComment, peek_cons,
      Option.bind_some, beq_iff_eq, Option.some.injEq, comment, if_false, pure_apply]
    generalize found : some c = o
    split
    · exact absurd (Option.some.inj found) feed
    · exact absurd (Option.some.inj found) carriage
    · rfl

theorem simpleKey_bare {d : Char} {word : List Char} (bare : ∀ e ∈ c :: word, isBare e)
    (ends : isBare d = false) (fuel : Nat) (rest : List Char) :
    simpleKey fuel (c :: (word ++ d :: rest)) = some (String.ofList (c :: word), d :: rest) := by
  have first := bare c List.mem_cons_self
  have quote := ne_of_isBare first (show isBare '"' = false by decide)
  have single := ne_of_isBare first (show isBare '\'' = false by decide)
  have taken : takeWhile isBare (c :: (word ++ d :: rest)) = some (c :: word, d :: rest) := by
    rw [← List.cons_append, takeWhile, List.span_eq_takeWhile_dropWhile,
      List.takeWhile_append_of_pos bare, List.dropWhile_append_of_pos bare]
    simp [ends]
  simp only [simpleKey, bind_apply, peek_cons, Option.bind_some]
  generalize found : some c = o
  split
  · exact absurd (Option.some.inj found) quote
  · exact absurd (Option.some.inj found) single
  · rw [bind_apply, taken]
    rfl

theorem key_bare {word : List Char} (bare : ∀ e ∈ c :: word, isBare e) (fuel : Nat)
    (rest : List Char) : key (fuel + 1) (c :: (word ++ ' ' :: '=' :: rest)) =
      some ([String.ofList (c :: word)], '=' :: rest) := by
  have skipped : skipSpaces (' ' :: '=' :: rest) = some ((), '=' :: rest) := rfl
  simp only [key, bind_apply, simpleKey_bare bare (show isBare ' ' = false by decide),
    Option.bind_some, skipped, peek_cons]
  rfl

theorem key_section {d : Char} {word rest rest' : List Char} {path : List String} {fuel : Nat}
    (bare : ∀ e ∈ c :: word, isBare e) (next : isBare d)
    (named : key fuel (d :: rest) = some (path, rest')) :
    key (fuel + 1) (c :: (word ++ '.' :: d :: rest)) =
      some (String.ofList (c :: word) :: path, rest') := by
  have dot : skipSpaces ('.' :: d :: rest) = some ((), '.' :: d :: rest) := rfl
  simp only [key, bind_apply, simpleKey_bare bare (show isBare '.' = false by decide),
    Option.bind_some, dot, peek_cons, beq_self_eq_true, if_true, skipChar_self,
    skipSpaces_bare next, named, pure_apply]

def IsWord (part : List Char) : Prop := part ≠ [] ∧ ∀ c ∈ part, isBare c

instance (part : List Char) : Decidable (IsWord part) :=
  decidable_of_iff (part ≠ [] ∧ part.all isBare = true) (by rw [List.all_eq_true, IsWord])

variable {part : List Char} {parts : List (List Char)} {es : Entries} {fuel : Nat}

theorem exists_bare_intercalate (words : ∀ p ∈ part :: parts, IsWord p) :
    ∃ c cs, isBare c ∧ ['.'].intercalate (part :: parts) = c :: cs := by
  obtain ⟨some_char, bare⟩ := words part List.mem_cons_self
  obtain ⟨c, word, rfl⟩ := List.exists_cons_of_ne_nil some_char
  cases parts with
  | nil => exact ⟨c, word, bare c List.mem_cons_self, List.intercalate_singleton⟩
  | cons next parts => exact ⟨c, _, bare c List.mem_cons_self, List.intercalate_cons_cons⟩

theorem key_dotted (words : ∀ p ∈ part :: parts, IsWord p) (h : parts.length < fuel)
    (rest : List Char) : key fuel (['.'].intercalate (part :: parts) ++ ' ' :: '=' :: rest) =
      some ((part :: parts).map String.ofList, '=' :: rest) := by
  obtain ⟨fuel, rfl⟩ := Nat.exists_eq_add_one_of_ne_zero (Nat.ne_of_gt (Nat.zero_lt_of_lt h))
  induction parts generalizing part fuel with
  | nil =>
    obtain ⟨some_char, bare⟩ := words part List.mem_cons_self
    obtain ⟨c, word, rfl⟩ := List.exists_cons_of_ne_nil some_char
    rw [List.intercalate_singleton, List.cons_append]
    exact key_bare bare fuel rest
  | cons next parts ih =>
    obtain ⟨some_char, bare⟩ := words part List.mem_cons_self
    obtain ⟨c, word, rfl⟩ := List.exists_cons_of_ne_nil some_char
    have later : ∀ p ∈ next :: parts, IsWord p := fun p hp => words p (List.mem_cons_of_mem _ hp)
    obtain ⟨d, ds, first, start⟩ := exists_bare_intercalate later
    have more : parts.length < fuel := Nat.lt_of_succ_lt_succ h
    obtain ⟨fuel, rfl⟩ :=
      Nat.exists_eq_add_one_of_ne_zero (Nat.ne_of_gt (Nat.zero_lt_of_lt more))
    have inner := ih later fuel more
    rw [start, List.cons_append] at inner
    rw [List.intercalate_cons_cons, start, List.append_assoc, List.append_assoc, List.cons_append]
    exact key_section bare first inner

def line (parts : List (List Char)) (ws : List Char) : List Char :=
  ['.'].intercalate parts ++ ' ' :: '=' :: ' ' :: '"' :: (ws ++ ['"'])

theorem keyValue_line (words : ∀ p ∈ part :: parts, IsWord p) (spelled : Spells cs ws)
    (added : addValue ((part :: parts).map String.ofList) (.text (String.ofList cs)) [] = some es)
    (h : parts.length ≤ fuel) (h' : cs.length ≤ fuel) :
    keyValue (fuel + 1) ⟨[], []⟩ (line (part :: parts) ws) = some (⟨es, []⟩, []) := by
  have named := key_dotted words (Nat.lt_succ_of_le h) (' ' :: '"' :: (ws ++ ['"']))
  have first (rest : List Char) : skipSpaces ('=' :: rest) = some ((), '=' :: rest) := rfl
  have second (rest : List Char) : skipSpaces (' ' :: '"' :: rest) = some ((), '"' :: rest) := rfl
  simp only [keyValue, line, bind_apply, named, Option.bind_some, first, skipChar_self, second,
    value_spells spelled h', modify, added]
  rfl

theorem document_line (words : ∀ p ∈ part :: parts, IsWord p) (spelled : Spells cs ws)
    (added : addValue ((part :: parts).map String.ofList) (.text (String.ofList cs)) [] = some es)
    (h : parts.length ≤ fuel + 1) (h' : cs.length ≤ fuel + 1) :
    document (fuel + 2) ⟨[], []⟩ (line (part :: parts) ws) = some (es, []) := by
  obtain ⟨c, rest, bare, start⟩ := exists_bare_intercalate words
  have bracket := ne_of_isBare bare (show isBare '[' = false by decide)
  have read := keyValue_line words spelled added h h'
  have ended : document (fuel + 1) ⟨es, []⟩ [] = some (es, []) := rfl
  rw [line, start, List.cons_append] at read ⊢
  simp only [document, bind_apply, skipBlankLines_bare bare, Option.bind_some, peek_cons, read]
  exact ended

theorem length_le_intercalate (words : ∀ p ∈ parts, IsWord p) :
    parts.length ≤ (['.'].intercalate parts).length := by
  induction parts with
  | nil => exact Nat.zero_le _
  | cons part parts ih =>
    have one := List.length_pos_iff.2 (words part List.mem_cons_self).1
    have more := ih fun p hp => words p (List.mem_cons_of_mem _ hp)
    cases parts with
    | nil => rwa [List.intercalate_singleton]
    | cons next parts =>
      rw [List.intercalate_cons_cons, List.length_append, List.length_append]
      rw [List.length_cons]
      omega

theorem parse?_line (words : ∀ p ∈ part :: parts, IsWord p) (spelled : Spells cs ws)
    (added : addValue ((part :: parts).map String.ofList) (.text (String.ofList cs)) [] = some es) :
    parse? (String.ofList (line (part :: parts) ws)) = some (entriesToValues es) := by
  obtain ⟨c, rest, bare, start⟩ := exists_bare_intercalate words
  have mark := ne_of_isBare bare (show isBare '\ufeff' = false by decide)
  have unmarked : withoutByteOrderMark (line (part :: parts) ws) = line (part :: parts) ws := by
    rw [line, start, List.cons_append, withoutByteOrderMark]
    intro cs same
    exact mark (List.cons.inj same).1
  have enough : (line (part :: parts) ws).length + 1 =
      (['.'].intercalate (part :: parts)).length + ws.length + 4 + 2 := by
    simp only [line, List.length_append, List.length_cons, List.length_nil]
    omega
  have names := length_le_intercalate words
  have chars := spelled.length_le
  rw [List.length_cons] at names
  have read := document_line words spelled added (show parts.length ≤
    (['.'].intercalate (part :: parts)).length + ws.length + 4 + 1 by omega) (by omega)
  simp only [parse?, String.toList_ofList, unmarked, enough, StateT.run]
  rw [read, Option.map_some]

end HealthConsensus.Toml
