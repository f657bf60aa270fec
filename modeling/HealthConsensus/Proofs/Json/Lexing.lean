import HealthConsensus.Json.Basic
import HealthConsensus.Proofs.Json.Numeral
import HealthConsensus.Proofs.Json.Quoted

namespace HealthConsensus

open Ascii

namespace Numeral

def Spells (x : Numeral) (bs : Bytes) : Prop :=
  x.Proper ∧ ∃ mark, (mark = 101 ∨ mark = 69) ∧ bs = x.spelling mark

end Numeral

namespace Quoted

inductive Body : Bytes → Prop
  | nil : Body []
  | plain {b : UInt8} {rest : Bytes} : b ≠ 34 → b ≠ 92 → 32 ≤ b → Body rest → Body (b :: rest)
  | short {b : UInt8} {rest : Bytes} : (shortEscape? b).isSome = true → Body rest →
      Body (92 :: b :: rest)
  | code {a b c d : UInt8} {rest : Bytes} : (codeUnit? a b c d).isSome = true → Body rest →
      Body (92 :: 117 :: a :: b :: c :: d :: rest)

theorem Written.body {b : UInt8} {ws rest : Bytes} (h : Written b ws) (body : Body rest) :
    Body (ws ++ rest) := by
  cases h with
  | plain quote backslash control => exact .plain quote backslash control body
  | short letter number named => exact .short (Option.isSome_of_eq_some named) body
  | number x y unit small => exact .code (Option.isSome_of_eq_some unit) body

theorem body_escape (bs : Bytes) : Body (escape bs) := by
  induction bs with
  | nil => exact .nil
  | cons b bs ih => exact (written_escapeByte b).body ih

end Quoted

namespace Json.Token

open Quoted

theorem stringOnto_body {raw : Bytes} (body : Body raw) (seen rest : Bytes) :
    stringOnto seen (raw ++ 34 :: rest) = some (seen.reverse ++ raw, rest) := by
  induction body generalizing seen with
  | nil => simp [stringOnto]
  | plain quote backslash control _ ih =>
    rw [List.cons_append, stringOnto, if_pos control, ih]
    · simp
    · rintro rfl
      exact absurd rfl quote
    · rintro _ _ _ _ _ rfl
      exact absurd rfl backslash
    · rintro _ _ rfl
      exact absurd rfl backslash
  | short known _ ih =>
    rw [List.cons_append, List.cons_append, stringOnto, if_pos known, ih]
    · simp
    · rintro _ _ _ _ _ rfl
      cases known
  | code known _ ih => simp [stringOnto, known, ih]

theorem body_of_stringOnto {seen bs raw rest : Bytes} (h : stringOnto seen bs = some (raw, rest)) :
    ∃ body, Body body ∧ raw = seen.reverse ++ body ∧ bs = body ++ 34 :: rest := by
  fun_induction stringOnto seen bs with
  | case1 => cases h
  | case2 seen rest' =>
    cases h
    exact ⟨[], .nil, by simp, rfl⟩
  | case3 seen a b c d rest' known ih =>
    obtain ⟨body, legal, rfl, rfl⟩ := ih h
    exact ⟨_, .code known legal, by simp, rfl⟩
  | case4 => cases h
  | case5 seen b rest' other known ih =>
    obtain ⟨body, legal, rfl, rfl⟩ := ih h
    exact ⟨_, .short known legal, by simp, rfl⟩
  | case6 => cases h
  | case7 seen b rest' quote code short control ih =>
    obtain ⟨body, legal, rfl, same⟩ := ih h
    refine ⟨b :: body, .plain quote (fun backslash => ?_) control legal, by simp, by rw [same]; rfl⟩
    -- a backslash at the very end leaves nothing to close the string
    cases rest' with
    | nil => cases h
    | cons c rest' => exact short c rest' backslash rfl
  | case8 => cases h

theorem digits?_sound {bs ds rest : Bytes} (h : digits? bs = some (ds, rest)) :
    AllDigits ds ∧ bs = ds ++ rest := by
  rw [digits?] at h
  split at h
  · cases h
  · next nonempty =>
    cases h
    have all := List.all_eq_true.1 (List.all_takeWhile : (bs.takeWhile isDigit).all isDigit = true)
    exact ⟨⟨nonempty, all⟩, List.takeWhile_append_dropWhile.symm⟩

theorem wholeDigits?_sound {bs ds rest : Bytes} (h : wholeDigits? bs = some (ds, rest)) :
    AllDigits ds ∧ (ds = [48] ∨ ds.head? ≠ some 48) ∧ bs = ds ++ rest := by
  rw [wholeDigits?] at h
  split at h
  · cases h
  · next short =>
    obtain ⟨digits, split⟩ := digits?_sound h
    refine ⟨digits, ?_, split⟩
    rcases ds with _ | ⟨d, _ | ⟨e, ds⟩⟩
    · exact absurd rfl digits.1
    · by_cases zero : d = 48
      · exact .inl (zero ▸ rfl)
      · exact .inr fun first => zero (Option.some.inj first)
    · refine .inr fun first => ?_
      obtain rfl := Option.some.inj first
      exact short e ds rest h

theorem fraction?_sound {bs rest : Bytes} {fraction : Option Bytes}
    (h : fraction? bs = some (fraction, rest)) :
    (∀ ds, fraction = some ds → AllDigits ds) ∧ bs = Numeral.fractionText fraction ++ rest := by
  unfold fraction? at h
  split at h
  · obtain ⟨⟨ds, rest'⟩, read, same⟩ := Option.map_eq_some_iff.1 h
    cases same
    obtain ⟨digits, rfl⟩ := digits?_sound read
    exact ⟨fun _ same => Option.some.inj same ▸ digits, rfl⟩
  · cases h
    exact ⟨nofun, rfl⟩

theorem exponentSign_sound (bs : Bytes) {sign : Option Bool} {rest : Bytes}
    (h : exponentSign bs = (sign, rest)) (ds : Bytes) (more : Bytes) (digits : rest = ds ++ more) :
    bs = (⟨sign, ds⟩ : Numeral.Exponent).signed ++ more := by
  subst digits
  unfold exponentSign at h
  split at h <;> cases h <;> rfl

theorem exponent?_sound {bs rest : Bytes} {exponent : Option Numeral.Exponent}
    (h : exponent? bs = some (exponent, rest)) :
    (∀ e, exponent = some e → AllDigits e.digits) ∧
      ∃ mark, (mark = 101 ∨ mark = 69) ∧ bs = Numeral.exponentText mark exponent ++ rest := by
  cases bs with
  | nil =>
    cases h
    exact ⟨nofun, 101, .inl rfl, rfl⟩
  | cons b bs =>
    rw [exponent?] at h
    split at h
    · next letter =>
      obtain ⟨⟨ds, rest'⟩, read, same⟩ := Option.map_eq_some_iff.1 h
      cases same
      obtain ⟨digits, split⟩ := digits?_sound read
      refine ⟨fun _ same => Option.some.inj same ▸ digits, b, by simpa using letter, ?_⟩
      exact congrArg (b :: ·) (exponentSign_sound bs rfl ds rest split)
    · cases h
      exact ⟨nofun, 101, .inl rfl, rfl⟩

theorem minus_sound (bs : Bytes) : bs = (if (minus bs).1 then [45] else []) ++ (minus bs).2 := by
  unfold minus
  split <;> rfl

theorem number?_sound {bs rest : Bytes} {x : Numeral} (h : number? bs = some (x, rest)) :
    ∃ sp, x.Spells sp ∧ bs = sp ++ rest := by
  obtain ⟨⟨whole, after⟩, readWhole, h⟩ := Option.bind_eq_some_iff.1 h
  obtain ⟨⟨fraction, last⟩, readFraction, h⟩ := Option.bind_eq_some_iff.1 h
  obtain ⟨⟨exponent, rest'⟩, readExponent, same⟩ := Option.bind_eq_some_iff.1 h
  cases same
  obtain ⟨digits, first, splitWhole⟩ := wholeDigits?_sound readWhole
  obtain ⟨fractionDigits, rfl⟩ := fraction?_sound readFraction
  obtain ⟨exponentDigits, mark, letter, rfl⟩ := exponent?_sound readExponent
  refine ⟨(⟨(minus bs).1, whole, fraction, exponent⟩ : Numeral).spelling mark,
    ⟨⟨digits, first, fractionDigits, exponentDigits⟩, mark, letter, rfl⟩, ?_⟩
  have signed := minus_sound bs
  have unsigned : (minus bs).2 = _ := splitWhole
  rw [unsigned] at signed
  simpa [Numeral.spelling] using signed

def Spells : Token → Bytes → Prop
  | beginArray, bs => bs = [91]
  | endArray, bs => bs = [93]
  | beginObject, bs => bs = [123]
  | endObject, bs => bs = [125]
  | colon, bs => bs = [58]
  | comma, bs => bs = [44]
  | null, bs => bs = Bytes.ofString "null"
  | bool true, bs => bs = Bytes.ofString "true"
  | bool false, bs => bs = Bytes.ofString "false"
  | number x, bs => x.Spells bs
  | string raw, bs => Body raw ∧ bs = quoted raw

def isNumber : Token → Bool
  | number _ => true
  | _ => false

theorem literal?_sound {word : String} {token token' : Token} {bs rest : Bytes}
    (h : literal? word token bs = some (token', rest)) :
    token' = token ∧ bs = Bytes.ofString word ++ rest := by
  obtain ⟨rest', after, same⟩ := Option.map_eq_some_iff.1 h
  cases same
  exact ⟨rfl, Bytes.after?_eq_some_iff.1 after⟩

theorem literal?_word {word : String} {token : Token} (rest : Bytes) :
    literal? word token (Bytes.ofString word ++ rest) = some (token, rest) := by
  rw [literal?, Bytes.after?_eq_some_iff.2 rfl]
  rfl

theorem scan?_sound {bs rest : Bytes} {token : Token} (h : scan? bs = some (token, rest)) :
    ∃ sp, token.Spells sp ∧ bs = sp ++ rest := by
  unfold scan? at h
  split at h
  case h_1 => cases h
  case h_8 =>
    obtain ⟨⟨raw, rest'⟩, read, same⟩ := Option.map_eq_some_iff.1 h
    cases same
    obtain ⟨body, legal, rfl, rfl⟩ := body_of_stringOnto read
    exact ⟨_, ⟨legal, rfl⟩, by simp [quoted]⟩
  case h_9 =>
    obtain ⟨rfl, split⟩ := literal?_sound h
    exact ⟨_, rfl, split⟩
  case h_10 =>
    obtain ⟨rfl, split⟩ := literal?_sound h
    exact ⟨_, rfl, split⟩
  case h_11 =>
    obtain ⟨rfl, split⟩ := literal?_sound h
    exact ⟨_, rfl, split⟩
  case h_12 =>
    obtain ⟨⟨x, rest'⟩, read, same⟩ := Option.map_eq_some_iff.1 h
    cases same
    exact number?_sound read
  all_goals
    cases h
    exact ⟨_, rfl, rfl⟩

theorem scan?_numeral {b : UInt8} (h : b = 45 ∨ isDigit b = true) (rest : Bytes) :
    scan? (b :: rest) = (number? (b :: rest)).map fun (x, rest) => (number x, rest) := by
  rw [scan?]
  · intro same
    cases same
  all_goals
    intro _ same
    cases same
    exact absurd h (by decide)

theorem isBlank_numeral {b : UInt8} (h : b = 45 ∨ isDigit b = true) : Ascii.isBlank b = false := by
  cases blank : Ascii.isBlank b with
  | false => rfl
  | true =>
    simp only [Ascii.isBlank, Bool.or_eq_true, beq_iff_eq] at blank
    rcases blank with ((rfl | rfl) | rfl) | rfl <;> exact absurd h (by decide)

theorem head_spelling {x : Numeral} (h : x.Proper) (mark : UInt8) :
    ∃ b tail, x.spelling mark = b :: tail ∧ (b = 45 ∨ isDigit b = true) := by
  obtain ⟨d, ds, whole⟩ := List.exists_cons_of_ne_nil h.whole.1
  rw [Numeral.spelling, whole]
  cases x.negative with
  | true => exact ⟨45, _, rfl, .inl rfl⟩
  | false => exact ⟨d, _, rfl, .inr (h.whole.2 d (whole ▸ List.mem_cons_self))⟩

theorem Spells.head {token : Token} {sp : Bytes} (h : token.Spells sp) :
    ∃ b tail, sp = b :: tail ∧ Ascii.isBlank b = false := by
  cases token with
  | number x =>
    obtain ⟨proper, mark, -, rfl⟩ := h
    obtain ⟨b, tail, head, first⟩ := head_spelling proper mark
    exact ⟨b, tail, head, isBlank_numeral first⟩
  | string raw =>
    obtain ⟨-, rfl⟩ := h
    exact ⟨34, _, rfl, rfl⟩
  | bool b =>
    cases b with
    | true => exact ⟨116, [114, 117, 101], h, rfl⟩
    | false => exact ⟨102, [97, 108, 115, 101], h, rfl⟩
  | null => exact ⟨110, [117, 108, 108], h, rfl⟩
  | _ => exact ⟨_, [], h, rfl⟩

theorem scan?_spells {token : Token} {sp rest : Bytes} (h : token.Spells sp)
    (ends : token.isNumber = true → EndsNumber rest) : scan? (sp ++ rest) = some (token, rest) := by
  cases token with
  | number x =>
    obtain ⟨proper, mark, letter, rfl⟩ := h
    obtain ⟨b, tail, head, first⟩ := head_spelling proper mark
    have read := number?_spelling proper letter (ends rfl)
    rw [head, List.cons_append] at read ⊢
    rw [scan?_numeral first, read]
    rfl
  | string raw =>
    obtain ⟨body, rfl⟩ := h
    have scanned := stringOnto_body body [] rest
    rw [List.reverse_nil, List.nil_append] at scanned
    simp [quoted, scan?, scanned]
  | bool b =>
    cases b with
    | true =>
      cases h
      exact literal?_word rest
    | false =>
      cases h
      exact literal?_word rest
  | null =>
    cases h
    exact literal?_word rest
  | _ =>
    cases h
    rfl

end Json.Token

end HealthConsensus
