import HealthConsensus.Proofs.Number.Literal
import HealthConsensus.Proofs.Settings.ClusterKey
import HealthConsensus.Proofs.Settings.Trees

namespace HealthConsensus

open SettingValue

theorem splitOn_eq {α : Type} [DecidableEq α] (separator : α) (xs : List α) :
    splitOn separator xs = xs.splitOn separator := by
  induction xs with
  | nil => rfl
  | cons x xs ih =>
    rw [splitOn, List.splitOn_cons_eq_if_modifyHead, ih]
    by_cases same : x = separator
    · rw [if_pos same, if_pos (beq_iff_eq.2 same)]
    · rw [if_neg same, if_neg fun h => same (beq_iff_eq.1 h)]
      cases parts : xs.splitOn separator with
      | nil => exact absurd parts (List.splitOnP_ne_nil _ xs)
      | cons part parts => rfl

namespace Environment

variable {text : String} {w : SettingValue}

def scalar? (text : String) : Option SettingValue :=
  if Ascii.lower text = "true" then some (.flag true)
  else if Ascii.lower text = "false" then some (.flag false)
  else
    match (Literal.int? text).filter fitsInt64 with
    | some n => some (.whole n)
    | none => (Literal.float? text).map .real

def reading (text : String) : String := ((scalar? text).bind toText?).getD text

theorem valueOf_eq (name text : String) : valueOf name text = (scalar? text).getD
    (if name = listName then .list ((splitOn ',' text.toList).map fun part => .text (.ofList part))
      else .text text) := by
  unfold valueOf scalar?
  by_cases yes : Ascii.lower text = "true"
  · rw [if_pos yes, if_pos yes]
    rfl
  rw [if_neg yes, if_neg yes]
  by_cases no : Ascii.lower text = "false"
  · rw [if_pos no, if_pos no]
    rfl
  rw [if_neg no, if_neg no]
  cases (Literal.int? text).filter fitsInt64 with
  | some n => rfl
  | none => cases Literal.float? text <;> rfl

theorem valueOf_of_scalar? (h : scalar? text = some w) (name : String) : valueOf name text = w := by
  rw [valueOf_eq, h]
  rfl

theorem valueOf_of_none (h : scalar? text = none) (name : String) : valueOf name text =
    if name = listName then .list ((splitOn ',' text.toList).map fun part => .text (.ofList part))
    else .text text := by
  rw [valueOf_eq, h]
  rfl

theorem scalar?_reads (h : scalar? text = some w) :
    w.IsLeaf ∧ w.toTexts? = none ∧ ∃ t, w.toText? = some t := by
  unfold scalar? at h
  split at h
  · cases h
    exact ⟨fun _ => (nomatch ·), rfl, _, rfl⟩
  · split at h
    · cases h
      exact ⟨fun _ => (nomatch ·), rfl, _, rfl⟩
    · split at h
      · cases h
        exact ⟨fun _ => (nomatch ·), rfl, _, rfl⟩
      · obtain ⟨x, -, rfl⟩ := Option.map_eq_some_iff.1 h
        exact ⟨fun _ => (nomatch ·), rfl, _, rfl⟩

theorem isLeaf_valueOf (name text : String) : (valueOf name text).IsLeaf := by
  cases found : scalar? text with
  | some w =>
    rw [valueOf_of_scalar? found]
    exact (scalar?_reads found).1
  | none =>
    rw [valueOf_of_none found]
    split <;> exact fun _ => (nomatch ·)

theorem reading_of_none (h : scalar? text = none) : reading text = text := by
  rw [reading, h]
  rfl

theorem reading_of_scalar? {t : String} (h : scalar? text = some w) (read : w.toText? = some t) :
    reading text = t := by
  rw [reading, h, Option.bind_some, read]
  rfl

theorem reading_eq_self_iff :
    reading text = text ↔ ∀ w, scalar? text = some w → w.toText? = some text := by
  cases found : scalar? text with
  | none => simp [reading_of_none found]
  | some w =>
    obtain ⟨-, -, t, read⟩ := scalar?_reads found
    simp [reading_of_scalar? found read, read]

theorem valueOf_readsAlike {name : String} (other : name ≠ listName) (text : String) :
    ReadsAlike (valueOf name text) (.text (reading text)) := by
  cases found : scalar? text with
  | none =>
    rw [valueOf_of_none found, if_neg other, reading_of_none found]
    exact ⟨isLeaf_text text, isLeaf_text text, rfl, rfl⟩
  | some w =>
    obtain ⟨leaf, texts, t, read⟩ := scalar?_reads found
    rw [valueOf_of_scalar? found, reading_of_scalar? found read]
    exact ⟨leaf, isLeaf_text t, read, texts⟩

theorem numeral_of_scalar? (h : scalar? text = some w) :
    ∀ c ∈ text.toList, Literal.isNumeral c := by
  unfold scalar? at h
  split at h
  · next yes => exact Literal.numeral_of_word yes (by decide)
  · split at h
    · next no => exact Literal.numeral_of_word no (by decide)
    · split at h
      · next found => exact Literal.numeral_of_int? (Option.filter_eq_some_iff.1 found).1
      · obtain ⟨x, real, -⟩ := Option.map_eq_some_iff.1 h
        exact Literal.numeral_of_float? real

theorem scalar?_of_other_char {c : Char} (hc : c ∈ text.toList) (other : ¬ Literal.isNumeral c) :
    scalar? text = none := by
  cases found : scalar? text with
  | none => rfl
  | some w => exact absurd (numeral_of_scalar? found c hc) other

theorem valueOf_tokens {ts : List String} (some_token : ts ≠ []) (apart : ∀ t ∈ ts, ',' ∉ t.toList)
    (h : scalar? (",".intercalate ts) = none) :
    valueOf listName (",".intercalate ts) = .list (ts.map .text) := by
  have parts : ∀ cs ∈ ts.map String.toList, ',' ∉ cs := by
    rintro cs hcs
    obtain ⟨t, ht, rfl⟩ := List.mem_map.1 hcs
    exact apart t ht
  have comma : ",".toList = [','] := rfl
  rw [valueOf_of_none h, if_pos rfl, splitOn_eq, String.toList_intercalate, comma,
    List.splitOn_intercalate ',' parts (by simpa using some_token), List.map_map]
  simp

theorem toTexts?_list (ts : List String) :
    toTexts? (.list (ts.map .text)) = some ts := by
  rw [toTexts?]
  induction ts with
  | nil => rfl
  | cons t ts ih =>
    rw [List.map_cons, List.mapM_cons, ih]
    rfl

theorem comma_mem_tokens (t u : String) (ts : List String) :
    ',' ∈ (",".intercalate (t :: u :: ts)).toList := by
  rw [String.toList_intercalate, List.map_cons, List.map_cons, List.intercalate_cons_cons]
  simp

theorem scalar?_tokens {ts : List String} (some_token : ts ≠ [])
    (single : ∀ t, ts = [t] → scalar? t = none) : scalar? (",".intercalate ts) = none := by
  match ts with
  | [] => exact absurd rfl some_token
  | [t] =>
    rw [show ",".intercalate [t] = t from rfl]
    exact single t rfl
  | t :: u :: ts =>
    exact scalar?_of_other_char (comma_mem_tokens t u ts) (by decide)

theorem mem_of_mem_trimBlanks {c : Char} (h : c ∈ (trimBlanks text).toList) : c ∈ text.toList := by
  rw [trimBlanks, String.toList_ofList, List.mem_reverse] at h
  have inner := (List.dropWhile_sublist isBlank).subset h
  exact (List.dropWhile_sublist isBlank).subset (List.mem_reverse.1 inner)

theorem scalar?_of_key {g : GossipSettings} {k : Bytes} (h : g.key = .ok k) :
    scalar? g.encryptionKey = none := by
  obtain ⟨length, same⟩ := GossipSettings.key_eq_ok_iff.1 h
  have padded := Base64.equals_mem_text (show k.length % 3 ≠ 0 by rw [length]; decide)
  rw [← same] at padded
  exact scalar?_of_other_char (mem_of_mem_trimBlanks padded) (by decide)

end Environment

end HealthConsensus
