import HealthConsensus.Store.Contents
import Mathlib.Data.List.Nodup

namespace HealthConsensus

theorem not_lt_of_isPrefix {p l : List Char} (h : p <+: l) : ¬l < p := by
  obtain ⟨rest, rfl⟩ := h
  induction p with
  | nil => exact List.not_lt_nil _
  | cons c p ih =>
    intro lt
    rcases List.cons_lt_cons_iff.1 lt with first | ⟨-, others⟩
    · exact Char.lt_irrefl c first
    · exact ih others

theorem isPrefix_of_between {p l m : List Char} (low : ¬l < p) (high : l < m) (h : p <+: m) :
    p <+: l := by
  induction p generalizing l m with
  | nil => exact List.nil_prefix
  | cons c p ih =>
    obtain ⟨rest, rfl⟩ := h
    cases l with
    | nil => exact absurd (List.nil_lt_cons c p) low
    | cons d l =>
      rcases List.cons_lt_cons_iff.1 high with first | ⟨rfl, others⟩
      · exact absurd (List.cons_lt_cons_iff.2 (.inl first)) low
      · have inner : ¬l < p := fun lt => low (List.cons_lt_cons_iff.2 (.inr ⟨rfl, lt⟩))
        exact List.cons_prefix_cons.2 ⟨rfl, ih inner others (List.prefix_append p rest)⟩

theorem startsWith_iff {start s : String} :
    startsWith start s = true ↔ start.toList <+: s.toList := List.isPrefixOf_iff_prefix

namespace Contents

variable {es : List (String × Bytes)} {c : Contents} {k k' start : String} {v w : Bytes}

theorem mem_cons_iff_of_absent (absent : ∀ y ∈ es, y.1 ≠ k) {x : String × Bytes} :
    x ∈ (k, v) :: es ↔ x = (k, v) ∨ x ∈ es ∧ x.1 ≠ k := by
  rw [List.mem_cons]
  constructor
  · rintro (rfl | hx)
    · exact .inl rfl
    · exact .inr ⟨hx, absent x hx⟩
  · rintro (rfl | ⟨hx, -⟩)
    · exact .inl rfl
    · exact .inr hx

theorem mem_insert_iff (h : es.Pairwise fun a b => a.1 < b.1) {x : String × Bytes} :
    x ∈ insert k v es ↔ x = (k, v) ∨ x ∈ es ∧ x.1 ≠ k := by
  induction es with
  | nil => simp [insert]
  | cons e es ih =>
    obtain ⟨first, others⟩ := List.pairwise_cons.1 h
    rw [insert]
    split
    · next before =>
      -- every key behind the new one is greater
      apply mem_cons_iff_of_absent
      intro y hy same
      rcases List.mem_cons.1 hy with rfl | hy
      · exact String.lt_irrefl _ (same ▸ before)
      · exact String.lt_irrefl _ (String.lt_trans before (same ▸ first y hy))
    · next after =>
      split
      · next same =>
        subst same
        have later : ∀ y ∈ es, y.1 ≠ e.1 := fun y hy eq => String.lt_irrefl _ (eq ▸ first y hy)
        rw [mem_cons_iff_of_absent later, List.mem_cons]
        apply or_congr_right
        constructor
        · rintro ⟨hx, other⟩
          exact ⟨.inr hx, other⟩
        · rintro ⟨rfl | hx, other⟩
          · exact absurd rfl other
          · exact ⟨hx, other⟩
      · next other =>
        rw [List.mem_cons, ih others, List.mem_cons]
        constructor
        · rintro (rfl | rfl | ⟨hx, ne⟩)
          · exact .inr ⟨.inl rfl, fun eq => other eq.symm⟩
          · exact .inl rfl
          · exact .inr ⟨.inr hx, ne⟩
        · rintro (rfl | ⟨rfl | hx, ne⟩)
          · exact .inr (.inl rfl)
          · exact .inl rfl
          · exact .inr (.inr ⟨hx, ne⟩)

theorem nodup_of_ascending (h : es.Pairwise fun a b => a.1 < b.1) : es.Nodup :=
  List.Pairwise.imp (fun {a b} less (same : a = b) => String.lt_irrefl _ (same ▸ less)) h

theorem eq_of_ascending {fs : List (String × Bytes)} (he : es.Pairwise fun a b => a.1 < b.1)
    (hf : fs.Pairwise fun a b => a.1 < b.1) (same : ∀ e, e ∈ es ↔ e ∈ fs) : es = fs := by
  have perm := (List.perm_ext_iff_of_nodup (nodup_of_ascending he) (nodup_of_ascending hf)).2 same
  refine perm.eq_of_pairwise (fun a b _ _ less more => ?_) he hf
  exact absurd (String.lt_trans less more) (String.lt_irrefl _)

theorem get?_eq_some_iff : c.get? k = some v ↔ (k, v) ∈ c.entries := by
  obtain ⟨es, sorted⟩ := c
  simp only [get?]
  induction es with
  | nil => simp
  | cons e es ih =>
    obtain ⟨first, others⟩ := List.pairwise_cons.1 sorted
    by_cases same : e.1 = k
    · subst same
      have absent : (e.1, v) ∉ es := fun hm => String.lt_irrefl _ (first (e.1, v) hm)
      simp [absent, Prod.ext_iff, eq_comm]
    · have other : (k, v) ≠ e := fun eq => same (eq ▸ rfl)
      simp [same, other, ih others]

theorem get?_set : (c.set k v).get? k' = if k' = k then some v else c.get? k' := by
  apply Option.ext
  intro w
  rw [get?_eq_some_iff, set, mem_insert_iff c.sorted]
  by_cases same : k' = k
  · subst same
    simp [eq_comm]
  · simp [same, get?_eq_some_iff]

theorem get?_erase : (c.erase k).get? k' = if k' = k then none else c.get? k' := by
  apply Option.ext
  intro w
  rw [get?_eq_some_iff, erase, List.mem_filter]
  by_cases same : k' = k
  · simp [same]
  · simp [same, get?_eq_some_iff]

theorem takeWhile_eq_filter (h : es.Pairwise fun a b => a.1 < b.1)
    (low : ∀ e ∈ es, ¬e.1 < start) :
    (es.takeWhile fun e => startsWith start e.1) = es.filter fun e => startsWith start e.1 := by
  induction es with
  | nil => rfl
  | cons e es ih =>
    obtain ⟨first, others⟩ := List.pairwise_cons.1 h
    cases starts : startsWith start e.1 with
    | true =>
      have same := ih others fun x hx => low x (List.mem_cons_of_mem e hx)
      simp only [List.takeWhile_cons, List.filter_cons, starts, if_true, same]
    | false =>
      have none : ∀ x ∈ es, ¬startsWith start x.1 = true := by
        intro x hx later
        have here := isPrefix_of_between (low e List.mem_cons_self) (first x hx)
          (startsWith_iff.1 later)
        rw [startsWith_iff.2 here] at starts
        cases starts
      rw [List.takeWhile_cons_of_neg (by simp [starts]), List.filter_cons_of_neg (by simp [starts]),
        List.filter_eq_nil_iff.2 none]

theorem scan_eq_filter (h : es.Pairwise fun a b => a.1 < b.1) :
    ((es.dropWhile fun e => e.1 < start).takeWhile fun e => startsWith start e.1) =
      es.filter fun e => startsWith start e.1 := by
  induction es with
  | nil => rfl
  | cons e es ih =>
    obtain ⟨first, others⟩ := List.pairwise_cons.1 h
    by_cases below : e.1 < start
    · have outside : startsWith start e.1 = false := by
        refine Bool.eq_false_iff.2 fun starts => ?_
        exact not_lt_of_isPrefix (startsWith_iff.1 starts) below
      rw [List.dropWhile_cons_of_pos (by simpa using below)]
      simp only [List.filter_cons, outside, Bool.false_eq_true, if_false]
      exact ih others
    · rw [List.dropWhile_cons_of_neg (by simpa using below)]
      refine takeWhile_eq_filter h fun x hx => ?_
      rcases List.mem_cons.1 hx with rfl | hx
      · exact below
      · exact fun lt => below (String.lt_trans (first x hx) lt)

theorem under_eq_filter (start : String) (c : Contents) :
    c.under start = c.entries.filter fun e => startsWith start e.1 := scan_eq_filter c.sorted

theorem mem_under_iff : (k, v) ∈ c.under start ↔ c.get? k = some v ∧ startsWith start k = true := by
  rw [under_eq_filter, List.mem_filter, get?_eq_some_iff]

end Contents

end HealthConsensus
