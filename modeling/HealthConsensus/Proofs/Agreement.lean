import HealthConsensus.Proofs.Moves
import Mathlib.Data.List.Nodup

namespace HealthConsensus

theorem mergeSort_eq_of_perm {α : Type} {le : α → α → Bool} {xs ys : List α} (perm : xs.Perm ys)
    (trans : ∀ a b c, le a b = true → le b c = true → le a c = true)
    (total : ∀ a b, (le a b || le b a) = true)
    (antisymm : ∀ a ∈ xs, ∀ b ∈ xs, le a b = true → le b a = true → a = b) :
    xs.mergeSort le = ys.mergeSort le := by
  have sorted := List.pairwise_mergeSort trans total
  have same : (xs.mergeSort le).Perm (ys.mergeSort le) :=
    (List.mergeSort_perm xs le).trans (perm.trans (List.mergeSort_perm ys le).symm)
  refine List.Perm.eq_of_pairwise (fun a b ha hb => ?_) (sorted xs) (sorted ys) same
  exact antisymm a (List.mem_mergeSort.1 ha) b (perm.mem_iff.2 (List.mem_mergeSort.1 hb))

namespace Table

variable {κ ν : Type} [DecidableEq κ] {t t' : Table κ ν}

theorem entries_perm (same : t.view = t'.view) : t.entries.Perm t'.entries := by
  refine (List.perm_ext_iff_of_nodup (t.distinct.of_map _) (t'.distinct.of_map _)).2 fun e => ?_
  rw [← get?_eq_some_iff, ← get?_eq_some_iff]
  exact iff_of_eq (congrArg (· = some e.2) (congrFun same e.1))

theorem values_perm (same : t.view = t'.view) : t.values.Perm t'.values :=
  (entries_perm same).map Prod.snd

theorem size_eq (same : t.view = t'.view) : t.size = t'.size := (entries_perm same).length_eq

end Table

namespace Effects

def about (k : BackendKey) (e : Effects) : List StatusChange :=
  e.changes.filter fun c => c.backend.key = k

@[simp] theorem about_none (k : BackendKey) : Effects.none.about k = [] := rfl

@[simp] theorem about_append (k : BackendKey) (d e : Effects) :
    (d ++ e).about k = d.about k ++ e.about k := by simp [about]

end Effects

namespace Operation

variable {σ τ α β : Type}

structure Agree (S : σ → σ → Prop) (o o' : Outcome σ α) : Prop where
  result : o.result = o'.result
  state : S o.state o'.state
  news : ∀ k, o.effects.about k = o'.effects.about k

def Respects (S : σ → σ → Prop) (a : Operation σ α) : Prop := ∀ s s', S s s' → Agree S (a s) (a s')

variable {S : σ → σ → Prop} {a : Operation σ α} {f : α → Operation σ β}

theorem respects_pure (x : α) : Respects S (pure x : Operation σ α) := fun _ _ h =>
  ⟨rfl, h, fun _ => rfl⟩

theorem respects_effect (e : Effects) : Respects S (effect e) := fun _ _ h =>
  ⟨rfl, h, fun _ => rfl⟩

theorem respects_log (l : LogLine) : Respects S (log l) := respects_effect _

theorem respects_write (w : RecordWrite) : Respects S (write w) := respects_effect _

theorem Respects.bind (h : Respects S a) (hf : ∀ x, Respects S (f x)) : Respects S (a >>= f) := by
  intro s s' similar
  have first := h s s' similar
  obtain ⟨result, state, news⟩ := hf (a s).result _ _ first.state
  rw [bind_apply, bind_apply, ← first.result]
  refine ⟨result, state, fun k => ?_⟩
  rw [Effects.about_append, Effects.about_append, first.news, news]

theorem Respects.reply (h : Respects S a) (f : α → β) :
    Respects S (do return f (← a) : Operation σ β) :=
  h.bind fun x => respects_pure (f x)

theorem agree_read {f : σ → Operation σ α} {s s' : σ} (h : Agree S (f s s) (f s' s')) :
    Agree S ((state >>= f) s) ((state >>= f) s') := h

theorem respects_forEach {xs : List β} {f : β → Operation σ Unit}
    (hf : ∀ x ∈ xs, Respects S (f x)) : Respects S (forEach xs f) := by
  induction xs with
  | nil => exact respects_pure ()
  | cons x xs ih =>
    have rest : Respects S (forEach xs f) := ih fun y hy => hf y (List.mem_cons_of_mem x hy)
    exact (hf x List.mem_cons_self).bind fun _ => rest

end Operation

end HealthConsensus
