import HealthConsensus.Effects

/-!
Laws of operations: a relation between a state, the effects of an operation and the state after it
that holds of an operation whenever it holds of the steps that the operation is made of. And
operations that are alike: only what they answer and what they log can differ.
-/

namespace HealthConsensus

namespace Effects

@[simp] theorem changes_none : Effects.none.changes = [] := rfl

@[simp] theorem writes_none : Effects.none.writes = [] := rfl

@[simp] theorem log_none : Effects.none.log = [] := rfl

@[simp] theorem none_append (e : Effects) : Effects.none ++ e = e := rfl

@[simp] theorem append_none (e : Effects) : e ++ Effects.none = e := by
  cases e
  simp only [HAppend.hAppend, Append.append, append, none]
  simp

@[simp] theorem changes_concat (es : List Effects) :
    (concat es).changes = es.flatMap Effects.changes := by
  induction es with
  | nil => rfl
  | cons e es ih => exact congrArg (e.changes ++ ·) ih

@[simp] theorem writes_concat (es : List Effects) :
    (concat es).writes = es.flatMap Effects.writes := by
  induction es with
  | nil => rfl
  | cons e es ih => exact congrArg (e.writes ++ ·) ih

end Effects

namespace Operation

variable {σ τ α β : Type}

@[simp] theorem pure_apply (x : α) (s : σ) : (pure x : Operation σ α) s = ⟨x, s, .none⟩ := rfl

@[simp] theorem done_apply (x : α) (s : σ) : done x s = ⟨x, s, .none⟩ := rfl

@[simp] theorem bind_apply (a : Operation σ α) (f : α → Operation σ β) (s : σ) :
    (a >>= f) s = ⟨(f (a s).result (a s).state).result, (f (a s).result (a s).state).state,
      (a s).effects ++ (f (a s).result (a s).state).effects⟩ := rfl

@[simp] theorem state_apply (s : σ) : state s = ⟨s, s, .none⟩ := rfl

@[simp] theorem modify_apply (f : σ → σ) (s : σ) : Operation.modify f s = ⟨(), f s, .none⟩ := rfl

@[simp] theorem effect_apply (e : Effects) (s : σ) : effect e s = ⟨(), s, e⟩ := rfl

@[simp] theorem log_apply (l : LogLine) (s : σ) : log l s = ⟨(), s, ⟨[], [], [l]⟩⟩ := rfl

@[simp] theorem write_apply (w : RecordWrite) (s : σ) : write w s = ⟨(), s, ⟨[], [w], []⟩⟩ := rfl

@[simp] theorem announce_apply (c : StatusChange) (s : σ) :
    announce c s = ⟨(), s, ⟨[c], [], []⟩⟩ := rfl

@[simp] theorem on_apply (part : τ → σ) (replace : σ → τ → τ) (a : Operation σ α) (t : τ) :
    a.on part replace t = ⟨(a (part t)).result, replace (a (part t)).state t, (a (part t)).effects⟩ :=
  rfl

@[simp] theorem forEach_nil (f : β → Operation σ Unit) (s : σ) : forEach [] f s = ⟨(), s, .none⟩ :=
  rfl

@[simp] theorem forEach_cons (x : β) (xs : List β) (f : β → Operation σ Unit) (s : σ) :
    forEach (x :: xs) f s = ⟨(), (forEach xs f (f x s).state).state,
      (f x s).effects ++ (forEach xs f (f x s).state).effects⟩ := rfl

theorem forEach_effect (xs : List β) (f : β → Effects) (s : σ) :
    forEach xs (fun x => effect (f x)) s = ⟨(), s, .concat (xs.map f)⟩ := by
  induction xs with
  | nil => rfl
  | cons x xs ih =>
    rw [forEach_cons, effect_apply, ih]
    rfl

structure Alike (o : Outcome σ α) (o' : Outcome σ β) : Prop where
  state : o.state = o'.state
  changes : o.effects.changes = o'.effects.changes
  writes : o.effects.writes = o'.effects.writes

namespace Alike

variable {γ : Type}

theorem refl (o : Outcome σ α) : Alike o o := ⟨rfl, rfl, rfl⟩

theorem symm {o : Outcome σ α} {o' : Outcome σ β} (h : Alike o o') : Alike o' o :=
  ⟨h.state.symm, h.changes.symm, h.writes.symm⟩

theorem trans {o : Outcome σ α} {o' : Outcome σ β} {o'' : Outcome σ γ} (h : Alike o o')
    (h' : Alike o' o'') : Alike o o'' :=
  ⟨h.state.trans h'.state, h.changes.trans h'.changes, h.writes.trans h'.writes⟩

theorem on {a : Operation σ α} {b : Operation σ β} {part : τ → σ} {replace : σ → τ → τ} {t : τ}
    (h : Alike (a (part t)) (b (part t))) : Alike (a.on part replace t) (b.on part replace t) :=
  ⟨congrArg (replace · t) h.state, h.changes, h.writes⟩

theorem andThen {a b : Operation σ Unit} {f : Unit → Operation σ α} {g : Unit → Operation σ β}
    {s : σ} (h : Alike (a s) (b s)) (h' : ∀ s, Alike (f () s) (g () s)) :
    Alike ((a >>= f) s) ((b >>= g) s) := by
  obtain ⟨state, changes, writes⟩ := h' (a s).state
  refine ⟨?_, ?_, ?_⟩
  · rw [bind_apply, bind_apply, ← h.state]
    exact state
  · rw [bind_apply, bind_apply, Effects.changes_append, Effects.changes_append, ← h.state, h.changes]
    exact congrArg _ changes
  · rw [bind_apply, bind_apply, Effects.writes_append, Effects.writes_append, ← h.state, h.writes]
    exact congrArg _ writes

end Alike

theorem alike_forEach {f g : β → Operation σ Unit} (h : ∀ x s, Alike (f x s) (g x s)) (xs : List β)
    (s : σ) : Alike (forEach xs f s) (forEach xs g s) := by
  induction xs generalizing s with
  | nil => exact ⟨rfl, rfl, rfl⟩
  | cons x xs ih => exact (h x s).andThen ih

theorem alike_forEach_filter {f : β → Operation σ Unit} {keep : β → Bool}
    (inert : ∀ x, keep x = false → ∀ s, Alike (f x s) (done () s)) (xs : List β) (s : σ) :
    Alike (forEach xs f s) (forEach (xs.filter keep) f s) := by
  induction xs generalizing s with
  | nil => exact ⟨rfl, rfl, rfl⟩
  | cons x xs ih =>
    cases kept : keep x with
    | true =>
      rw [List.filter_cons_of_pos kept]
      exact Alike.andThen ⟨rfl, rfl, rfl⟩ ih
    | false =>
      rw [List.filter_cons_of_neg (Bool.not_eq_true _ ▸ kept)]
      have skipped : Alike (forEach (x :: xs) f s)
          ((done () >>= fun _ => forEach (xs.filter keep) f) s) := (inert x kept s).andThen ih
      exact skipped

structure Law (R : σ → Effects → σ → Prop) : Prop where
  silent : ∀ s lines, R s ⟨[], [], lines⟩ s
  comp : ∀ {s t u d e}, R s d t → R t e u → R s (d ++ e) u

def Obeys (R : σ → Effects → σ → Prop) (a : Operation σ α) (s : σ) : Prop :=
  R s (a s).effects (a s).state

variable {R : σ → Effects → σ → Prop}

theorem Obeys.mono {R' : σ → Effects → σ → Prop} (h : ∀ s e t, R s e t → R' s e t)
    {a : Operation σ α} {s : σ} (ha : a.Obeys R s) : a.Obeys R' s := h _ _ _ ha

theorem Obeys.readState {f : σ → Operation σ β} {s : σ} (hf : (f s).Obeys R s) :
    (state >>= f).Obeys R s := hf

namespace Law

variable (law : Law R)
include law

theorem none (s : σ) : R s .none s := law.silent s []

theorem pure (x : α) (s : σ) : Obeys R (pure x : Operation σ α) s := law.none s

theorem log (l : LogLine) (s : σ) : Obeys R (log l) s := law.silent s [l]

theorem bind {a : Operation σ α} {f : α → Operation σ β} {s : σ} (ha : a.Obeys R s)
    (hf : (f (a s).result).Obeys R (a s).state) : (a >>= f).Obeys R s := law.comp ha hf

theorem forEach {xs : List β} {f : β → Operation σ Unit} (hf : ∀ x ∈ xs, ∀ s, (f x).Obeys R s)
    (s : σ) : (forEach xs f).Obeys R s := by
  induction xs generalizing s with
  | nil => exact law.none s
  | cons x xs ih =>
    exact law.comp (hf x List.mem_cons_self s)
      (ih (fun y hy => hf y (List.mem_cons_of_mem x hy)) _)

end Law

end Operation

end HealthConsensus
