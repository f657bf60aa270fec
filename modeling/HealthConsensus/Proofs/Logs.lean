import HealthConsensus.Proofs.Operation

/-!
What operations log: a property of lines holds of all that an operation logs whenever it holds of
the lines of the steps that the operation is made of. Lines are plain if no field of theirs could show
a fingerprint.
-/

namespace HealthConsensus

namespace Effects

@[simp] theorem log_concat (es : List Effects) : (concat es).log = es.flatMap Effects.log := by
  induction es with
  | nil => rfl
  | cons e es ih => exact congrArg (e.log ++ ·) ih

end Effects

namespace Operation

variable {σ τ α β : Type} {P : LogLine → Prop} {s : σ}

def Logs (P : LogLine → Prop) (a : Operation σ α) (s : σ) : Prop := ∀ l ∈ (a s).effects.log, P l

namespace Logs

theorem mono {Q : LogLine → Prop} (h : ∀ l, P l → Q l) {a : Operation σ α} (ha : Logs P a s) :
    Logs Q a s := fun l hl => h l (ha l hl)

theorem nothing {a : Operation σ α} (h : (a s).effects.log = []) : Logs P a s := by
  intro l hl
  rw [h] at hl
  cases hl

theorem pure (x : α) (s : σ) : Logs P (pure x : Operation σ α) s := nothing rfl

theorem line {l : LogLine} (h : P l) (s : σ) : Logs P (log l : Operation σ Unit) s := by
  intro l' hl'
  cases List.mem_singleton.1 hl'
  exact h

theorem bind {a : Operation σ α} {f : α → Operation σ β} (ha : Logs P a s)
    (hf : Logs P (f (a s).result) (a s).state) : Logs P (a >>= f) s := by
  intro l hl
  rcases List.mem_append.1 hl with first | later
  · exact ha l first
  · exact hf l later

theorem readState {f : σ → Operation σ β} (hf : Logs P (f s) s) : Logs P (state >>= f) s :=
  bind (nothing rfl) hf

theorem on {a : Operation σ α} {part : τ → σ} {replace : σ → τ → τ} {t : τ}
    (h : Logs P a (part t)) : Logs P (a.on part replace) t := h

theorem forEach {xs : List β} {f : β → Operation σ Unit} (hf : ∀ x ∈ xs, ∀ s, Logs P (f x) s)
    (s : σ) : Logs P (forEach xs f) s := by
  induction xs generalizing s with
  | nil => exact nothing rfl
  | cons x xs ih =>
    exact bind (hf x List.mem_cons_self s) (ih (fun y hy => hf y (List.mem_cons_of_mem x hy)) _)

end Logs

end Operation

def Fingerprint.fieldNames : List String := ["fingerprint", "pinned", "presented", "old", "new"]

def LogLine.Plain (l : LogLine) : Prop := ∀ f ∈ l.fields, f.1 ∉ Fingerprint.fieldNames

namespace LogLine

variable {message : String} {fields : List (String × String)}

@[simp] theorem plain_debug : Plain (.debug message fields) ↔
    ∀ f ∈ fields, f.1 ∉ Fingerprint.fieldNames := .rfl

@[simp] theorem plain_info : Plain (.info message fields) ↔
    ∀ f ∈ fields, f.1 ∉ Fingerprint.fieldNames := .rfl

@[simp] theorem plain_warn : Plain (.warn message fields) ↔
    ∀ f ∈ fields, f.1 ∉ Fingerprint.fieldNames := .rfl

end LogLine

abbrev Operation.Plain {σ α : Type} (a : Operation σ α) (s : σ) : Prop := a.Logs LogLine.Plain s

end HealthConsensus
