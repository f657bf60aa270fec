import HealthConsensus.Proofs.Operation

namespace HealthConsensus

namespace Keep

variable {stored : Bool}

theorem takeAll_append (ws ws' : List RecordWrite) (k : Keep stored) :
    k.takeAll (ws ++ ws') = (k.takeAll ws).takeAll ws' := by
  cases stored with
  | false => rfl
  | true => exact List.foldl_append

end Keep

namespace Operation

variable {σ τ α β : Type}

/-- What an operation does is the same whatever keeps its records, and the records that it hands
over are those that its effects name. -/
def Blind (a : Operation σ α) : Prop :=
  ∀ stored (k : Keep stored) s, a.under stored k s = (a s, k.takeAll (a s).effects.writes)

theorem blind_pure (x : α) : Blind (pure x : Operation σ α) := fun stored _ _ => by
  cases stored <;> rfl

theorem blind_state : Blind (state : Operation σ σ) := fun stored _ _ => by
  cases stored <;> rfl

theorem blind_modify (f : σ → σ) : Blind (Operation.modify f) := fun stored _ _ => by
  cases stored <;> rfl

theorem blind_effect (e : Effects) : Blind (effect e : Operation σ Unit) := fun _ _ _ => rfl

theorem blind_log (l : LogLine) : Blind (log l : Operation σ Unit) := blind_effect _

theorem blind_write (w : RecordWrite) : Blind (write w : Operation σ Unit) := blind_effect _

theorem blind_announce (c : StatusChange) : Blind (announce c : Operation σ Unit) := blind_effect _

namespace Blind

variable {a : Operation σ α}

theorem bind {f : α → Operation σ β} (ha : a.Blind) (hf : ∀ x, (f x).Blind) : (a >>= f).Blind := by
  intro stored k s
  have first := ha stored k s
  have second := hf (a s).result stored (k.takeAll (a s).effects.writes) (a s).state
  calc (a >>= f).under stored k s
      = (let o := a.under stored k s
        let o' := (f o.1.result).under stored o.2 o.1.state
        (⟨o'.1.result, o'.1.state, o.1.effects ++ o'.1.effects⟩, o'.2)) := rfl
    _ = ((a >>= f) s, (k.takeAll (a s).effects.writes).takeAll
          (f (a s).result (a s).state).effects.writes) := by
        simp only [first, second]
        rfl
    _ = ((a >>= f) s, k.takeAll ((a >>= f) s).effects.writes) := by
        rw [← Keep.takeAll_append]
        rfl

theorem reply (ha : a.Blind) (f : α → β) : Blind (do return f (← a) : Operation σ β) :=
  ha.bind fun x => blind_pure (f x)

theorem on (ha : a.Blind) (part : τ → σ) (replace : σ → τ → τ) : (a.on part replace).Blind := by
  intro stored k t
  have own := ha stored k (part t)
  simp only [Operation.on, own, unstored]

theorem forEach {xs : List β} {f : β → Operation σ Unit} (hf : ∀ x, (f x).Blind) :
    (Operation.forEach xs f).Blind := by
  induction xs with
  | nil => exact blind_pure ()
  | cons x xs ih => exact (hf x).bind fun _ => ih

end Blind

end Operation

namespace Archive

def queueAll : List RecordWrite → Archive → Archive × List LogLine
  | [], a => (a, [])
  | w :: ws, a =>
    let (a, log) := a.queue w
    let (a, later) := queueAll ws a
    (a, log ++ later)

end Archive

theorem Keeper.takeAll_undisturbed (ws : List RecordWrite) (a : Archive) (log : List LogLine) :
    takeAll ws ⟨a, log, undisturbed⟩ =
      ⟨(a.queueAll ws).1, log ++ (a.queueAll ws).2, undisturbed⟩ := by
  induction ws generalizing a log with
  | nil => simp [takeAll, Archive.queueAll]
  | cons w ws ih =>
    refine (ih (a.queue w).1 (log ++ (a.queue w).2)).trans ?_
    simp [Archive.queueAll]

end HealthConsensus
