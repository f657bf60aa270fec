import HealthConsensus.Proofs.Keeping
import HealthConsensus.Proofs.Moves
import Mathlib.Data.List.Nodup

namespace HealthConsensus

variable {κ ν : Type} [DecidableEq κ]

def Table.setAll (key : ν → κ) (bs : List ν) (t : Table κ ν) : Table κ ν :=
  bs.foldl (fun t b => t.set (key b) b) t

namespace Table

variable {K : RecordKind κ ν} {t : Table κ ν}

theorem keyed_empty : K.Keyed (view (empty : Table κ ν)) := fun _ _ h => by cases h

theorem keyed_set (keyed : K.Keyed t.view) (b : ν) : K.Keyed (t.set (K.key b) b).view := by
  intro k c h
  rw [view_set, Function.update_apply] at h
  split at h
  · next same =>
    cases h
    exact same.symm
  · exact keyed k c h

theorem keyed_setAll (keyed : K.Keyed t.view) (bs : List ν) :
    K.Keyed (t.setAll K.key bs).view := by
  induction bs generalizing t with
  | nil => exact keyed
  | cons b bs ih => exact ih (keyed_set keyed b)

theorem mem_of_get?_setAll {key : ν → κ} {bs : List ν} {k : κ} {b : ν}
    (found : (t.setAll key bs).get? k = some b) : b ∈ bs ∨ t.get? k = some b := by
  induction bs generalizing t with
  | nil => exact .inr found
  | cons c bs ih =>
    rcases ih found with later | there
    · exact .inl (List.mem_cons_of_mem c later)
    · rw [get?_set] at there
      split at there
      · cases there
        exact .inl List.mem_cons_self
      · exact .inr there

theorem view_setAll (key : ν → κ) {bs : List ν} (distinct : (bs.map key).Nodup) (t : Table κ ν)
    (k : κ) : (t.setAll key bs).view k = (bs.find? fun b => key b = k).or (t.view k) := by
  induction bs generalizing t with
  | nil => rfl
  | cons b bs ih =>
    obtain ⟨fresh, distinct⟩ := List.nodup_cons.1 distinct
    rw [setAll, List.foldl_cons, ← setAll, ih distinct, view_set, Function.update_apply]
    by_cases h : k = key b
    · subst h
      have absent : bs.find? (fun c => key c = key b) = none := by
        rw [List.find?_eq_none]
        intro c hc same
        exact fresh (of_decide_eq_true same ▸ List.mem_map_of_mem hc)
      simp [absent]
    · simp [h, Ne.symm h]

theorem view_setAll_eq_some_iff (key : ν → κ) {bs : List ν} (distinct : (bs.map key).Nodup) {k : κ}
    {b : ν} : ((empty : Table κ ν).setAll key bs).view k = some b ↔ b ∈ bs ∧ key b = k := by
  rw [view_setAll key distinct, show (empty : Table κ ν).view k = none from rfl, Option.or_none]
  constructor
  · intro found
    exact ⟨List.mem_of_find?_eq_some found, by simpa using List.find?_some found⟩
  · rintro ⟨hb, rfl⟩
    cases found : bs.find? fun c => key c = key b with
    | none => exact absurd (decide_eq_true rfl) (List.find?_eq_none.1 found b hb)
    | some c =>
      have same : key c = key b := by simpa using List.find?_some found
      rw [List.inj_on_of_nodup_map distinct (List.mem_of_find?_eq_some found) hb same]

end Table

namespace Loader

open Operation

variable {l : Loader κ ν}

theorem take_blind (record : String × Bytes) : (l.take record).Blind := by
  unfold take
  split
  · exact blind_modify _
  · exact blind_log _

theorem load_blind (listing : Option (Except Error (List (String × Bytes)))) :
    (l.load listing).Blind := by
  unfold load
  split
  · exact blind_pure _
  · exact blind_pure _
  · exact (Blind.forEach take_blind).bind fun _ => (blind_log _).bind fun _ => blind_pure _

theorem load_obeys {R : Table κ ν → Effects → Table κ ν → Prop} (law : Law R)
    (place : ∀ v t, R t .none (t.set (l.key v) v))
    (listing : Option (Except Error (List (String × Bytes)))) (t : Table κ ν) :
    (l.load listing).Obeys R t := by
  match listing with
  | none => exact law.pure _ t
  | some (.error _) => exact law.pure _ t
  | some (.ok records) =>
    refine law.bind (law.forEach (fun record _ t => ?_) t) (law.silent _ _)
    unfold take
    split
    · exact place _ t
    · exact law.log _ t

theorem forEach_take (records : List (String × Bytes)) (t : Table κ ν) :
    (forEach records l.take t).state = t.setAll l.key (l.readable records) := by
  induction records generalizing t with
  | nil => rfl
  | cons record records ih =>
    rw [forEach_cons, readable, List.filterMap_cons]
    dsimp only
    rw [ih, take]
    cases l.read? record.2 <;> rfl

theorem load_state (records : List (String × Bytes)) (t : Table κ ν) :
    (l.load (some (.ok records)) t).state = t.setAll l.key (l.readable records) :=
  forEach_take records t

theorem load_keyed {K : RecordKind κ ν} (own : l.key = K.key)
    (listing : Option (Except Error (List (String × Bytes)))) {t : Table κ ν}
    (keyed : K.Keyed t.view) : K.Keyed (l.load listing t).state.view := by
  match listing with
  | none => exact keyed
  | some (.error _) => exact keyed
  | some (.ok records) =>
    rw [load_state, own]
    exact Table.keyed_setAll keyed _

end Loader

end HealthConsensus
