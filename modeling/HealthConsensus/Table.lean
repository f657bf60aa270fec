namespace HealthConsensus

structure Table (κ ν : Type) where
  entries : List (κ × ν)
  distinct : (entries.map Prod.fst).Nodup

namespace Table

variable {κ ν : Type}

def empty : Table κ ν := ⟨[], List.nodup_nil⟩

instance : Inhabited (Table κ ν) := ⟨empty⟩

def keys (t : Table κ ν) : List κ := t.entries.map Prod.fst

def values (t : Table κ ν) : List ν := t.entries.map Prod.snd

def size (t : Table κ ν) : Nat := t.entries.length

def filter (keep : κ → ν → Bool) (t : Table κ ν) : Table κ ν where
  entries := t.entries.filter fun e => keep e.1 e.2
  distinct := t.distinct.sublist (List.filter_sublist.map Prod.fst)

def map (change : κ → ν → ν) (t : Table κ ν) : Table κ ν where
  entries := t.entries.map fun e => (e.1, change e.1 e.2)
  distinct := by simpa [Function.comp_def] using t.distinct

variable [DecidableEq κ]

def get? (k : κ) (t : Table κ ν) : Option ν := (t.entries.find? fun e => e.1 = k).map Prod.snd

def erase (k : κ) (t : Table κ ν) : Table κ ν := t.filter fun k' _ => k' ≠ k

def set (k : κ) (v : ν) (t : Table κ ν) : Table κ ν :=
  if h : k ∈ t.keys then t.map fun k' v' => if k' = k then v else v'
  else
    { entries := t.entries ++ [(k, v)]
      distinct := by
        simp only [List.map_append, List.map_cons, List.map_nil]
        exact List.nodup_append.2 ⟨t.distinct, by simp, by
          intro a ha b hb
          simp only [List.mem_singleton] at hb
          subst hb
          exact fun hab => h (hab ▸ ha)⟩ }

theorem get?_eq_some_iff {k : κ} {v : ν} {t : Table κ ν} :
    t.get? k = some v ↔ (k, v) ∈ t.entries := by
  obtain ⟨es, distinct⟩ := t
  simp only [get?]
  induction es with
  | nil => simp
  | cons e es ih =>
    rw [List.map_cons, List.nodup_cons] at distinct
    obtain ⟨fresh, distinct⟩ := distinct
    by_cases h : e.1 = k
    · subst h
      have absent : (e.1, v) ∉ es := fun hm => fresh (List.mem_map.2 ⟨(e.1, v), hm, rfl⟩)
      simp [absent, Prod.ext_iff, eq_comm]
    · have other : (k, v) ≠ e := fun he => h (he ▸ rfl)
      simp [h, other, ih distinct]

theorem get?_eq_none_iff {k : κ} {t : Table κ ν} : t.get? k = none ↔ k ∉ t.keys := by
  simp only [get?, keys, Option.map_eq_none_iff, List.find?_eq_none, List.mem_map, not_exists,
    decide_eq_true_eq, not_and]

@[simp] theorem get?_empty (k : κ) : (empty : Table κ ν).get? k = none := rfl

theorem get?_filter (keep : κ → ν → Bool) (k : κ) (t : Table κ ν) :
    (t.filter keep).get? k = (t.get? k).filter (keep k) := by
  apply Option.ext
  intro v
  simp [Option.filter_eq_some_iff, get?_eq_some_iff, filter]

theorem get?_map (change : κ → ν → ν) (k : κ) (t : Table κ ν) :
    (t.map change).get? k = (t.get? k).map (change k) := by
  apply Option.ext
  intro v
  simp only [Option.map_eq_some_iff, get?_eq_some_iff, map, List.mem_map, Prod.mk.injEq,
    Prod.exists]
  constructor
  · rintro ⟨k', v', hm, rfl, rfl⟩
    exact ⟨v', hm, rfl⟩
  · rintro ⟨v', hm, rfl⟩
    exact ⟨k, v', hm, rfl, rfl⟩

theorem get?_erase (k k' : κ) (t : Table κ ν) :
    (t.erase k).get? k' = if k' = k then none else t.get? k' := by
  rw [erase, get?_filter]
  by_cases h : k' = k <;> cases t.get? k' <;> simp [h, Option.filter]

theorem get?_set (k k' : κ) (v : ν) (t : Table κ ν) :
    (t.set k v).get? k' = if k' = k then some v else t.get? k' := by
  by_cases hk : k ∈ t.keys
  · rw [set, dif_pos hk, get?_map]
    by_cases h : k' = k
    · subst h
      obtain ⟨old, hold⟩ := Option.ne_none_iff_exists'.1 fun h => get?_eq_none_iff.1 h hk
      simp [hold]
    · simp [h]
  · rw [set, dif_neg hk]
    apply Option.ext
    intro w
    by_cases h : k' = k
    · subst h
      have absent : (k', w) ∉ t.entries := fun hm => hk (List.mem_map.2 ⟨(k', w), hm, rfl⟩)
      rw [get?_eq_some_iff]
      simp [absent, eq_comm]
    · rw [get?_eq_some_iff]
      simp [get?_eq_some_iff, h]

end Table

end HealthConsensus
