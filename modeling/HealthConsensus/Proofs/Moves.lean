import HealthConsensus.Proofs.Operation
import HealthConsensus.Table
import Mathlib.Logic.Function.Basic

/-!
Moves: what operations do to a table of records, one record at a time. The announced changes and the
wanted writes of an operation are those of its moves, in their order.
-/

namespace HealthConsensus

inductive Move (ν : Type) where
  | create (b : ν)
  | renew (b next : ν)
  | remove (b : ν)

structure RecordKind (κ ν : Type) where
  key : ν → κ
  put : ν → RecordWrite
  drop : κ → RecordWrite
  changes : Move ν → List StatusChange

variable {κ ν : Type} (K : RecordKind κ ν)

namespace Move

def before : Move ν → Option ν
  | create _ => none
  | renew b _ => some b
  | remove b => some b

def after : Move ν → Option ν
  | create b => some b
  | renew _ next => some next
  | remove _ => none

def key : Move ν → κ
  | create b => K.key b
  | renew b _ => K.key b
  | remove b => K.key b

def writes : Move ν → List RecordWrite
  | create b => [K.put b]
  | renew _ next => [K.put next]
  | remove b => [K.drop (K.key b)]

structure Fits (v : κ → Option ν) (m : Move ν) : Prop where
  found : v (m.key K) = m.before
  keeps : ∀ b, m.after = some b → K.key b = m.key K

end Move

def RecordKind.Keyed (v : κ → Option ν) : Prop := ∀ k b, v k = some b → K.key b = k

variable [DecidableEq κ]

def Move.apply (m : Move ν) (v : κ → Option ν) : κ → Option ν := Function.update v (m.key K) m.after

inductive Path : (κ → Option ν) → List (Move ν) → (κ → Option ν) → Prop
  | nil (v : κ → Option ν) : Path v [] v
  | cons {v v' : κ → Option ν} {m : Move ν} {ms : List (Move ν)} :
      m.Fits K v → Path (m.apply K v) ms v' → Path v (m :: ms) v'

variable {K} {v v' v'' : κ → Option ν} {m : Move ν} {ms ns : List (Move ν)}

theorem Path.append (h : Path K v ms v') (h' : Path K v' ns v'') : Path K v (ms ++ ns) v'' := by
  induction h with
  | nil v => exact h'
  | cons hm _ ih => exact .cons hm (ih h')

theorem Path.eq_of_nil (h : Path K v [] v') : v = v' := by
  cases h
  rfl

theorem Path.single (h : m.Fits K v) : Path K v [m] (m.apply K v) := .cons h (.nil _)

theorem Move.Fits.apply_keyed (hm : m.Fits K v) (hv : K.Keyed v) : K.Keyed (m.apply K v) := by
  intro k b hb
  rw [Move.apply, Function.update_apply] at hb
  split at hb
  · next h => exact h ▸ hm.keeps b hb
  · exact hv k b hb

theorem Path.keyed (h : Path K v ms v') (hv : K.Keyed v) : K.Keyed v' := by
  induction h with
  | nil v => exact hv
  | cons hm _ ih => exact ih (hm.apply_keyed hv)

theorem Path.forall (h : Path K v ms v') (good : ν → Prop) (hv : ∀ k b, v k = some b → good b)
    (hms : ∀ m ∈ ms, (∀ b, m.before = some b → good b) → ∀ b, m.after = some b → good b) :
    ∀ k b, v' k = some b → good b := by
  induction h with
  | nil v => exact hv
  | @cons v v' m ms hm _ ih =>
    refine ih (fun k b hb => ?_) fun m' hm' => hms m' (List.mem_cons_of_mem m hm')
    rw [Move.apply, Function.update_apply] at hb
    split at hb
    · exact hms m List.mem_cons_self (fun c hc => hv _ c (hm.found.trans hc)) b hb
    · exact hv k b hb

theorem path_family (bs : List ν) (move : ν → Move ν) (own : ∀ b, (move b).key K = K.key b)
    (fits : ∀ b v, v (K.key b) = some b → (move b).Fits K v) (distinct : (bs.map K.key).Nodup)
    (found : ∀ b ∈ bs, v (K.key b) = some b) :
    Path K v (bs.map move)
      fun k => if k ∈ bs.map K.key then (v k).bind fun b => (move b).after else v k := by
  induction bs generalizing v with
  | nil => simpa using Path.nil v
  | cons b bs ih =>
    obtain ⟨fresh, distinct⟩ := List.nodup_cons.1 distinct
    have here := found b List.mem_cons_self
    let next := (move b).apply K v
    have elsewhere : ∀ c ∈ bs, next (K.key c) = some c := by
      intro c hc
      have other : K.key c ≠ K.key b := fun h => fresh (h ▸ List.mem_map_of_mem hc)
      change Function.update v ((move b).key K) _ (K.key c) = some c
      rw [own, Function.update_of_ne other]
      exact found c (List.mem_cons_of_mem b hc)
    have path := Path.cons (fits b v here) (ih distinct elsewhere)
    have same : (fun k =>
          if k ∈ (b :: bs).map K.key then (v k).bind fun c => (move c).after else v k) =
        fun k => if k ∈ bs.map K.key then (next k).bind fun c => (move c).after else next k := by
      funext k
      by_cases h : k = K.key b
      · subst h
        simp [next, Move.apply, own, fresh, here]
      · simp [next, Move.apply, own, h]
    rw [same]
    exact path

theorem path_renew (bs : List ν) (change : ν → ν) (hk : ∀ b, K.key (change b) = K.key b)
    (distinct : (bs.map K.key).Nodup) (found : ∀ b ∈ bs, v (K.key b) = some b) :
    Path K v (bs.map fun b => .renew b (change b))
      fun k => (v k).map fun b => if k ∈ bs.map K.key then change b else b := by
  have path := path_family bs (fun b => .renew b (change b)) (fun b => rfl)
    (fun b _ here => ⟨here, fun c hc => by cases hc; exact hk b⟩) distinct found
  have same : (fun k => (v k).map fun b => if k ∈ bs.map K.key then change b else b) =
      fun k => if k ∈ bs.map K.key then (v k).bind fun b => some (change b) else v k := by
    funext k
    split <;> cases v k <;> rfl
  rw [same]
  exact path

theorem path_remove (bs : List ν) (distinct : (bs.map K.key).Nodup)
    (found : ∀ b ∈ bs, v (K.key b) = some b) :
    Path K v (bs.map .remove) fun k => if k ∈ bs.map K.key then none else v k := by
  have path := path_family bs .remove (fun b => rfl)
    (fun b _ here => ⟨here, fun c hc => by cases hc⟩) distinct found
  simpa only [Move.after, Option.bind_fun_none] using path

namespace Table

def view (t : Table κ ν) : κ → Option ν := fun k => t.get? k

theorem view_set (t : Table κ ν) (k : κ) (b : ν) :
    (t.set k b).view = Function.update t.view k (some b) := by
  funext k'
  rw [view, get?_set, Function.update_apply]
  rfl

theorem view_erase (t : Table κ ν) (k : κ) :
    (t.erase k).view = Function.update t.view k none := by
  funext k'
  rw [view, get?_erase, Function.update_apply]
  rfl

variable {t t' : Table κ ν} {kinds kinds' : Move ν → Prop} {e : Effects}

/-- The effects of a step are those of moves of certain kinds that lead from the records before it
to those after it. -/
def Traced (K : RecordKind κ ν) (kinds : Move ν → Prop) (t : Table κ ν) (e : Effects)
    (t' : Table κ ν) : Prop :=
  K.Keyed t.view → ∃ ms, (∀ m ∈ ms, kinds m) ∧ Path K t.view ms t'.view ∧
    e.changes = ms.flatMap K.changes ∧ e.writes = ms.flatMap (Move.writes K)

theorem Traced.mono (h : ∀ m, kinds m → kinds' m) (ht : Traced K kinds t e t') :
    Traced K kinds' t e t' := fun keyed => by
  obtain ⟨ms, hk, rest⟩ := ht keyed
  exact ⟨ms, fun m hm => h m (hk m hm), rest⟩

theorem Traced.keyed (ht : Traced K kinds t e t') (keyed : K.Keyed t.view) : K.Keyed t'.view := by
  obtain ⟨ms, -, path, -⟩ := ht keyed
  exact path.keyed keyed

theorem traced_law (K : RecordKind κ ν) (kinds : Move ν → Prop) :
    Operation.Law (Traced K kinds) where
  silent s lines := fun _ => ⟨[], by simp, .nil _, rfl, rfl⟩
  comp {t t' t'' d e} hd he := fun keyed => by
    obtain ⟨ms, hms, path, changes, writes⟩ := hd keyed
    obtain ⟨ns, hns, path', changes', writes'⟩ := he (path.keyed keyed)
    refine ⟨ms ++ ns, ?_, path.append path', ?_, ?_⟩
    · intro m hm
      exact (List.mem_append.1 hm).elim (hms m) (hns m)
    · simp [changes, changes']
    · simp [writes, writes']

theorem traced_single (hm : kinds m) (fits : K.Keyed t.view → m.Fits K t.view)
    (after : K.Keyed t.view → t'.view = m.apply K t.view) (changes : e.changes = K.changes m)
    (writes : K.Keyed t.view → e.writes = m.writes K) : Traced K kinds t e t' := fun keyed =>
  ⟨[m], by simpa using hm, after keyed ▸ .single (fits keyed), by simpa using changes,
    by simpa using writes keyed⟩

structure Arrangement (κ ν : Type) where
  arrange : Table κ ν → Table κ ν
  perm : ∀ t, (arrange t).entries.Perm t.entries

namespace Arrangement

def unchanged : Arrangement κ ν := ⟨id, fun _ => .refl _⟩

def backwards : Arrangement κ ν where
  arrange t :=
    ⟨t.entries.reverse, ((List.reverse_perm t.entries).map Prod.fst).nodup_iff.2 t.distinct⟩
  perm t := List.reverse_perm t.entries

theorem view_arrange (order : Arrangement κ ν) (t : Table κ ν) :
    (order.arrange t).view = t.view := by
  funext k
  apply Option.ext
  intro b
  rw [view, view, get?_eq_some_iff, get?_eq_some_iff]
  exact (order.perm t).mem_iff

end Arrangement

end Table

end HealthConsensus
