import HealthConsensus.Settings.Load
import Mathlib.Data.Option.Defs

namespace HealthConsensus

namespace SettingValue

variable {a b v w : SettingValue} {name : String} {path : List String}

def IsLeaf (v : SettingValue) : Prop := ∀ es, v ≠ table es

theorem isLeaf_text (s : String) : (text s).IsLeaf := fun _ => (nomatch ·)

theorem IsLeaf.entries (leaf : a.IsLeaf) : a.entries = [] := by
  cases a with
  | table es => exact absurd rfl (leaf es)
  | _ => rfl

theorem mergeOnto_leaf (leaf : v.IsLeaf) (old : Option SettingValue) : mergeOnto old v = v := by
  rw [mergeOnto]
  exact leaf

theorem child?_cons (k name : String) (v : SettingValue) (es : List (String × SettingValue)) :
    (table ((name, v) :: es)).child? k = if k = name then some v else (table es).child? k := by
  by_cases same : name = k
  · subst same
    simp [child?, entries]
  · rw [if_neg (Ne.symm same)]
    simp [child?, entries, same]

theorem child?_insertEntry (k name : String) (v : SettingValue)
    (es : List (String × SettingValue)) :
    (table (insertEntry name v es)).child? k =
      if k = name then some v else (table es).child? k := by
  induction es with
  | nil => exact child?_cons k name v []
  | cons e es ih =>
    obtain ⟨other, old⟩ := e
    by_cases same : other = name
    · subst same
      rw [insertEntry, if_pos (beq_self_eq_true other), child?_cons, child?_cons]
      split <;> rfl
    · rw [insertEntry, if_neg (by simpa using same), child?_cons, ih, child?_cons]
      by_cases first : k = other
      · rw [if_pos first, if_pos first, if_neg fun second => same (first.symm.trans second)]
      · rw [if_neg first, if_neg first]

theorem set_cons (leaf : v.IsLeaf) (name : String) (path : List String) (a : SettingValue) :
    set (name :: path) v a =
      table (insertEntry name (set path v ((a.child? name).getD (table []))) a.entries) := by
  cases path with
  | nil => rw [set, set, mergeOnto_leaf leaf, mergeOnto_leaf leaf]
  | cons next path =>
    rw [set]
    exact List.cons_ne_nil next path

theorem child?_set (leaf : v.IsLeaf) (name : String) (path : List String) (a : SettingValue)
    (k : String) : (set (name :: path) v a).child? k =
      if k = name then some (set path v ((a.child? name).getD (table []))) else a.child? k := by
  rw [set_cons leaf, child?_insertEntry]
  rfl

def Given : List String → SettingValue → SettingValue → SettingValue → Prop
  | [], v, _, b => b = v
  | name :: path, v, a, b => ∃ es inner, b = table es ∧ (∀ k ≠ name, b.child? k = a.child? k) ∧
      b.child? name = some inner ∧ Given path v ((a.child? name).getD (table [])) inner

theorem given_set (leaf : v.IsLeaf) (path : List String) (a : SettingValue) :
    Given path v a (set path v a) := by
  induction path generalizing a with
  | nil => exact mergeOnto_leaf leaf _
  | cons name path ih =>
    refine ⟨_, _, set_cons leaf name path a, fun k other => ?_, ?_, ih _⟩
    · rw [child?_set leaf, if_neg other]
    · rw [child?_set leaf, if_pos rfl]

def at? : List String → SettingValue → Option SettingValue
  | [], v => some v
  | name :: path, v => (v.child? name).bind (at? path)

theorem exists_table_of_child? (h : a.child? name = some v) : ∃ es, a = table es := by
  cases a with
  | table es => exact ⟨es, rfl⟩
  | _ => cases h

def Apart (steps path : List String) : Prop := ¬ steps <+: path ∧ ¬ path <+: steps

theorem Apart.tail {steps path : List String} (apart : Apart (name :: steps) (name :: path)) :
    Apart steps path := by
  simpa [Apart, List.cons_prefix_cons] using apart

theorem at?_set (leaf : v.IsLeaf) (path : List String) (a : SettingValue) :
    (set path v a).at? path = some v := by
  induction path generalizing a with
  | nil => exact congrArg some (mergeOnto_leaf leaf _)
  | cons name path ih => rw [at?, child?_set leaf, if_pos rfl, Option.bind_some, ih]

theorem at?_set_apart (leaf : w.IsLeaf) {steps : List String} (apart : Apart steps path)
    (h : a.at? path = some v) : (set steps w a).at? path = some v := by
  induction steps generalizing path a with
  | nil => exact absurd List.nil_prefix apart.1
  | cons step steps ih =>
    cases path with
    | nil => exact absurd List.nil_prefix apart.2
    | cons name path =>
      rw [at?, child?_set leaf]
      by_cases here : name = step
      · subst here
        obtain ⟨inner, own, rest⟩ := Option.bind_eq_some_iff.1 h
        rw [if_pos rfl, own]
        exact ih apart.tail rest
      · rwa [if_neg here]

theorem Given.set_apart (given : Given path v a b) (leaf : w.IsLeaf) {steps : List String}
    (apart : Apart steps path) : Given path v (set steps w a) (set steps w b) := by
  induction steps generalizing path a b with
  | nil => exact absurd List.nil_prefix apart.1
  | cons step steps ih =>
    cases path with
    | nil => exact absurd List.nil_prefix apart.2
    | cons name path =>
      obtain ⟨es, inner, rfl, others, own, rest⟩ := given
      rw [Given]
      by_cases here : name = step
      · subst here
        refine ⟨_, set steps w inner, set_cons leaf name steps _, fun k other => ?_, ?_, ?_⟩
        · rw [child?_set leaf, child?_set leaf, if_neg other, if_neg other, others k other]
        · rw [child?_set leaf, if_pos rfl, own, Option.getD_some]
        · rw [child?_set leaf, if_pos rfl]
          exact ih rest apart.tail
      · refine ⟨_, inner, set_cons leaf step steps _, fun k other => ?_, ?_, ?_⟩
        · rw [child?_set leaf, child?_set leaf]
          by_cases there : k = step
          · rw [if_pos there, if_pos there, ← there, others k other]
          · rw [if_neg there, if_neg there, others k other]
        · rw [child?_set leaf, if_neg here, own]
        · rwa [child?_set leaf, if_neg here]

structure ReadsAlike (a b : SettingValue) : Prop where
  leaf : a.IsLeaf
  leaf' : b.IsLeaf
  text : a.toText? = b.toText?
  texts : a.toTexts? = b.toTexts?

def SameBut : List String → SettingValue → SettingValue → Prop
  | [], a, b => a = b ∨ ReadsAlike a b
  | name :: path, a, b => a = b ∨ ∃ es fs, a = table es ∧ b = table fs ∧
      (∀ k ≠ name, a.child? k = b.child? k) ∧
      Option.Rel (SameBut path) (a.child? name) (b.child? name)

theorem SameBut.refl (path : List String) (a : SettingValue) : SameBut path a a := by
  cases path <;> exact .inl rfl

theorem ReadsAlike.set (alike : ReadsAlike a b) (leaf : w.IsLeaf) (path : List String) :
    set path w a = set path w b := by
  cases path with
  | nil => exact (mergeOnto_leaf leaf _).trans (mergeOnto_leaf leaf _).symm
  | cons name path =>
    rw [set_cons leaf, set_cons leaf, child?, child?, alike.leaf.entries, alike.leaf'.entries]

theorem SameBut.set (same : SameBut path a b) (leaf : w.IsLeaf) (steps : List String) :
    SameBut path (set steps w a) (set steps w b) := by
  induction steps generalizing path a b with
  | nil =>
    change SameBut path (mergeOnto _ w) (mergeOnto _ w)
    rw [mergeOnto_leaf leaf, mergeOnto_leaf leaf]
    exact .refl path w
  | cons step steps ih =>
    cases path with
    | nil =>
      rcases same with rfl | alike
      · exact .refl [] _
      · exact .inl (alike.set leaf _)
    | cons name path =>
      rcases same with rfl | ⟨es, fs, rfl, rfl, others, own⟩
      · exact .refl _ _
      · refine .inr ⟨_, _, set_cons leaf step steps _, set_cons leaf step steps _, ?_, ?_⟩
        · intro k other
          rw [child?_set leaf, child?_set leaf, others k other]
          by_cases here : k = step
          · rw [if_pos here, if_pos here, ← here, others k other]
          · rw [if_neg here, if_neg here]
        · rw [child?_set leaf, child?_set leaf]
          by_cases here : name = step
          · rw [if_pos here, if_pos here, ← here]
            generalize (table es).child? name = o, (table fs).child? name = o' at own ⊢
            cases own with
            | none => exact .some (.refl path _)
            | some inner => exact .some (ih inner)
          · rw [if_neg here, if_neg here]
            exact own

theorem sameBut_of_given (given : Given path v a b) (leaf : w.IsLeaf) (alike : ReadsAlike w v) :
    SameBut path (set path w a) b := by
  induction path generalizing a b with
  | nil =>
    cases given
    refine .inr ?_
    change ReadsAlike (mergeOnto _ w) v
    rwa [mergeOnto_leaf leaf]
  | cons name path ih =>
    obtain ⟨es, inner, rfl, others, own, rest⟩ := given
    refine .inr ⟨_, es, set_cons leaf name path a, rfl, fun k other => ?_, ?_⟩
    · rw [child?_set leaf, if_neg other, others k other]
    · rw [child?_set leaf, if_pos rfl, own]
      exact .some (ih rest)

theorem at?_setAll_apart {es : List (String × SettingValue)} (leaves : ∀ e ∈ es, e.2.IsLeaf)
    (apart : ∀ e ∈ es, Apart (pathOf e.1) path) (h : a.at? path = some v) :
    (a.setAll es).at? path = some v := by
  induction es generalizing a with
  | nil => exact h
  | cons e es ih =>
    have next := at?_set_apart (leaves e List.mem_cons_self) (apart e List.mem_cons_self) h
    exact ih (fun f hf => leaves f (List.mem_cons_of_mem e hf))
      (fun f hf => apart f (List.mem_cons_of_mem e hf)) next

theorem Given.setAll_apart {es : List (String × SettingValue)} (leaves : ∀ e ∈ es, e.2.IsLeaf)
    (apart : ∀ e ∈ es, Apart (pathOf e.1) path) (given : Given path v a b) :
    Given path v (a.setAll es) (b.setAll es) := by
  induction es generalizing a b with
  | nil => exact given
  | cons e es ih =>
    have next := given.set_apart (leaves e List.mem_cons_self) (apart e List.mem_cons_self)
    exact ih (fun f hf => leaves f (List.mem_cons_of_mem e hf))
      (fun f hf => apart f (List.mem_cons_of_mem e hf)) next

theorem SameBut.setAll (same : SameBut path a b) {es : List (String × SettingValue)}
    (leaves : ∀ e ∈ es, e.2.IsLeaf) : SameBut path (a.setAll es) (b.setAll es) := by
  induction es generalizing a b with
  | nil => exact same
  | cons e es ih =>
    exact ih (same.set (leaves e List.mem_cons_self) _) fun f hf =>
      leaves f (List.mem_cons_of_mem e hf)

end SettingValue

end HealthConsensus
