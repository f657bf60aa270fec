import HealthConsensus.Proofs.Json.Fields

namespace HealthConsensus.Json

variable {α β : Type}

theorem mapM_perm {f : α → Option β} {xs ys : List α} (perm : xs.Perm ys) :
    Option.Rel List.Perm (xs.mapM f) (ys.mapM f) := by
  induction perm with
  | nil => exact .some .nil
  | @cons x xs ys _ ih =>
    rw [List.mapM_cons, List.mapM_cons]
    generalize xs.mapM f = o at ih
    generalize ys.mapM f = o' at ih
    cases ih with
    | none => cases f x <;> exact .none
    | some perm =>
      cases f x with
      | none => exact .none
      | some y => exact .some (perm.cons y)
  | swap x y xs =>
    simp only [List.mapM_cons]
    cases f x <;> cases f y <;> cases xs.mapM f
    case some.some.some a b zs => exact .some (.swap a b zs)
    all_goals exact .none
  | @trans xs ys zs _ _ ih ih' =>
    generalize xs.mapM f = o at ih
    generalize ys.mapM f = o' at ih ih'
    generalize zs.mapM f = o'' at ih'
    cases ih with
    | none => exact ih'
    | some perm =>
      cases ih' with
      | some perm' => exact .some (perm.trans perm')

def pick (members : List (String × Json)) (name : String) : Option (Option Json) :=
  match members.filter (·.1 == name) with
  | [] => some none
  | [(_, j)] => some (some j)
  | _ => none

theorem fields?_object (fields : List (Bytes × Json)) (names : List String) :
    (object fields).fields? names = (object fields).members?.bind fun ms => names.mapM (pick ms) :=
  rfl

theorem pick_perm {members members' : List (String × Json)} (perm : members.Perm members') :
    pick members = pick members' := by
  funext name
  have found := perm.filter (·.1 == name)
  rw [pick, pick]
  generalize members.filter (·.1 == name) = ms at *
  generalize members'.filter (·.1 == name) = ms' at *
  match ms with
  | [] => rw [found.nil_eq]
  | [m] => rw [List.singleton_perm.1 found]
  | m :: m' :: ms =>
    have long := found.length_eq
    match ms' with
    | [] => cases long
    | [_] => cases long
    | _ :: _ :: _ => rfl

theorem fields?_perm {fields fields' : List (Bytes × Json)} (perm : fields.Perm fields')
    (names : List String) : (object fields).fields? names = (object fields').fields? names := by
  have members : Option.Rel List.Perm (object fields).members? (object fields').members? :=
    mapM_perm perm
  rw [fields?_object, fields?_object]
  generalize (object fields).members? = o at members
  generalize (object fields').members? = o' at members
  cases members with
  | none => rfl
  | some perm => rw [Option.bind_some, Option.bind_some, pick_perm perm]

theorem pick_other {name : String} (members : List (String × Json)) {m : String × Json}
    (other : m.1 ≠ name) : pick (m :: members) name = pick members name := by
  rw [pick, pick, List.filter_cons_of_neg (by simpa using other)]

theorem mapM_congr {f g : α → Option β} {xs : List α} (same : ∀ x ∈ xs, f x = g x) :
    xs.mapM f = xs.mapM g := by
  induction xs with
  | nil => rfl
  | cons x xs ih =>
    rw [List.mapM_cons, List.mapM_cons, same x List.mem_cons_self,
      ih fun y hy => same y (List.mem_cons_of_mem x hy)]

theorem fields?_unknown {fields : List (Bytes × Json)} {names : List String} {key : Bytes}
    {name : String} (text : Quoted.text? key = some name) (unknown : name ∉ names) (j : Json) :
    (object ((key, j) :: fields)).fields? names = (object fields).fields? names := by
  have members : (object ((key, j) :: fields)).members? =
      (object fields).members?.map ((name, j) :: ·) := by
    rw [members?, members?, List.mapM_cons]
    dsimp only
    rw [text]
    cases fields.mapM fun f : Bytes × Json => (Quoted.text? f.1).map (·, f.2) <;> rfl
  rw [fields?_object, fields?_object, members]
  cases (object fields).members? with
  | none => rfl
  | some ms =>
    refine mapM_congr fun known hk => pick_other ms ?_
    rintro rfl
    exact unknown hk

theorem lookup_zip {names : List String} (distinct : names.Nodup) {values : List Json}
    (fits : values.length ≤ names.length) :
    (names.map fun name => List.lookup name (names.zip values)) =
      values.map some ++ List.replicate (names.length - values.length) none := by
  induction names generalizing values with
  | nil =>
    rw [List.length_eq_zero_iff.1 (Nat.le_zero.1 fits)]
    rfl
  | cons name names ih =>
    obtain ⟨fresh, distinct⟩ := List.nodup_cons.1 distinct
    cases values with
    | nil => simp [List.map_const', List.replicate_succ]
    | cons j values =>
      have later : (names.map fun n => List.lookup n ((name :: names).zip (j :: values))) =
          names.map fun n => List.lookup n (names.zip values) := by
        refine List.map_congr_left fun n hn => ?_
        have other : (n == name) = false := by
          apply beq_false_of_ne
          rintro rfl
          exact fresh hn
        rw [List.zip_cons_cons, List.lookup_cons, other]
      rw [List.map_cons, later, ih distinct (Nat.le_of_succ_le_succ fits)]
      simp

theorem fields?_array {names : List String} (distinct : names.Nodup) {values : List Json}
    (fits : values.length ≤ names.length) :
    (array values).fields? names = (obj (names.zip values)).fields? names := by
  have named : ((names.zip values).map Prod.fst).Nodup := by
    rw [List.zip_eq_zip_take_min, Nat.min_eq_right fits, List.map_fst_zip]
    · exact distinct.sublist (List.take_sublist _ _)
    · simp [fits]
  rw [fields?_obj named, lookup_zip distinct fits, fields?, if_pos fits]

structure TakesForms (names : List String) (read : Json → Option α) : Prop where
  reordered : ∀ {fields fields' : List (Bytes × Json)}, fields.Perm fields' →
    read (.object fields) = read (.object fields')
  unknown : ∀ {fields : List (Bytes × Json)} {key : Bytes} {name : String} (j : Json),
    Quoted.text? key = some name → name ∉ names →
      read (.object ((key, j) :: fields)) = read (.object fields)
  positional : ∀ {values : List Json}, values.length ≤ names.length →
    read (.array values) = read (obj (names.zip values))

theorem takesForms {names : List String} {read : Json → Option α} (distinct : names.Nodup)
    (build : List (Option Json) → Option α) (reads : ∀ j, read j = (j.fields? names).bind build) :
    TakesForms names read where
  reordered perm := by rw [reads, reads, fields?_perm perm]
  unknown j text other := by rw [reads, reads, fields?_unknown text other]
  positional fits := by rw [reads, reads, fields?_array distinct fits]

def read? (read : Json → Option α) (t : Bytes) : Option α := (parse? t).bind read

def rewrite? (write : α → Json) (read : Json → Option α) (t : Bytes) : Option Bytes :=
  (read? read t).map fun x => (write x).text

/-- What is written of a value that can be carried is read as it, and whatever text has been read is
rewritten to one that is read so again and stays as it is. -/
structure Normalizes (write : α → Json) (read : Json → Option α) (carried : α → Prop) : Prop where
  back : ∀ x, carried x → read? read (write x).text = some x
  again : ∀ t x, read? read t = some x → carried x → read? read (write x).text = some x ∧
    rewrite? write read (write x).text = some (write x).text

theorem normalizes {write : α → Json} {read : Json → Option α} {carried : α → Prop}
    (written : ∀ x, (write x).IsWritten) (back : ∀ x, carried x → read (write x) = some x) :
    Normalizes write read carried := by
  have text (x : α) (h : carried x) : read? read (write x).text = some x := by
    rw [read?, parse?_text (written x), Option.bind_some, back x h]
  refine ⟨text, fun t x _ h => ?_⟩
  have same := text x h
  refine ⟨same, ?_⟩
  rw [rewrite?, same]
  rfl

structure IsRecord (names : List String) (write : α → Json) (read : Json → Option α)
    (carried : α → Prop) : Prop extends TakesForms names read, Normalizes write read carried

theorem isRecord_of_total {names : List String} {write : α → Json} {read : Json → Option α}
    (forms : TakesForms names read) (written : ∀ x, (write x).IsWritten)
    (back : ∀ x, read (write x) = some x) : IsRecord names write read fun _ => True where
  toTakesForms := forms
  toNormalizes := normalizes written fun x _ => back x

end HealthConsensus.Json
