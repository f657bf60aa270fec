import HealthConsensus.Text.Basic
import HealthConsensus.Text.Bytes

namespace HealthConsensus

structure Contents where
  entries : List (String × Bytes)
  sorted : entries.Pairwise fun a b => a.1 < b.1

namespace Contents

def empty : Contents := ⟨[], .nil⟩

instance : Inhabited Contents := ⟨empty⟩

def insert (k : String) (v : Bytes) : List (String × Bytes) → List (String × Bytes)
  | [] => [(k, v)]
  | e :: es =>
    if k < e.1 then (k, v) :: e :: es
    else if k = e.1 then (k, v) :: es
    else e :: insert k v es

theorem mem_insert {k : String} {v : Bytes} {es : List (String × Bytes)} {x : String × Bytes}
    (h : x ∈ insert k v es) : x = (k, v) ∨ x ∈ es := by
  induction es with
  | nil => simpa [insert] using h
  | cons e es ih =>
    unfold insert at h
    split at h
    · simpa using h
    · split at h
      · rcases List.mem_cons.1 h with h | h
        · exact .inl h
        · exact .inr (List.mem_cons_of_mem _ h)
      · rcases List.mem_cons.1 h with h | h
        · exact .inr (h ▸ List.mem_cons_self)
        · exact (ih h).imp id (List.mem_cons_of_mem _)

theorem lt_of_not_lt_of_ne {a b : String} (h : ¬ a < b) (hne : a ≠ b) : b < a :=
  Decidable.byContradiction fun h' => hne (String.le_antisymm h' h)

theorem insert_sorted (k : String) (v : Bytes) {es : List (String × Bytes)}
    (h : es.Pairwise fun a b => a.1 < b.1) : (insert k v es).Pairwise fun a b => a.1 < b.1 := by
  induction es with
  | nil => simp [insert]
  | cons e es ih =>
    obtain ⟨first, rest⟩ := List.pairwise_cons.1 h
    unfold insert
    split
    · next hlt =>
      refine List.pairwise_cons.2 ⟨?_, h⟩
      intro x hx
      rcases List.mem_cons.1 hx with hx | hx
      · exact hx ▸ hlt
      · exact String.lt_trans hlt (first x hx)
    · next hge =>
      split
      · next heq => exact List.pairwise_cons.2 ⟨fun x hx => heq ▸ first x hx, rest⟩
      · next hne =>
        refine List.pairwise_cons.2 ⟨?_, ih rest⟩
        intro x hx
        rcases mem_insert hx with hx | hx
        · exact hx ▸ lt_of_not_lt_of_ne hge hne
        · exact first x hx

def get? (k : String) (c : Contents) : Option Bytes :=
  (c.entries.find? fun e => e.1 = k).map Prod.snd

def set (k : String) (v : Bytes) (c : Contents) : Contents :=
  ⟨insert k v c.entries, insert_sorted k v c.sorted⟩

def erase (k : String) (c : Contents) : Contents where
  entries := c.entries.filter fun e => e.1 ≠ k
  sorted := c.sorted.filter _

/-- The entries whose keys start with a text: from the first key that is not less than it, as long
as keys start with it. -/
def under (start : String) (c : Contents) : List (String × Bytes) :=
  (c.entries.dropWhile fun e => e.1 < start).takeWhile fun e => startsWith start e.1

end Contents

end HealthConsensus
