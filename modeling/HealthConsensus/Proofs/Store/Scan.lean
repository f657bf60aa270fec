import HealthConsensus.Proofs.Store.Contents
import HealthConsensus.Proofs.Text.Bytes
import HealthConsensus.Store.Memory
import Mathlib.Data.List.TakeWhile

namespace HealthConsensus

namespace Bytes

theorem startsWith_iff_prefix {start s : String} :
    startsWith start s = true ↔ ofString start <+: ofString s := by
  rw [startsWith_iff, ofString_prefix_iff]

end Bytes

namespace Contents

variable (c : Contents) (start : String)

theorem ascending_bytes : c.entries.Pairwise fun a b => Bytes.ofString a.1 < Bytes.ofString b.1 :=
  c.sorted.imp Bytes.ofString_lt_iff.2

theorem entries_eq_scan : ∃ before behind, c.entries = before ++ (c.under start ++ behind) ∧
    (∀ e ∈ before, e.1 < start) ∧ ∀ e ∈ behind, startsWith start e.1 = false := by
  let rest := c.entries.dropWhile fun e => e.1 < start
  let behind := rest.dropWhile fun e => startsWith start e.1
  have parts : c.entries =
      (c.entries.takeWhile fun e => e.1 < start) ++ (c.under start ++ behind) := by
    rw [under, List.takeWhile_append_dropWhile, List.takeWhile_append_dropWhile]
  refine ⟨_, behind, parts, fun e he => by simpa using List.mem_takeWhile_imp he, fun e he => ?_⟩
  -- an entry with the start is listed, and no entry is there twice
  refine Bool.eq_false_iff.2 fun starts => ?_
  have there : e ∈ c.entries := by
    rw [parts]
    exact List.mem_append_right _ (List.mem_append_right _ he)
  have listed : e ∈ c.under start := by
    rw [under_eq_filter]
    exact List.mem_filter.2 ⟨there, starts⟩
  have once := nodup_of_ascending c.sorted
  rw [parts] at once
  exact List.disjoint_of_nodup_append (List.nodup_append.1 once).2.1 listed he

end Contents

namespace MemoryStore

theorem get_open (c : Contents) (k : String) :
    (get k ⟨c, true⟩).result = .ok (c.get? k) := rfl

theorem list_open (c : Contents) (start : String) :
    (list start ⟨c, true⟩).result = .ok (c.under start) := rfl

theorem list_exact (c : Contents) (start : String) :
    ∃ listed, (list start ⟨c, true⟩).result = .ok listed ∧
      (∀ k v, (k, v) ∈ listed ↔
        (get k ⟨c, true⟩).result = .ok (some v) ∧ Bytes.ofString start <+: Bytes.ofString k) ∧
      (listed.Pairwise fun a b => Bytes.ofString a.1 < Bytes.ofString b.1) ∧
      ∃ before behind, c.entries = before ++ (listed ++ behind) ∧
        (∀ e ∈ before, Bytes.ofString e.1 < Bytes.ofString start) ∧
        ∀ e ∈ behind, ¬Bytes.ofString start <+: Bytes.ofString e.1 := by
  refine ⟨c.under start, list_open c start, fun k v => ?_, ?_, ?_⟩
  · rw [Contents.mem_under_iff, get_open, Except.ok.injEq, Bytes.startsWith_iff_prefix]
  · rw [Contents.under_eq_filter]
    exact c.ascending_bytes.filter _
  · obtain ⟨before, behind, parts, below, beyond⟩ := c.entries_eq_scan start
    refine ⟨before, behind, parts, fun e he => Bytes.ofString_lt_iff.2 (below e he), ?_⟩
    intro e he starts
    rw [← Bytes.startsWith_iff_prefix, beyond e he] at starts
    cases starts

example :
    let keys := ["aé", "b", "", "a\x7f", "é", "a", "a😀", "A"]
    let c := keys.foldl (fun c k => c.set k []) Contents.empty
    (list "a" ⟨c, true⟩).result.toOption.map (List.map Prod.fst) =
      some ["a", "a\x7f", "aé", "a😀"] := by
  decide +kernel

end MemoryStore

end HealthConsensus
