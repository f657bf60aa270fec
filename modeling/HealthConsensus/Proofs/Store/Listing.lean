import HealthConsensus.Proofs.Store.Contents
import HealthConsensus.Proofs.Store.Glob
import HealthConsensus.Store.RedisServer

namespace HealthConsensus

section Peers

variable {σ : Type} {peer : RedisPeer σ} {pattern start : String} {cursor : Nat}
  {pages : List KeyPage} {value : String → Option Bytes} {keys : List String} {k : String}
  {v : Bytes} {s t u : σ}

inductive IsWhole : List KeyPage → Prop
  | last {page : KeyPage} (ends : page.next = 0) : IsWhole [page]
  | more {page : KeyPage} {later : List KeyPage} (next : page.next ≠ 0) (rest : IsWhole later) :
    IsWhole (page :: later)

namespace RedisPeer

inductive Sends (peer : RedisPeer σ) (pattern : String) : Nat → σ → List KeyPage → σ → Prop
  | last {cursor : Nat} {s t : σ} {page : KeyPage}
    (answer : peer.scan cursor pattern s = (.ok page, t)) (ends : page.next = 0) :
    Sends peer pattern cursor s [page] t
  | more {cursor : Nat} {s t u : σ} {page : KeyPage} {later : List KeyPage}
    (answer : peer.scan cursor pattern s = (.ok page, t)) (next : page.next ≠ 0)
    (rest : Sends peer pattern page.next t later u) :
    Sends peer pattern cursor s (page :: later) u

inductive Gives (peer : RedisPeer σ) (value : String → Option Bytes) : List String → σ → σ → Prop
  | done {s : σ} : Gives peer value [] s s
  | key {k : String} {ks : List String} {s t u : σ} (answer : peer.get k s = (.ok (value k), t))
    (rest : Gives peer value ks t u) : Gives peer value (k :: ks) s u

theorem pages_of_sends (h : peer.Sends pattern cursor s pages t) :
    peer.pages pattern cursor s = some (.ok pages, t) := by
  induction h with
  | last answer ends =>
    rw [RedisPeer.pages, RedisTalk.bind_ok (congrArg some answer), if_pos ends]
    rfl
  | more answer next _ ih =>
    rw [RedisPeer.pages, RedisTalk.bind_ok (congrArg some answer), if_neg next,
      RedisTalk.bind_ok ih]
    rfl

theorem values_of_gives (h : peer.Gives value keys s t) :
    peer.values keys s = some (.ok (keys.map fun k => (k, value k)), t) := by
  induction h with
  | done => rfl
  | key answer _ ih =>
    rw [values, RedisTalk.bind_ok (congrArg some answer), RedisTalk.bind_ok ih]
    rfl

/-- In the states of a kind the peer holds some contents: it sends every key that fits a pattern at
least once and no others, gives the values that there are, and stays in a state of the kind. -/
structure Serves (peer : RedisPeer σ) (c : Contents) (holds : σ → Prop) : Prop where
  sends : ∀ pattern s, holds s → ∃ pages t, peer.Sends pattern 0 s pages t ∧ holds t ∧
    ∀ k, (∃ page ∈ pages, k ∈ page.keys) ↔
      (c.get? k).isSome = true ∧ Glob.isMatch (Bytes.ofString pattern) (Bytes.ofString k) = true
  gives : ∀ k s, holds s → ∃ t, peer.get k s = (.ok (c.get? k), t) ∧ holds t

def scripted (value : String → Option Bytes) : RedisPeer (List KeyPage) where
  scan _ _
    | [] => (.ok ⟨0, []⟩, [])
    | page :: later => (.ok page, later)
  get k later := (.ok (value k), later)

theorem scripted_sends (whole : IsWhole pages) (value : String → Option Bytes) (pattern : String)
    (cursor : Nat) : (scripted value).Sends pattern cursor pages pages [] := by
  induction whole generalizing cursor with
  | last ends => exact .last rfl ends
  | more next _ ih => exact .more rfl next (ih _)

theorem scripted_gives (value : String → Option Bytes) (keys : List String)
    (pages : List KeyPage) : (scripted value).Gives value keys pages pages := by
  induction keys with
  | nil => exact .done
  | cons k ks ih => exact .key rfl ih

end RedisPeer

namespace RedisStore

theorem mem_withoutRepeats : k ∈ withoutRepeats keys ↔ k ∈ keys := by
  fun_induction withoutRepeats keys with
  | case1 a rest ih =>
    rw [ih, List.mem_cons (l := _ :: rest),
      or_iff_right_of_imp fun same => same ▸ List.mem_cons_self]
  | case2 a b rest _ ih => rw [List.mem_cons, ih, ← List.mem_cons]
  | case3 => rfl

theorem withoutRepeats_ascending (h : keys.Pairwise (· ≤ ·)) :
    (withoutRepeats keys).Pairwise (· < ·) := by
  fun_induction withoutRepeats keys with
  | case1 a rest ih => exact ih h.of_cons
  | case2 a b rest other ih =>
    obtain ⟨first, later⟩ := List.pairwise_cons.1 h
    obtain ⟨second, -⟩ := List.pairwise_cons.1 later
    have less : a < b :=
      Contents.lt_of_not_lt_of_ne (first b List.mem_cons_self) fun same => other same.symm
    refine List.pairwise_cons.2 ⟨fun c hc => ?_, ih later⟩
    rcases List.mem_cons.1 (mem_withoutRepeats.1 hc) with rfl | hc
    · exact less
    · exact Std.lt_of_lt_of_le less (second c hc)
  | case3 keys few =>
    cases keys with
    | nil => exact .nil
    | cons a rest =>
      cases rest with
      | nil => exact List.pairwise_singleton _ a
      | cons b rest => exact absurd rfl (few a b rest)

theorem mem_sortedKeys : k ∈ sortedKeys pages ↔ ∃ page ∈ pages, k ∈ page.keys := by
  rw [sortedKeys, mem_withoutRepeats, List.mem_mergeSort, List.mem_flatMap]

theorem sortedKeys_ascending (pages : List KeyPage) : (sortedKeys pages).Pairwise (· < ·) := by
  apply withoutRepeats_ascending
  have sorted := @List.pairwise_mergeSort String (fun a b => decide (a ≤ b))
    (fun a b c => by simpa using String.le_trans) (fun a b => by simpa using String.le_total a b)
    (pages.flatMap KeyPage.keys)
  simpa using sorted

def found (pages : List KeyPage) (value : String → Option Bytes) : List (String × Bytes) :=
  present ((sortedKeys pages).map fun k => (k, value k))

theorem list_of_sends (sends : peer.Sends (Glob.ofStart start) 0 s pages t)
    (gives : peer.Gives value (sortedKeys pages) t u) :
    list peer start s = some (.ok (found pages value), u) := by
  rw [list, RedisTalk.bind_ok (RedisPeer.pages_of_sends sends),
    RedisTalk.bind_ok (RedisPeer.values_of_gives gives)]
  rfl

theorem mem_found : (k, v) ∈ found pages value ↔
    (∃ page ∈ pages, k ∈ page.keys) ∧ value k = some v := by
  simp only [found, present, List.filterMap_map, List.mem_filterMap, Function.comp_apply,
    Option.map_eq_some_iff, Prod.mk.injEq, mem_sortedKeys]
  constructor
  · rintro ⟨_, listed, _, here, rfl, rfl⟩
    exact ⟨listed, here⟩
  · rintro ⟨listed, here⟩
    exact ⟨k, listed, v, here, rfl, rfl⟩

theorem found_ascending (pages : List KeyPage) (value : String → Option Bytes) :
    (found pages value).Pairwise fun a b => a.1 < b.1 := by
  simp only [found, present, List.filterMap_map]
  refine (sortedKeys_ascending pages).filterMap _ fun a b less x hx y hy => ?_
  obtain ⟨_, -, rfl⟩ := Option.map_eq_some_iff.1 hx
  obtain ⟨_, -, rfl⟩ := Option.map_eq_some_iff.1 hy
  exact less

theorem gives_of_serves {c : Contents} {holds : σ → Prop} (serves : peer.Serves c holds)
    (keys : List String) (hs : holds s) : ∃ t, peer.Gives c.get? keys s t ∧ holds t := by
  induction keys generalizing s with
  | nil => exact ⟨s, .done, hs⟩
  | cons k ks ih =>
    obtain ⟨t, answer, ht⟩ := serves.gives k s hs
    obtain ⟨u, rest, hu⟩ := ih ht
    exact ⟨u, .key answer rest, hu⟩

theorem list_of_serves {c : Contents} {holds : σ → Prop} (serves : peer.Serves c holds)
    (start : String) (hs : holds s) :
    ∃ t, holds t ∧ list peer start s = some (.ok (c.under start), t) := by
  obtain ⟨pages, t, sends, ht, listed⟩ := serves.sends (Glob.ofStart start) s hs
  obtain ⟨u, gives, hu⟩ := gives_of_serves serves (sortedKeys pages) ht
  have same : found pages c.get? = c.under start := by
    apply Contents.eq_of_ascending (found_ascending pages c.get?)
    · rw [Contents.under_eq_filter]
      exact c.sorted.filter _
    · rintro ⟨k, v⟩
      rw [mem_found, listed, Glob.isMatch_ofStart, Contents.mem_under_iff]
      constructor
      · rintro ⟨⟨-, starts⟩, there⟩
        exact ⟨there, starts⟩
      · rintro ⟨there, starts⟩
        exact ⟨⟨there ▸ rfl, starts⟩, there⟩
  exact ⟨u, hu, same ▸ list_of_sends sends gives⟩

end RedisStore

end Peers

namespace RedisServer

structure Keeps (c : Contents) (s : RedisServer) : Prop where
  contents : s.contents = c
  refused : s.refused = []
  vanishing : s.vanishing = []

variable {c : Contents} {s : RedisServer} {k pattern : String} {cursor : Nat}

theorem take_of_keeps (h : s.Keeps c) (command : RedisCommand) :
    s.take command = (.ok (), { s with sent := command :: s.sent }) := by
  rw [take, h.refused]
  rfl

theorem vanish_of_keeps (h : s.Keeps c) : s.vanish = s := by
  obtain ⟨contents, _, _, _, vanishing, _, _⟩ := s
  cases h.vanishing
  rfl

theorem scan_of_keeps (h : s.Keeps c) (cursor : Nat) (pattern : String) :
    ∃ t, s.scan cursor pattern = (.ok (s.page cursor pattern), t) ∧ t.Keeps c ∧
      t.matching pattern = s.matching pattern := by
  refine ⟨{ s with sent := .scan cursor pattern :: s.sent }, ?_, ⟨h.1, h.2, h.3⟩, rfl⟩
  have noted : Keeps c { s with sent := .scan cursor pattern :: s.sent } := ⟨h.1, h.2, h.3⟩
  rw [scan, take_of_keeps h]
  simp only [vanish_of_keeps noted, ite_self]
  rfl

theorem mem_matching (h : s.Keeps c) : k ∈ s.matching pattern ↔
    (c.get? k).isSome = true ∧ Glob.isMatch (Bytes.ofString pattern) (Bytes.ofString k) = true := by
  have there : k ∈ c.entries.map Prod.fst ↔ (c.get? k).isSome = true := by
    simp only [List.mem_map, Option.isSome_iff_exists, Contents.get?_eq_some_iff]
    constructor
    · rintro ⟨⟨k, v⟩, listed, rfl⟩
      exact ⟨v, listed⟩
    · rintro ⟨v, listed⟩
      exact ⟨(k, v), listed, rfl⟩
  rw [matching, h.contents, List.mem_reverse, List.mem_filter, there]

theorem mem_page (hk : k ∈ (s.page cursor pattern).keys) : k ∈ s.matching pattern := by
  simp only [page, List.mem_append] at hk
  rcases hk with again | here
  · split at again
    · exact List.mem_of_getElem? (Option.mem_toList.1 again)
    · cases again
  · exact List.mem_of_mem_drop (List.mem_of_mem_take here)

theorem page_covers (hk : k ∈ (s.matching pattern).drop cursor) :
    k ∈ (s.page cursor pattern).keys ∨
      k ∈ (s.matching pattern).drop (cursor + s.pageSize) := by
  rw [← List.take_append_drop s.pageSize ((s.matching pattern).drop cursor), List.drop_drop,
    List.mem_append] at hk
  exact hk.imp_left (List.mem_append_right _)

theorem drop_of_last (last : (s.page cursor pattern).next = 0) :
    (s.matching pattern).drop (cursor + s.pageSize) = [] := by
  have := s.positive
  simp only [page] at last
  split at last
  · omega
  · next outside => exact List.drop_of_length_le (Nat.not_lt.1 outside)

theorem sends_of_keeps {s : RedisServer} (h : s.Keeps c) (cursor : Nat) (pattern : String) :
    ∃ pages t, peer.Sends pattern cursor s pages t ∧ t.Keeps c ∧
      (∀ k ∈ (s.matching pattern).drop cursor, ∃ page ∈ pages, k ∈ page.keys) ∧
      ∀ page ∈ pages, ∀ k ∈ page.keys, k ∈ s.matching pattern := by
  obtain ⟨t, answer, ht, same⟩ := scan_of_keeps h cursor pattern
  by_cases last : (s.page cursor pattern).next = 0
  · refine ⟨[s.page cursor pattern], t, .last answer last, ht, fun k hk => ?_, ?_⟩
    · rcases page_covers hk with here | behind
      · exact ⟨_, List.mem_singleton_self _, here⟩
      · rw [drop_of_last last] at behind
        cases behind
    · rintro page hp k hk
      obtain rfl := List.mem_singleton.1 hp
      exact mem_page hk
  · obtain ⟨next, bound⟩ := page_next last
    have := s.positive
    obtain ⟨later, u, rest, hu, covered, fits⟩ :=
      sends_of_keeps ht (s.page cursor pattern).next pattern
    rw [same] at covered fits
    refine ⟨s.page cursor pattern :: later, u, .more answer last rest, hu, fun k hk => ?_, ?_⟩
    · rcases page_covers hk with here | behind
      · exact ⟨_, List.mem_cons_self, here⟩
      · obtain ⟨page, hp, hk⟩ := covered k (next ▸ behind)
        exact ⟨page, List.mem_cons_of_mem _ hp, hk⟩
    · rintro page hp k hk
      rcases List.mem_cons.1 hp with rfl | hp
      · exact mem_page hk
      · exact fits page hp k hk
termination_by (s.matching pattern).length - cursor
decreasing_by rw [same, next]; omega

theorem serves (c : Contents) : peer.Serves c (Keeps c) where
  sends pattern s h := by
    obtain ⟨pages, t, sends, ht, covered, fits⟩ := sends_of_keeps h 0 pattern
    refine ⟨pages, t, sends, ht, fun k => ?_⟩
    rw [← mem_matching h]
    constructor
    · rintro ⟨page, hp, hk⟩
      exact fits page hp k hk
    · exact covered k
  gives k s h := by
    refine ⟨{ s with sent := .get k :: s.sent }, ?_, ⟨h.1, h.2, h.3⟩⟩
    change s.get k = _
    rw [get, take_of_keeps h, ← h.contents]
    rfl

end RedisServer

/-- Listing keeps each key that is on a page and has a value, once and in order of bytes. A peer
that holds some contents is thus listed as a store in memory with the same contents. -/
theorem RedisStore.list_agrees_with_memory :
    (∀ {σ : Type} {peer : RedisPeer σ} {start : String} {pages : List KeyPage}
      {value : String → Option Bytes} {s t u : σ},
      peer.Sends (Glob.ofStart start) 0 s pages t → peer.Gives value (sortedKeys pages) t u →
      ∃ entries, list peer start s = some (.ok entries, u) ∧
        (∀ k v, (k, v) ∈ entries ↔ (∃ page ∈ pages, k ∈ page.keys) ∧ value k = some v) ∧
        entries.Pairwise fun a b => Bytes.ofString a.1 < Bytes.ofString b.1) ∧
    (∀ {pages : List KeyPage}, IsWhole pages → ∀ (value : String → Option Bytes) (pattern : String)
      (keys : List String), (RedisPeer.scripted value).Sends pattern 0 pages pages [] ∧
        (RedisPeer.scripted value).Gives value keys [] []) ∧
    (∀ {σ : Type} {peer : RedisPeer σ} {c : Contents} {holds : σ → Prop}, peer.Serves c holds →
      ∀ (start : String) (s : σ), holds s → ∃ t, holds t ∧
        list peer start s = some ((MemoryStore.list start ⟨c, true⟩).result, t)) := by
  refine ⟨?_, ?_, ?_⟩
  · intro σ peer start pages value s t u sends gives
    refine ⟨found pages value, list_of_sends sends gives, fun k v => mem_found, ?_⟩
    exact (found_ascending pages value).imp Bytes.ofString_lt_iff.2
  · intro pages whole value pattern keys
    exact ⟨RedisPeer.scripted_sends whole value pattern 0, RedisPeer.scripted_gives value keys []⟩
  · intro σ peer c holds serves start s hs
    exact list_of_serves serves start hs

theorem RedisStore.list_agrees_with_memory_repeated :
    let pages : List KeyPage := [⟨7, ["b", "a"]⟩, ⟨3, []⟩, ⟨0, ["c", "b"]⟩]
    let value : String → Option Bytes := fun k => if k = "a" then none else some [1]
    let contents := ((Contents.empty.set "ax" [1]).set "a*y" [2]).set "a*x" [3]
    let server : RedisServer := ⟨contents, 1, by decide, true, [], [], []⟩
    (∃ entries, list (.scripted value) "" pages = some (.ok entries, []) ∧
      ("b", [1]) ∈ entries ∧ ∀ v, ("a", v) ∉ entries) ∧
    ∃ t, list RedisServer.peer "a*" server = some (.ok [("a*x", [3]), ("a*y", [2])], t) := by
  intro pages value contents server
  obtain ⟨general, scripts, serving⟩ := RedisStore.list_agrees_with_memory
  have whole : IsWhole pages := .more (by decide) (.more (by decide) (.last rfl))
  obtain ⟨sends, gives⟩ := scripts whole value (Glob.ofStart "") (sortedKeys pages)
  obtain ⟨entries, listed, mem_iff, -⟩ := general sends gives
  obtain ⟨t, -, answer⟩ := serving (RedisServer.serves contents) "a*" server ⟨rfl, rfl, rfl⟩
  refine ⟨⟨entries, listed, ?_, fun v => ?_⟩, t, answer⟩
  · exact (mem_iff "b" [1]).2 ⟨⟨_, List.mem_cons_self, by decide⟩, rfl⟩
  · intro there
    cases ((mem_iff "a" v).1 there).2

end HealthConsensus
