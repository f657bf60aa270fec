import HealthConsensus.Proofs.Node.Restart
import HealthConsensus.Proofs.Text.Bytes

namespace HealthConsensus

namespace Contents

def only (keep : String × Bytes → Bool) (c : Contents) : Contents where
  entries := c.entries.filter keep
  sorted := c.sorted.filter keep

end Contents

section Records

variable {κ ν : Type} {K : RecordKind κ ν}

namespace Filing

variable (F : Filing K) (read : Bytes → Option ν)

def holds (e : String × Bytes) : Bool := startsWith F.folder e.1 && (read e.2).isSome

def records (c : Contents) : List (String × ν) :=
  (c.under F.folder).filterMap fun e => (read e.2).map (Prod.mk e.1)

variable {F read} {c : Contents}

theorem records_map_snd : (F.records read c).map Prod.snd = F.listed read c := by
  simp [records, listed, List.map_filterMap, Function.comp_def]

theorem mem_records_iff {s : String} {b : ν} :
    (s, b) ∈ F.records read c ↔
      ∃ v, c.get? s = some v ∧ startsWith F.folder s = true ∧ read v = some b := by
  rw [records, List.mem_filterMap]
  constructor
  · rintro ⟨⟨s', v⟩, there, made⟩
    obtain ⟨b', readable, same⟩ := Option.map_eq_some_iff.1 made
    cases same
    obtain ⟨found, inside⟩ := Contents.mem_under_iff.1 there
    exact ⟨v, found, inside, readable⟩
  · rintro ⟨v, found, inside, readable⟩
    exact ⟨(s, v), Contents.mem_under_iff.2 ⟨found, inside⟩, by simp [readable]⟩

theorem records_ascending : (F.records read c).Pairwise fun a b => a.1 < b.1 := by
  have under : (c.under F.folder).Pairwise fun a b => a.1 < b.1 := by
    rw [Contents.under_eq_filter]
    exact c.sorted.filter _
  refine List.pairwise_filterMap.2 (under.imp fun {e e'} less x hx y hy => ?_)
  obtain ⟨b, -, rfl⟩ := Option.map_eq_some_iff.1 hx
  obtain ⟨b', -, rfl⟩ := Option.map_eq_some_iff.1 hy
  exact less

theorem length_listed : (F.listed read c).length = c.entries.countP (F.holds read) := by
  rw [listed, Contents.under_eq_filter, List.length_filterMap_eq_countP, List.countP_filter]
  apply List.countP_congr
  simp [holds, and_comm]

theorem listed_only : F.listed read (c.only (F.holds read)) = F.listed read c := by
  simp only [listed, Contents.under_eq_filter, Contents.only, List.filter_filter,
    List.filterMap_filter]
  apply List.filterMap_congr
  intro e _
  cases readable : read e.2 with
  | none => simp
  | some b => cases inside : startsWith F.folder e.1 <;> simp [holds, readable, inside]

end Filing

variable [DecidableEq κ]

namespace Table

variable {key : ν → κ} {k : κ} {b : ν}

theorem setAll_concat (bs : List ν) (t : Table κ ν) :
    t.setAll key (bs ++ [b]) = (t.setAll key bs).set (key b) b := List.foldl_append

theorem get?_setAll_ascending {xs : List (String × ν)}
    (ascending : xs.Pairwise fun a b => a.1 < b.1) :
    ((empty : Table κ ν).setAll key (xs.map Prod.snd)).get? k = some b ↔
      ∃ s, (s, b) ∈ xs ∧ key b = k ∧ ∀ e ∈ xs, key e.2 = k → ¬s < e.1 := by
  induction xs using List.reverseRecOn with
  | nil => simp [setAll]
  | append_singleton xs x ih =>
    obtain ⟨earlier, -, before⟩ := List.pairwise_append.1 ascending
    have less : ∀ e ∈ xs, e.1 < x.1 := fun e he => before e he x List.mem_cons_self
    rw [List.map_append, List.map_singleton, setAll_concat, get?_set]
    simp only [List.mem_append, List.mem_singleton]
    split
    · next own =>
      constructor
      · intro same
        cases same
        refine ⟨x.1, .inr rfl, own.symm, ?_⟩
        rintro e (he | rfl) - more
        · exact String.lt_irrefl _ (String.lt_trans more (less e he))
        · exact String.lt_irrefl _ more
      · rintro ⟨s, there | rfl, -, last⟩
        · exact absurd (less _ there) (last x (.inr rfl) own.symm)
        · rfl
    · next other =>
      rw [ih earlier]
      constructor
      · rintro ⟨s, there, own, last⟩
        refine ⟨s, .inl there, own, ?_⟩
        rintro e (he | rfl) same
        · exact last e he same
        · exact absurd same.symm other
      · rintro ⟨s, there | rfl, own, last⟩
        · exact ⟨s, there, own, fun e he => last e (.inl he)⟩
        · exact absurd own.symm other

end Table

end Records

namespace Node

section Loads

variable {κ ν : Type} [DecidableEq κ] {K : RecordKind κ ν}

structure Loads (F : Filing K) (read : Bytes → Option ν)
    (load : Node → Operation NodeState (Except Error Nat)) (into : Table κ ν → Contents → Node)
    (c : Contents) (records : List (String × ν)) (t : Table κ ν) : Prop where
  ascending : records.Pairwise fun a b => Bytes.ofString a.1 < Bytes.ofString b.1
  mem : ∀ s b, (s, b) ∈ records ↔
    ∃ v, c.get? s = some v ∧ startsWith F.folder s = true ∧ read v = some b
  count : records.length = c.entries.countP (F.holds read)
  inserted : t = Table.empty.setAll K.key (records.map Prod.snd)
  latest : ∀ k b, t.get? k = some b ↔ ∃ s, (s, b) ∈ records ∧ K.key b = k ∧
    ∀ e ∈ records, K.key e.2 = k → ¬Bytes.ofString s < Bytes.ofString e.1
  outcome : ∃ log, (into .empty c).perform (load (into .empty c)) =
    (.ok records.length, into t c, ⟨[], [], log⟩)
  outcomeOfReadable : let d := c.only (F.holds read)
    ∃ log, (into .empty d).perform (load (into .empty d)) =
      (.ok records.length, into t d, ⟨[], [], log⟩)

theorem loads {F : Filing K} {read : Bytes → Option ν}
    {load : Node → Operation NodeState (Except Error Nat)} {into : Table κ ν → Contents → Node}
    (h : ∀ c, ∃ log, (into .empty c).perform (load (into .empty c)) =
      (.ok (F.listed read c).length, into (Table.empty.setAll K.key (F.listed read c)) c,
        ⟨[], [], log⟩)) (c : Contents) :
    Loads F read load into c (F.records read c) (Table.empty.setAll K.key (F.listed read c)) := by
  have length : (F.records read c).length = (F.listed read c).length := by
    rw [← Filing.records_map_snd, List.length_map]
  refine ⟨?_, fun s b => Filing.mem_records_iff, ?_, ?_, fun k b => ?_, ?_, ?_⟩
  · exact Filing.records_ascending.imp Bytes.ofString_lt_iff.2
  · rw [length, Filing.length_listed]
  · rw [Filing.records_map_snd]
  · simp only [Bytes.ofString_lt_iff]
    rw [← Filing.records_map_snd]
    exact Table.get?_setAll_ascending Filing.records_ascending
  · rw [length]
    exact h c
  · rw [length, ← Filing.listed_only]
    exact h _

end Loads

end Node

section Announcements

variable {σ : Type}

abbrev AnnouncesNothing : σ → Effects → σ → Prop := fun _ e _ => e.changes = []

theorem announcesNothing_law : Operation.Law (AnnouncesNothing (σ := σ)) where
  silent _ _ := rfl
  comp hd he := List.append_eq_nil_iff.2 ⟨hd, he⟩

end Announcements

theorem Loader.load_changes {κ ν : Type} [DecidableEq κ] (l : Loader κ ν)
    (listing : Option (Except Error (List (String × Bytes)))) (t : Table κ ν) :
    (l.load listing t).effects.changes = [] :=
  load_obeys announcesNothing_law (fun _ _ => rfl) listing t

theorem Registry.status_of_readAt {p : RegistryPolicy} {now : Instant} {v : Bytes} {b : Backend}
    (h : readAt p now v = some b) : b.status = b.statusAt now p.staleAfter := by
  obtain ⟨stored, -, rfl⟩ := Option.map_eq_some_iff.1 h
  rfl

namespace Node

def withRegistry (n : Node) (r : Registry) (c : Contents) : Node :=
  { n with storage := .memory ⟨c, true⟩, state := { n.state with registry := r } }

def withPins (n : Node) (ps : Pins) (c : Contents) : Node :=
  { n with storage := .memory ⟨c, true⟩, state := { n.state with pins := ps } }

theorem perform_load {κ ν : Type} [DecidableEq κ] (l : Loader κ ν) (part : NodeState → Table κ ν)
    (replace : Table κ ν → NodeState → NodeState) (records : List (String × Bytes)) (n : Node)
    (nothing : part n.state = .empty) :
    ∃ log, n.perform ((l.load (some (.ok records))).on part replace) =
      (.ok (l.readable records).length,
        { n with state := replace (Table.empty.setAll l.key (l.readable records)) n.state },
        ⟨[], [], log⟩) := by
  have blind : (l.load (some (.ok records))).Blind := Loader.load_blind _
  have quiet : ((l.load (some (.ok records))).on part replace n.state).effects.writes = [] :=
    l.load_writes (some (.ok records)) (part n.state)
  rw [perform_quiet (blind.on part replace) quiet, Operation.on_apply, nothing, l.load_state,
    l.load_changes]
  exact ⟨_, rfl⟩

theorem perform_loadBackends (n : Node) (now : Instant) (c : Contents) :
    let found := backendFiling.listed (Registry.readAt n.policy.registry now) c
    ∃ log, (n.withRegistry .empty c).perform (loadBackends now (n.withRegistry .empty c)) =
      (.ok found.length, n.withRegistry (Table.empty.setAll Backend.key found) c, ⟨[], [], log⟩) :=
  perform_load (Registry.loader n.policy.registry now) NodeState.registry
    (fun r state => { state with registry := r }) (c.under BackendKey.storeFolder)
    (n.withRegistry .empty c) rfl

theorem perform_loadPins (n : Node) (c : Contents) :
    let found := pinFiling.listed Pin.ofRecord? c
    ∃ log, (n.withPins .empty c).perform (loadPins (n.withPins .empty c)) =
      (.ok found.length, n.withPins (Table.empty.setAll Pin.agentId found) c, ⟨[], [], log⟩) :=
  perform_load Pins.loader NodeState.pins (fun ps state => { state with pins := ps })
    (c.under Pin.storeFolder) (n.withPins .empty c) rfl

theorem loading_exact (n : Node) (c : Contents) (now : Instant) :
    (∃ records t, Loads backendFiling (Registry.readAt n.policy.registry now) (loadBackends now)
        n.withRegistry c records t ∧
      ∀ k b, t.get? k = some b → b.status = b.statusAt now n.policy.registry.staleAfter) ∧
    ∃ records t, Loads pinFiling Pin.ofRecord? loadPins n.withPins c records t := by
  have backends := loads (F := backendFiling) (perform_loadBackends n now) c
  have pins := loads (F := pinFiling) (perform_loadPins n) c
  refine ⟨⟨_, _, backends, fun k b there => ?_⟩, _, _, pins⟩
  obtain ⟨s, there, -, -⟩ := (backends.latest k b).1 there
  obtain ⟨v, -, -, readable⟩ := (backends.mem s b).1 there
  exact Registry.status_of_readAt readable

end Node

end HealthConsensus
