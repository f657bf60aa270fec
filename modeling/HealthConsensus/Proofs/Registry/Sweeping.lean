import HealthConsensus.Proofs.Registry.News

namespace HealthConsensus

namespace Table

variable {κ ν : Type}

theorem eq_of_entries_eq {t t' : Table κ ν} (h : t.entries = t'.entries) : t = t' := by
  cases t
  cases t'
  cases h
  rfl

theorem filter_eq_self {t : Table κ ν} {keep : κ → ν → Bool}
    (h : ∀ e ∈ t.entries, keep e.1 e.2 = true) : t.filter keep = t :=
  eq_of_entries_eq (List.filter_eq_self.2 h)

theorem map_eq_self {t : Table κ ν} {change : κ → ν → ν}
    (h : ∀ e ∈ t.entries, change e.1 e.2 = e.2) : t.map change = t :=
  eq_of_entries_eq <|
    calc t.entries.map (fun e => (e.1, change e.1 e.2)) = t.entries.map id :=
          List.map_congr_left fun e he => Prod.ext rfl (h e he)
      _ = t.entries := List.map_id _

end Table

theorem Effects.concat_eq_none {es : List Effects} (h : ∀ e ∈ es, e = .none) :
    concat es = .none := by
  induction es with
  | nil => rfl
  | cons e es ih =>
    rw [List.forall_mem_cons] at h
    calc concat (e :: es) = e ++ concat es := rfl
      _ = .none := by rw [h.1, ih h.2, none_append]

namespace Registry

def overdue (p : RegistryPolicy) (now : Instant) (r : Registry) : List (BackendKey × Backend) :=
  r.entries.filter fun e => p.removeAfter < e.2.heartbeatAge now

def misjudged (p : RegistryPolicy) (now : Instant) (r : Registry) : List (BackendKey × Backend) :=
  r.entries.filter fun e =>
    e.2.heartbeatAge now ≤ p.removeAfter ∧ e.2.status ≠ e.2.statusAt now p.staleAfter

structure Swept (p : RegistryPolicy) (now : Instant) (r : Registry)
    (o : Outcome Registry SweepReport) : Prop where
  records : ∀ k, o.state.get? k =
    ((r.get? k).filter fun b => b.heartbeatAge now ≤ p.removeAfter).map fun b =>
      { b with status := b.statusAt now p.staleAfter }
  removed : o.result.removed = (overdue p now r).length
  changed : o.result.changed = (misjudged p now r).length
  size : o.result.removed + o.state.size = r.size
  changes : o.effects.changes.Perm
    (((overdue p now r).map fun e => ⟨e.2, some e.2.status, none⟩) ++
      (misjudged p now r).map fun e => ⟨{ e.2 with status := e.2.statusAt now p.staleAfter },
        some e.2.status, some (e.2.statusAt now p.staleAfter)⟩)
  writes : o.effects.writes.Perm
    (((overdue p now r).map fun e => .dropBackend e.1) ++
      (misjudged p now r).map fun e =>
        .putBackend { e.2 with status := e.2.statusAt now p.staleAfter })

variable {p : RegistryPolicy} {now : Instant} {r r' : Registry}

theorem not_isExpired (b : Backend) :
    (!b.isExpired p now) = decide (b.heartbeatAge now ≤ p.removeAfter) := by
  rw [Backend.isExpired, ← decide_not]
  exact decide_eq_decide.2 Nat.not_lt

theorem values_ages : r.values.filter (ages p now) = (misjudged p now r).map Prod.snd := by
  rw [Table.values, List.filter_map, misjudged]
  congr 2
  funext e
  simp [ages, not_isExpired]

theorem sweep_changes : (sweep p now r).effects.changes =
    ((overdue p now r).map fun e => ⟨e.2, some e.2.status, none⟩) ++
      (misjudged p now r).map fun e => ⟨e.2.refresh now p.staleAfter, some e.2.status,
        some (e.2.statusAt now p.staleAfter)⟩ := by
  simp only [sweep_apply, Effects.changes_append, Effects.changes_concat, List.flatMap_map, values_filter]
  rw [age_effects Effects.changes rfl fun _ _ => rfl, values_ages, List.flatMap_map,
    List.map_eq_flatMap, List.map_eq_flatMap]
  congr 1
  refine List.flatMap_congr fun e he => ?_
  have differs : e.2.status ≠ e.2.statusAt now p.staleAfter :=
    (of_decide_eq_true (List.mem_filter.1 he).2).2
  rw [Backend.renewal, Backend.changeTo, Backend.refresh, if_neg differs, Option.toList_some]

theorem sweep_writes : (sweep p now r).effects.writes =
    ((overdue p now r).map fun e => .dropBackend e.1) ++
      (misjudged p now r).map fun e => .putBackend (e.2.refresh now p.staleAfter) := by
  simp only [sweep_apply, Effects.writes_append, Effects.writes_concat, List.flatMap_map, values_filter]
  rw [age_effects Effects.writes rfl fun _ _ => rfl, values_ages, List.flatMap_map,
    List.map_eq_flatMap, List.map_eq_flatMap]
  rfl

theorem sweep_changed : (sweep p now r).result.changed = (misjudged p now r).length := by
  have marked (b : Backend) : (b.status != b.statusAt now p.staleAfter && !b.isExpired p now) =
      ages p now b := by
    rw [ages, Bool.and_comm, bne, beq_eq_decide, decide_not]
  rw [sweep_apply, values_filter, List.countP_filter]
  simp only [marked]
  rw [List.countP_eq_length_filter, values_ages, List.length_map]

theorem sweep_size : (sweep p now r).result.removed + (sweep p now r).state.size = r.size := by
  have split := List.length_eq_length_filter_add (l := r.entries) fun e => e.2.isExpired p now
  simpa [sweep_apply, Table.size, Table.map, Table.filter] using split.symm

theorem swept_of_view_eq (same : r'.view = r.view) : Swept p now r (sweep p now r') where
  records k := by
    have found : r'.get? k = r.get? k := congrFun same k
    rw [sweep_get?, RegistryCall.onRecord, found]
    simp only [not_isExpired]
    rfl
  removed := ((Table.entries_perm same).filter _).length_eq
  changed := sweep_changed.trans ((Table.entries_perm same).filter _).length_eq
  size := sweep_size.trans (Table.size_eq same)
  changes := by
    rw [sweep_changes]
    have entries := Table.entries_perm same
    exact ((entries.filter _).map _).append ((entries.filter _).map _)
  writes := by
    rw [sweep_writes]
    have entries := Table.entries_perm same
    exact ((entries.filter _).map _).append ((entries.filter _).map _)

def Settled (p : RegistryPolicy) (now : Instant) (r : Registry) : Prop :=
  ∀ k b, r.get? k = some b →
    b.heartbeatAge now ≤ p.removeAfter ∧ b.status = b.statusAt now p.staleAfter

theorem settled_sweep : Settled p now (sweep p now r).state := by
  intro k b found
  rw [sweep_get?] at found
  obtain ⟨b₀, -, heard, rfl⟩ := RegistryCall.onRecord_sweep found
  have kept : (!b₀.isExpired p now) = true := by
    rw [heard]
    rfl
  rw [not_isExpired] at kept
  -- refreshing again changes nothing, since the status has no part in its own judgement
  exact ⟨of_decide_eq_true kept, rfl⟩

theorem Settled.sweep_eq (h : Settled p now r) : sweep p now r = ⟨⟨0, 0⟩, r, .none⟩ := by
  have heard : ∀ e ∈ r.entries, e.2.isExpired p now = false := fun e he => by
    have young := (h e.1 e.2 (Table.get?_eq_some_iff.2 he)).1
    have kept : (!e.2.isExpired p now) = _ := not_isExpired e.2
    simpa [young] using kept
  have right : ∀ e ∈ r.entries, e.2.status = e.2.statusAt now p.staleAfter := fun e he =>
    (h e.1 e.2 (Table.get?_eq_some_iff.2 he)).2
  -- the entries keep their order too, so this is more than a table with the same view
  have gone : (Table.filter (fun _ b => b.isExpired p now) r).entries = [] :=
    List.filter_eq_nil_iff.2 fun e he => by simp [heard e he]
  have kept : Table.filter (fun _ b => !b.isExpired p now) r = r :=
    Table.filter_eq_self fun e he => by simp [heard e he]
  have state : r.map (fun _ b => b.refresh now p.staleAfter) = r :=
    Table.map_eq_self fun e he => refresh_of_status_eq (right e he)
  have unchanged : r.values.countP (fun b => b.status != b.statusAt now p.staleAfter) = 0 :=
    List.countP_eq_zero.2 fun b hb => by
      obtain ⟨e, he, rfl⟩ := List.mem_map.1 hb
      simpa using right e he
  have quiet : Effects.concat (r.values.map (sweepEffects p now)) = .none :=
    Effects.concat_eq_none fun d hd => by
      obtain ⟨b, hb, rfl⟩ := List.mem_map.1 hd
      obtain ⟨e, he, rfl⟩ := List.mem_map.1 hb
      exact if_pos (right e he)
  rw [sweep_apply, kept, state, unchanged, quiet, gone, Table.size, gone]
  rfl

/-- A sweep does the same in each order in which it visits the backends: what it is to do, and
nothing when it comes again. -/
theorem sweep_exact (p : RegistryPolicy) (now : Instant) (r : Registry)
    (order order' : Table.Arrangement BackendKey Backend) :
    let o := sweep p now (order.arrange r)
    Swept p now r o ∧ sweep p now (order'.arrange o.state) = ⟨⟨0, 0⟩, order'.arrange o.state, .none⟩ := by
  refine ⟨swept_of_view_eq (order.view_arrange r), Settled.sweep_eq fun k b found => ?_⟩
  have same := order'.view_arrange (sweep p now (order.arrange r)).state
  exact settled_sweep k b ((congrFun same k).symm.trans found)

end Registry

end HealthConsensus
