import HealthConsensus.Proofs.Node.Order
import HealthConsensus.Proofs.Validator.Probes
import HealthConsensus.Validator.Schedule

namespace HealthConsensus

theorem Effects.append_assoc (a b c : Effects) : a ++ b ++ c = a ++ (b ++ c) := by
  change Effects.mk ((a.changes ++ b.changes) ++ c.changes) ((a.writes ++ b.writes) ++ c.writes)
    ((a.log ++ b.log) ++ c.log) = Effects.mk (a.changes ++ (b.changes ++ c.changes))
      (a.writes ++ (b.writes ++ c.writes)) (a.log ++ (b.log ++ c.log))
  simp only [List.append_assoc]

namespace Validator

open Operation Registry Underway

variable {p : RegistryPolicy} {now : Instant} {workers : Nat} {found : Backend → Verdict}
  {r : Registry} {ms : List SweepMove} {u : Underway}

def SweepMove.effects : SweepMove → Effects
  | land _ _ _ effects => effects
  | other _ effects => effects
  | _ => .none

def allEffects (ms : List SweepMove) : Effects := .concat (ms.map SweepMove.effects)

theorem allEffects_append (ms ns : List SweepMove) :
    allEffects (ms ++ ns) = allEffects ms ++ allEffects ns := by
  induction ms with
  | nil => rfl
  | cons m ms ih =>
    exact (congrArg (m.effects ++ ·) ih).trans (Effects.append_assoc _ _ _).symm

def checkMoves (bs : List Backend) : List SweepMove := bs.flatMap fun b => [.probe b, .finish b]

theorem run_checks (free : 0 < workers) (bs ended : List Backend) (sum : ValidationSummary) :
    Run p workers found ⟨r, bs, [], ended, sum⟩ (checkMoves bs)
      ⟨r, [], [], bs.reverse ++ ended, sum⟩ := by
  induction bs generalizing ended with
  | nil => exact .nil _
  | cons b bs ih =>
    rw [List.reverse_cons, List.append_assoc]
    exact .cons (.probe free) (.cons (@Step.finish _ _ _ r b bs [] [] ended sum) (ih (b :: ended)))

def otherMoves (p : RegistryPolicy) : List RegistryStep → Registry → List SweepMove
  | [], _ => []
  | s :: steps, r => .other s (step p s r).effects :: otherMoves p steps (step p s r).state

theorem run_others (steps : List RegistryStep) (r : Registry) (ended : List Backend)
    (sum : ValidationSummary) :
    Run p workers found ⟨r, [], [], ended, sum⟩ (otherMoves p steps r)
      ⟨(history p steps r).state, [], [], ended, sum⟩ := by
  induction steps generalizing r with
  | nil => exact .nil _
  | cons s steps ih => exact .cons (.other s) (ih _)

theorem landed_otherMoves (steps : List RegistryStep) (r : Registry) :
    landed (otherMoves p steps r) = [] := by
  induction steps generalizing r with
  | nil => rfl
  | cons s steps ih => exact ih _

theorem allEffects_otherMoves (steps : List RegistryStep) (r : Registry) :
    allEffects (otherMoves p steps r) = (history p steps r).effects := by
  induction steps generalizing r with
  | nil => rfl
  | cons s steps ih => exact congrArg ((step p s r).effects ++ ·) (ih _)

def attend (p : RegistryPolicy) (now : Instant) (found : Backend → Verdict)
    (calls : Backend → Registry → List RegistryStep) (b : Backend) (sum : ValidationSummary) :
    Operation Registry ValidationSummary := do
  history p (calls b (← state))
  record p now b (found b) sum

def attendAll (p : RegistryPolicy) (now : Instant) (found : Backend → Verdict)
    (calls : Backend → Registry → List RegistryStep) :
    List Backend → ValidationSummary → Operation Registry ValidationSummary
  | [], sum => return sum
  | b :: bs, sum => do attendAll p now found calls bs (← attend p now found calls b sum)

theorem run_attendAll (calls : Backend → Registry → List RegistryStep) {order ended : List Backend}
    (perm : order.Perm ended) (r : Registry) (sum : ValidationSummary) :
    ∃ ms u, Run p workers found ⟨r, [], [], ended, sum⟩ ms u ∧ u.pending = [] ∧
      landed ms = order ∧
      attendAll p now found calls order sum r = ⟨u.summary, u.registry, allEffects ms⟩ ∧
      ((∀ b r, calls b r = []) → ∀ m ∈ ms, m.Quiet now) := by
  induction order generalizing ended r sum with
  | nil =>
    obtain rfl := perm.nil_eq
    exact ⟨[], _, .nil _, rfl, rfl, rfl, fun _ _ hm => by cases hm⟩
  | cons b order ih =>
    obtain ⟨before, behind, rfl⟩ := List.append_of_mem (perm.mem_iff.1 List.mem_cons_self)
    have rest : order.Perm (before ++ behind) := (perm.trans List.perm_middle).cons_inv
    let r' := (history p (calls b r) r).state
    obtain ⟨ms, u, run, done, lands, same, quiet⟩ :=
      ih rest (record p now b (found b) sum r').state (record p now b (found b) sum r').result
    refine ⟨otherMoves p (calls b r) r ++ .land now b (r'.get? b.key).isSome
      (record p now b (found b) sum r').effects :: ms, u, (run_others _ r _ sum).append
        (.cons (.land now) run), done, ?_, ?_, ?_⟩
    · rw [landed_append, landed_otherMoves, landed_cons, lands]
      rfl
    · have first : attend p now found calls b sum r =
          ⟨(record p now b (found b) sum r').result, (record p now b (found b) sum r').state,
            (history p (calls b r) r).effects ++ (record p now b (found b) sum r').effects⟩ := rfl
      rw [attendAll, bind_apply, first, same, allEffects_append, allEffects_otherMoves,
        Effects.append_assoc]
      rfl
    · intro alone m hm
      rw [alone b r] at hm
      rcases List.mem_cons.1 hm with rfl | later
      · rfl
      · exact quiet alone m later

section Scripted

variable (script : Script) (s : ValidatorSettings)

def scripted (b : Backend) : Verdict := ((script (b.target s)).verdict? s.timeout).getD (.good .zero)

def removals (now : Instant) (b : Backend) (r : Registry) : List RegistryStep :=
  if (script (b.target s)).removes s.timeout then
    (keysAt (b.target s) r).map fun k => ⟨now, .unchanged, .deregister k⟩
  else []

theorem step_deregister (k : BackendKey) (r : Registry) :
    step p ⟨now, .unchanged, .deregister k⟩ r = drop k r := by
  simp [step, drop, RegistryCall.operation, Table.Arrangement.unchanged]

theorem history_deregister (ks : List BackendKey) (r : Registry) :
    history p (ks.map fun k => ⟨now, .unchanged, .deregister k⟩) r = forEach ks drop r := by
  induction ks generalizing r with
  | nil => rfl
  | cons k ks ih =>
    have later := ih (drop k r).state
    rw [history] at later ⊢
    rw [List.map_cons, forEach_cons, forEach_cons, step_deregister, later]

variable {script s}

theorem checkOne_eq {b : Backend} (whole : ((script (b.target s)).verdict? s.timeout).isSome)
    (sum : ValidationSummary) (r : Registry) :
    checkOne p now script s b sum r =
      attend p now (scripted script s) (removals script s now) b sum r := by
  obtain ⟨v, ends⟩ := Option.isSome_iff_exists.1 whole
  have found : scripted script s b = v := by rw [scripted, ends, Option.getD_some]
  have attends : attend p now (scripted script s) (removals script s now) b sum r =
      (history p (removals script s now b r) >>= fun _ => record p now b v sum) r := by
    rw [← found]
    rfl
  rw [attends, checkOne, ends]
  cases removes : (script (b.target s)).removes s.timeout with
  | true =>
    have gone : history p (removals script s now b r) r = removeAt (b.target s) r := by
      rw [removals, if_pos removes, history_deregister]
      rfl
    rw [bind_apply (history p _), gone]
    rfl
  | false =>
    rw [removals, removes]
    rfl

theorem checkAll_eq {bs : List Backend}
    (whole : ∀ b ∈ bs, ((script (b.target s)).verdict? s.timeout).isSome)
    (sum : ValidationSummary) (r : Registry) :
    checkAll p now script s bs sum r =
      attendAll p now (scripted script s) (removals script s now) bs sum r := by
  induction bs generalizing sum r with
  | nil => rfl
  | cons b bs ih =>
    rw [checkAll, attendAll, bind_apply, bind_apply, checkOne_eq (whole b List.mem_cons_self),
      ih fun c hc => whole c (List.mem_cons_of_mem b hc)]

end Scripted

theorem landed_checkMoves (bs : List Backend) : landed (checkMoves bs) = [] := by
  induction bs with
  | nil => rfl
  | cons b bs ih => exact ih

theorem allEffects_checkMoves (bs : List Backend) : allEffects (checkMoves bs) = .none := by
  induction bs with
  | nil => rfl
  | cons b bs ih => exact congrArg (Effects.none ++ Effects.none ++ ·) ih

theorem quiet_checkMoves (bs : List Backend) : ∀ m ∈ checkMoves bs, m.Quiet now := by
  intro m hm
  obtain ⟨b, -, here⟩ := List.mem_flatMap.1 hm
  rcases List.mem_cons.1 here with rfl | here
  · trivial
  · rw [List.mem_singleton.1 here]
    trivial

theorem sweep_run (free : 0 < workers) (calls : Backend → Registry → List RegistryStep)
    {order : List Backend} (perm : order.Perm r.all) :
    ∃ ms u, Run p workers found (begun r) ms u ∧ u.pending = [] ∧ landed ms = order ∧
      attendAll p now found calls order {} r = ⟨u.summary, u.registry, allEffects ms⟩ ∧
      ((∀ b r, calls b r = []) → ∀ m ∈ ms, m.Quiet now) := by
  have ended : order.Perm (r.all.reverse ++ []) := by
    rw [List.append_nil]
    exact perm.trans (List.reverse_perm _).symm
  obtain ⟨ms, u, run, done, lands, same, quiet⟩ := run_attendAll calls ended r {}
  refine ⟨checkMoves r.all ++ ms, u, (run_checks free r.all [] {}).append run, done, ?_, ?_, ?_⟩
  · rw [landed_append, landed_checkMoves, lands, List.nil_append]
  · rw [same, allEffects_append, allEffects_checkMoves, Effects.none_append]
  · intro alone m hm
    rcases List.mem_append.1 hm with first | later
    · exact quiet_checkMoves r.all m first
    · exact quiet alone m later

theorem count_all (keyed : r.Keyed) (k : BackendKey) :
    (r.all.map Backend.key).count k = if (r.get? k).isSome then 1 else 0 := by
  rw [((all_perm r).map Backend.key).count_eq, values_keys keyed,
    List.Nodup.count (l := r.keys) r.distinct]
  apply if_congr _ rfl rfl
  rw [Option.isSome_iff_ne_none, ne_eq, Table.get?_eq_none_iff, not_not]

theorem mem_all (keyed : r.Keyed) {b : Backend} : b ∈ r.all ↔ r.get? b.key = some b := by
  rw [(all_perm r).mem_iff]
  constructor
  · exact found_of_mem_values keyed
  · exact fun found => mem_values.2 ⟨b.key, found⟩

structure Accounted (p : RegistryPolicy) (workers : Nat) (found : Backend → Verdict) (r : Registry)
    (ms : List SweepMove) (u : Underway) : Prop where
  probed : ∀ k, ((probed ms).map Backend.key).count k = if (r.get? k).isSome then 1 else 0
  landed : ∀ k, ((landed ms).map Backend.key).count k = if (r.get? k).isSome then 1 else 0
  checked : u.summary.checked = r.all.length
  total : u.summary.checked = u.summary.healthy + u.summary.unhealthy + u.summary.skipped
  skipped : u.summary.skipped = (landings ms).countP fun o => !o.2
  there : ∀ before now b there effects behind,
    ms = before ++ .land now b there effects :: behind →
      ∃ w, Run p workers found (begun r) before w ∧ there = (w.registry.get? b.key).isSome
  overdue : u.summary.timedOut ≤ u.summary.checked
  elsewhere : ∀ k, r.get? k = none →
    u.registry.get? k = (history p (others ms) r).state.get? k ∧ (ownEffects ms).about k = []

def statusGiven (healthy : Bool) (b : Backend) : BackendStatus :=
  match b.override, b.drain.draining with
  | some o, _ => .ofVerdict o.healthy
  | none, true => .draining
  | none, false => .ofVerdict healthy

structure Settled (p : RegistryPolicy) (now : Instant) (found : Backend → Verdict) (r : Registry)
    (ms : List SweepMove) (u : Underway) : Prop where
  summary : u.summary =
    { checked := r.all.length
      healthy := r.all.countP fun b => (found b).healthy
      unhealthy := r.all.countP fun b => !(found b).healthy
      timedOut := r.all.countP fun b => (found b).isOverdue
      skipped := 0 }
  backend : ∀ k, u.registry.get? k = (r.get? k).map fun b =>
    { b with
      validation := some ⟨(found b).healthy, now, (found b).error⟩
      latency := (b.validate p.smoothing (found b).healthy (found b).error (found b).latency
        now).latency
      status := statusGiven (found b).healthy b }
  news : ∀ k, (ownEffects ms).about k = news (r.get? k) (u.registry.get? k)

theorem landed_all (run : Run p workers found (begun r) ms u) (done : u.pending = []) :
    r.all.Perm (landed ms) := by
  have pending := run.pending
  rw [done, List.append_nil] at pending
  simpa [begun, Underway.pending] using pending

theorem landed_away (keyed : r.Keyed) (lands : r.all.Perm (landed ms)) {k : BackendKey}
    (absent : r.get? k = none) : ∀ b ∈ landed ms, b.key ≠ k := by
  intro b hb same
  have found := (mem_all keyed).1 (lands.mem_iff.2 hb)
  rw [same, absent] at found
  cases found

theorem accounted (keyed : r.Keyed) (run : Run p workers found (begun r) ms u)
    (done : u.pending = []) : Accounted p workers found r ms u := by
  have lands := landed_all run done
  have length : (landings ms).length = r.all.length := by
    rw [lands.length_eq, landed, List.length_map]
  have books := run.summary
  rw [tally_eq] at books
  refine ⟨fun k => ?_, fun k => ?_, ?_, ?_, ?_, ?_, ?_, fun k absent => ?_⟩
  · have waiting : r.all = probed ms ++ u.waiting := run.waiting
    have none : u.waiting = [] := (List.append_eq_nil_iff.1 (List.append_eq_nil_iff.1 done).1).1
    rw [← count_all keyed k, waiting, none, List.append_nil]
  · rw [← count_all keyed k, (lands.map Backend.key).count_eq]
  · rw [books]
    simpa [begun] using length
  · have split := @outcomes_split found (landings ms)
    rw [books]
    simpa [begun] using split
  · rw [books]
    simp [begun]
  · rintro before now b there effects behind rfl
    exact run.landing
  · rw [books]
    simpa [begun] using List.countP_le_length
  · have away := landed_away keyed lands absent
    rw [history_get?]
    exact ⟨run.elsewhere away, run.silent keyed away⟩

theorem statusAt_validated {b : Backend} {healthy : Bool} {error : Option String}
    {latency : Duration} {smoothing : Float} {staleAfter : Duration} :
    (b.validate smoothing healthy error latency now).statusAt now staleAfter =
      statusGiven healthy b := by
  unfold Backend.statusAt statusGiven Backend.validate
  cases b.override <;> cases b.drain.draining <;> rfl

theorem settled (keyed : r.Keyed) (run : Run p workers found (begun r) ms u)
    (done : u.pending = []) (quiet : ∀ m ∈ ms, m.Quiet now) : Settled p now found r ms u := by
  have lands := landed_all run done
  have distinct : ((landed ms).map Backend.key).Nodup :=
    (lands.map Backend.key).nodup_iff.1
      (((all_perm r).map Backend.key).nodup_iff.2 (values_distinct keyed))
  have present : ∀ b ∈ landed ms, r.get? b.key = some b := fun b hb =>
    (mem_all keyed).1 (lands.mem_iff.2 hb)
  have landing (k : BackendKey) (b : Backend) (there : r.get? k = some b) :
      b ∈ landed ms ∧ b.key = k := by
    have own : b.key = k := keyed_of_get? keyed there
    exact ⟨lands.mem_iff.1 ((mem_all keyed).2 (own.symm ▸ there)), own⟩
  refine ⟨?_, fun k => ?_, fun k => ?_⟩
  · have whole : ∀ o ∈ landings ms, o.2 = true :=
      run.none_missed quiet fun b hb => Option.isSome_iff_exists.2 ⟨b, present b hb⟩
    have count (test : Backend → Bool) :
        ((landings ms).countP fun o => test o.1) = r.all.countP test := by
      rw [lands.countP_eq, landed, List.countP_map]
      rfl
    have landedCount (test : Backend → Bool) :
        ((landings ms).countP fun o => o.2 && test o.1) = r.all.countP test := by
      rw [← count]
      exact List.countP_congr fun o ho => by simp [whole o ho]
    have missed : ((landings ms).countP fun o => !o.2) = 0 :=
      List.countP_eq_zero.2 fun o ho => by simp [whole o ho]
    have books : u.summary = tally found (landings ms) {} := run.summary
    rw [books, tally_eq, landedCount fun b => (found b).healthy,
      landedCount fun b => !(found b).healthy, count fun b => (found b).isOverdue, missed,
      lands.length_eq, landed, List.length_map]
    simp
  · cases there : r.get? k with
    | none => exact (run.elsewhere_of_quiet quiet (landed_away keyed lands there)).trans there
    | some b =>
      obtain ⟨hb, rfl⟩ := landing k b there
      refine (run.settled keyed quiet distinct hb).1.trans ?_
      change (verdictCall b (found b)).onRecord p now b.key (r.get? b.key) = _
      rw [there, verdictCall, RegistryCall.onRecord, if_pos rfl, Option.map_some, Option.map_some,
        Backend.refresh, statusAt_validated]
      rfl
  · cases there : r.get? k with
    | none =>
      have away := landed_away keyed lands there
      have same := (run.elsewhere_of_quiet quiet away).trans there
      rw [run.silent keyed away, same, news_self]
    | some b =>
      obtain ⟨hb, rfl⟩ := landing k b there
      exact there ▸ (run.settled keyed quiet distinct hb).2

/-- A sweep accounts for every check, whatever others call meanwhile. If nobody else calls anything
and the clock stands still, what it leaves is given by the backends and the verdicts, so it is the
same for every order in which the checks end; every order occurs, and a sweep by a script is one of
these runs. -/
theorem sweep_accounts_for_every_probe {p : RegistryPolicy} {r : Registry} (keyed : r.Keyed) :
    (∀ {workers found ms u}, Run p workers found (begun r) ms u → u.pending = [] →
      Accounted p workers found r ms u) ∧
    (∀ {workers found ms u now}, Run p workers found (begun r) ms u → u.pending = [] →
      (∀ m ∈ ms, m.Quiet now) → Settled p now found r ms u ∧
        ∀ {workers' ms' u'}, Run p workers' found (begun r) ms' u' → u'.pending = [] →
          (∀ m ∈ ms', m.Quiet now) → u'.registry.view = u.registry.view ∧
            u'.summary = u.summary ∧ ∀ k, (ownEffects ms').about k = (ownEffects ms).about k) ∧
    (∀ workers found now, 0 < workers → ∀ order : List Backend, order.Perm r.all →
      ∃ ms u, Run p workers found (begun r) ms u ∧ u.pending = [] ∧ (∀ m ∈ ms, m.Quiet now) ∧
        landed ms = order) ∧
    ∀ script s now, (∀ b ∈ r.all, ((script (b.target s)).verdict? s.timeout).isSome) →
      ∃ ms u, Run p (Validator.workers s) (scripted script s) (begun r) ms u ∧ u.pending = [] ∧
        sweep p now script s r = ⟨u.summary, u.registry, allEffects ms⟩ := by
  refine ⟨accounted keyed, fun run done quiet => ?_, ?_, ?_⟩
  · have here := settled keyed run done quiet
    refine ⟨here, fun run' done' quiet' => ?_⟩
    have there := settled keyed run' done' quiet'
    have view := funext fun k => (there.backend k).trans (here.backend k).symm
    refine ⟨view, there.summary.trans here.summary.symm, fun k => ?_⟩
    rw [there.news, here.news, there.backend, here.backend]
  · intro workers found now free order perm
    obtain ⟨ms, u, run, done, lands, -, quiet⟩ :=
      @sweep_run p now workers found r free (fun _ _ => []) order perm
    exact ⟨ms, u, run, done, quiet fun _ _ => rfl, lands⟩
  · intro script s now whole
    have free : 0 < Validator.workers s := Nat.lt_of_lt_of_le Nat.zero_lt_one (Nat.le_max_right _ _)
    obtain ⟨ms, u, run, done, -, same, -⟩ :=
      @sweep_run p now (Validator.workers s) (scripted script s) r free (removals script s now)
        r.all (.refl _)
    refine ⟨ms, u, run, done, ?_⟩
    rw [← same, ← checkAll_eq whole]
    rfl

def upheld : Registration := ⟨"a1", "eu", "db", "10.0.0.1", 5432, 100, true⟩

def unaided : Registration := ⟨"a2", "eu", "db", "10.0.0.2", 5432, 100, true⟩

def twoBackends : List RegistryStep :=
  [⟨atSecond 1, .unchanged, .register upheld⟩, ⟨atSecond 1, .unchanged, .register unaided⟩,
    ⟨atSecond 2, .unchanged, .setOverride upheld.key true "known good" "op"⟩]

theorem sweep_accounts_for_every_probe_of_two :
    let r := (history defaultPolicy twoBackends .empty).state
    let found : Backend → Verdict := fun _ => .overdue (.ofSeconds 5)
    let script : Script := fun t => { ScriptedCheck.usual with
      removesBackends := t.address == upheld.address }
    (∃ ms u ms' u', Run defaultPolicy 1 found (begun r) ms u ∧ landed ms = r.all ∧
      Run defaultPolicy 2 found (begun r) ms' u' ∧ landed ms' = r.all.reverse ∧
      u'.summary = u.summary ∧ u'.registry.view = u.registry.view ∧
      u.summary.checked = 2 ∧ u.summary.skipped = 0 ∧
      (u.registry.get? upheld.key).map Backend.status = some .healthy ∧
      (u.registry.get? unaided.key).map Backend.status = some .unhealthy) ∧
    (sweep defaultPolicy (atSecond 9) script {} r).result.checked = 2 := by
  intro r found script
  have keyed : r.Keyed := (history_traced twoBackends .empty).keyed Table.keyed_empty
  have size : r.all.length = 2 := (length_all r).trans (by decide +kernel)
  obtain ⟨account, settle, orders, scripts⟩ :=
    sweep_accounts_for_every_probe (p := defaultPolicy) keyed
  obtain ⟨ms, u, run, done, quiet, lands⟩ := orders 1 found (atSecond 9) (by decide) r.all (.refl _)
  obtain ⟨ms', u', run', done', quiet', lands'⟩ :=
    orders 2 found (atSecond 9) (by decide) r.all.reverse (List.reverse_perm _)
  obtain ⟨left, same⟩ := settle run done quiet
  obtain ⟨view, summary, -⟩ := same run' done' quiet'
  obtain ⟨ms'', u'', run'', done'', swept⟩ := scripts script {} (atSecond 9) fun b _ => rfl
  refine ⟨⟨ms, u, ms', u', run, lands, run', lands', summary, view, ?_, ?_, ?_, ?_⟩, ?_⟩
  · rw [left.summary, ← size]
  · rw [left.summary]
  · rw [left.backend, Option.map_map]
    decide +kernel
  · rw [left.backend, Option.map_map]
    decide +kernel
  · rw [swept, ← size]
    exact (account run'' done'').checked

end Validator

end HealthConsensus
