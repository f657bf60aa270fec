import HealthConsensus.Check.Network
import HealthConsensus.Proofs.Store.Contents
import HealthConsensus.Proofs.Validator.Sweep

namespace HealthConsensus

section Start

variable {a b s : String}

theorem startsWith_append_right (h : startsWith a b = true) (c : String) :
    startsWith a (b ++ c) = true := by
  rw [startsWith_iff] at h ⊢
  rw [String.toList_append]
  exact h.trans (List.prefix_append _ _)

theorem startsWith_of_apart (h : startsWith a b = false) (h' : startsWith b a = false)
    (starts : startsWith b s = true) : startsWith a s = false := by
  rw [Bool.eq_false_iff, ne_eq, startsWith_iff] at h h' ⊢
  intro other
  rcases List.prefix_or_prefix_of_prefix other (startsWith_iff.1 starts) with first | first
  · exact h first
  · exact h' first

end Start

def CheckType.silence : CheckType → String
  | .tcp => "connect timed out"
  | .http => "request timed out"

namespace Target

def isUnanswered (net : Network) (kind : CheckType) (t : Target) : Bool :=
  match kind with
  | .tcp => (net.connect t.hostPort).1 == .silent
  | .http => (Url.ofText? t.pageText).any fun url => url.isWeb && (net.fetch url).1 == .silent

def failureStarts : List String := ["connect failed: ", "unexpected status ", "request failed: "]

inductive Ending (silence : String) : Bool → Option String → Prop
  | unanswered : Ending silence true (some silence)
  | good : Ending silence false none
  | failed (start : String) {error : String} (known : start ∈ failureStarts)
    (starts : startsWith start error = true) : Ending silence false (some error)

theorem checkConnection_ending (net : Network) (t : Target) :
    Ending "connect timed out" (t.isUnanswered net .tcp) (t.checkConnection net).error := by
  unfold checkConnection isUnanswered
  rcases net.connect t.hostPort with ⟨_ | reason | _, time⟩
  · exact .good
  · exact .failed "connect failed: " (by decide) (startsWith_append_right (by decide) _)
  · exact .unanswered

theorem checkPage_ending (net : Network) (t : Target) :
    Ending "request timed out" (t.isUnanswered net .http) (t.checkPage net).error := by
  have failed {error : String} (starts : startsWith "request failed: " error = true) :
      Ending "request timed out" false (some error) := .failed _ (by decide) starts
  unfold checkPage isUnanswered
  cases Url.ofText? t.pageText with
  | none => exact failed (by decide)
  | some url =>
    simp only [Option.any_some]
    cases url.isWeb with
    | false =>
      simp only [Bool.not_false, if_true, Bool.false_and]
      exact failed (startsWith_append_right (startsWith_append_right (by decide) _) _)
    | true =>
      simp only [Bool.not_true, Bool.false_eq_true, if_false, Bool.true_and]
      rcases net.fetch url with ⟨status | _ | _, time⟩
      · cases good : isSuccess status with
        | true =>
          simp only [good, if_true]
          exact .good
        | false =>
          simp only [good, Bool.false_eq_true, if_false]
          exact .failed "unexpected status " (by decide) (startsWith_append_right (by decide) _)
      · exact failed (startsWith_append_right (startsWith_append_right (by decide) _) _)
      · exact .unanswered

theorem check_ending (net : Network) (kind : CheckType) (t : Target) :
    Ending kind.silence (t.isUnanswered net kind) (t.check net kind).error := by
  cases kind with
  | tcp => exact t.checkConnection_ending net
  | http => exact t.checkPage_ending net

theorem failureStarts_apart : ∀ start ∈ failureStarts,
    ∀ a ∈ [Verdict.overdueStart, CheckType.silence .tcp, CheckType.silence .http],
      startsWith a start = false ∧ startsWith start a = false := by
  decide

theorem Ending.isOverdue {kind : CheckType} {waited : Bool} {error : Option String}
    (ending : Ending kind.silence waited error) :
    error.any (startsWith Verdict.overdueStart) = false := by
  cases ending with
  | unanswered => cases kind <;> decide
  | good => rfl
  | failed start known starts =>
    obtain ⟨apart, apart'⟩ := failureStarts_apart start known Verdict.overdueStart (by simp)
    exact startsWith_of_apart apart apart' starts

theorem Ending.silence_iff {kind : CheckType} {waited : Bool} {error : Option String}
    (ending : Ending kind.silence waited error) : error = some kind.silence ↔ waited = true := by
  cases ending with
  | unanswered => simp
  | good => simp
  | failed start known starts =>
    obtain ⟨apart, apart'⟩ := failureStarts_apart start known kind.silence (by cases kind <;> simp)
    simp only [Option.some.injEq, Bool.false_eq_true, iff_false]
    rintro rfl
    rw [apart'] at starts
    cases starts

end Target

inductive Attempt where
  | ended (net : Network)
  | abandoned

namespace Attempt

def verdict (kind : CheckType) (t : Target) : Attempt → Verdict
  | ended net => t.check net kind
  | abandoned => .overdue t.timeout

def isAbandoned : Attempt → Bool
  | ended _ => false
  | abandoned => true

def isUnanswered (kind : CheckType) (t : Target) : Attempt → Bool
  | ended net => t.isUnanswered net kind
  | abandoned => false

def isExpired (kind : CheckType) (t : Target) (a : Attempt) : Bool :=
  a.isAbandoned || a.isUnanswered kind t

variable (kind : CheckType) (t : Target) (a : Attempt)

theorem overdue_verdict : (a.verdict kind t).isOverdue = a.isAbandoned := by
  cases a with
  | ended net => exact (t.check_ending net kind).isOverdue
  | abandoned => exact startsWith_append_right (startsWith_append_right (by decide) _) _

theorem isUnanswered_of_isAbandoned (given : a.isAbandoned = true) :
    a.isUnanswered kind t = false := by
  cases a with
  | ended net => cases given
  | abandoned => rfl

theorem isExpired_iff : a.isExpired kind t = true ↔
    (a.verdict kind t).isOverdue = true ∨ (a.verdict kind t).error = some kind.silence := by
  rw [overdue_verdict, isExpired, Bool.or_eq_true]
  cases a with
  | ended net =>
    rw [verdict, (t.check_ending net kind).silence_iff]
    rfl
  | abandoned => simp [isAbandoned]

end Attempt

namespace Validator

open Registry Underway

variable {p : RegistryPolicy} {now : Instant} {r : Registry} {workers : Nat} {ms : List SweepMove}
  {u : Underway}

theorem timedOut_eq {found : Backend → Verdict} (run : Run p workers found (begun r) ms u)
    (done : u.pending = []) : u.summary.timedOut = r.all.countP fun b => (found b).isOverdue := by
  rw [run.summary, tally_eq, (landed_all run done).countP_eq, landed, List.countP_map]
  exact Nat.zero_add _

theorem timedOut_sweep {script : Script} {s : ValidatorSettings}
    (whole : ∀ b ∈ r.all, ((script (b.target s)).verdict? s.timeout).isSome) :
    (sweep p now script s r).result.timedOut =
      r.all.countP fun b => (scripted script s b).isOverdue := by
  have free : 0 < Validator.workers s := Nat.lt_of_lt_of_le Nat.zero_lt_one (Nat.le_max_right _ _)
  obtain ⟨ms, u, run, done, -, same, -⟩ :=
    @sweep_run p now (Validator.workers s) (scripted script s) r free (removals script s now)
      r.all (.refl _)
  rw [← timedOut_eq run done]
  change (checkAll p now script s r.all {} r).result.timedOut = _
  rw [checkAll_eq whole, same]

theorem countP_or_apart {α : Type} {f g : α → Bool} (apart : ∀ x, f x = true → g x = false)
    (xs : List α) : xs.countP (fun x => f x || g x) = xs.countP f + xs.countP g := by
  induction xs with
  | nil => rfl
  | cons x xs ih =>
    simp only [List.countP_cons, ih]
    cases given : f x with
    | false =>
      rw [Bool.false_or, if_neg Bool.false_ne_true]
      omega
    | true =>
      rw [Bool.true_or, apart x given, if_pos rfl, if_neg Bool.false_ne_true]
      omega

variable (s : ValidatorSettings) (attempt : Backend → Attempt)

def attempted (b : Backend) : Verdict := (attempt b).verdict s.checkType (b.target s)

def isExpired (b : Backend) : Bool := (attempt b).isExpired s.checkType (b.target s)

def isUnanswered (b : Backend) : Bool := (attempt b).isUnanswered s.checkType (b.target s)

/-- The count of time-outs is that of the checks that were given up. It leaves out those that have
waited in vain until the same deadline and said so themselves, and it counts every deadline that has
expired exactly if there are none of them. -/
theorem timedOut_counts_abandoned (run : Run p workers (attempted s attempt) (begun r) ms u)
    (done : u.pending = []) :
    u.summary.timedOut = r.all.countP (fun b => (attempt b).isAbandoned) ∧
    r.all.countP (isExpired s attempt) =
      u.summary.timedOut + r.all.countP (isUnanswered s attempt) ∧
    (u.summary.timedOut = r.all.countP (isExpired s attempt) ↔
      ∀ b ∈ r.all, isUnanswered s attempt b = false) ∧
    ∀ b, isExpired s attempt b = true ↔ (attempted s attempt b).isOverdue = true ∨
      (attempted s attempt b).error = some s.checkType.silence := by
  have count : u.summary.timedOut = r.all.countP fun b => (attempt b).isAbandoned := by
    rw [timedOut_eq run done]
    exact List.countP_congr fun b _ => by rw [attempted, Attempt.overdue_verdict]
  have split : r.all.countP (isExpired s attempt) =
      u.summary.timedOut + r.all.countP (isUnanswered s attempt) := by
    rw [count]
    exact countP_or_apart (fun b => (attempt b).isUnanswered_of_isAbandoned _ _) r.all
  refine ⟨count, split, ?_, fun b => Attempt.isExpired_iff _ _ _⟩
  simp only [split, Nat.left_eq_add, List.countP_eq_zero, Bool.not_eq_true]

def silentNetwork (timeout : Duration) : Network :=
  ⟨fun _ => (.silent, timeout), fun _ => (.silent, timeout)⟩

def eitherDeadline (s : ValidatorSettings) (b : Backend) : Attempt :=
  if b.address == upheld.address then .ended (silentNetwork s.timeout) else .abandoned

theorem timedOut_counts_abandoned_of_two :
    let r := (history defaultPolicy twoBackends .empty).state
    ∃ ms u, Run defaultPolicy 2 (attempted {} (eitherDeadline {})) (begun r) ms u ∧
      u.pending = [] ∧ u.summary.timedOut = 1 ∧ r.all.countP (isExpired {} (eitherDeadline {})) = 2 := by
  intro r
  obtain ⟨ms, u, run, done, -⟩ :=
    @sweep_run defaultPolicy (atSecond 9) 2 (attempted {} (eitherDeadline {})) r (by decide)
      (fun _ _ => []) r.all (.refl _)
  obtain ⟨count, split, -⟩ := timedOut_counts_abandoned {} (eitherDeadline {}) run done
  have one : u.summary.timedOut = 1 := by
    rw [count, (all_perm r).countP_eq]
    decide +kernel
  refine ⟨ms, u, run, done, one, ?_⟩
  rw [split, one, (all_perm r).countP_eq]
  decide +kernel

theorem timedOut_misses_silence :
    let s : ValidatorSettings := {}
    let net := silentNetwork s.timeout
    let script : Script := fun t =>
      { ScriptedCheck.usual with delay := s.timeout, verdict := t.check net s.checkType }
    let r := (history defaultPolicy [⟨atSecond 1, .unchanged, .register upheld⟩] .empty).state
    (∀ b ∈ r.all, scripted script s b = attempted s (fun _ => .ended net) b) ∧
      r.all.countP (isExpired s fun _ => .ended net) = 1 ∧
      (sweep defaultPolicy (atSecond 9) script s r).result.timedOut = 0 := by
  intro s net script r
  have whole (b : Backend) : (script (b.target s)).verdict? s.timeout =
      some ((b.target s).check net s.checkType) := by
    have onTime : decide (s.timeout < s.timeout) = false := by decide +kernel
    simp only [ScriptedCheck.verdict?, ScriptedCheck.isOverdue, script, onTime]
    rfl
  refine ⟨fun b _ => ?_, ?_, ?_⟩
  · rw [scripted, whole]
    rfl
  · rw [(all_perm r).countP_eq]
    decide +kernel
  · rw [timedOut_sweep fun b _ => by rw [whole]; rfl, (all_perm r).countP_eq]
    decide +kernel

end Validator

end HealthConsensus
