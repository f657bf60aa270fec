import HealthConsensus.Admission.Basic
import HealthConsensus.Proofs.Time.Order

namespace HealthConsensus

section Sorting

variable {α : Type} {le : α → α → Bool}
  (trans : ∀ a b c, le a b = true → le b c = true → le a c = true)
  (total : ∀ a b, (le a b || le b a) = true)

include trans total in
theorem le_behind {x : α} {xs before behind : List α}
    (sorted : (x :: xs).mergeSort le = before ++ x :: behind) : ∀ y ∈ behind, le x y = true := by
  have all := List.pairwise_mergeSort trans total (x :: xs)
  rw [sorted] at all
  exact (List.pairwise_cons.1 (List.pairwise_append.1 all).2.1).1

theorem filter_split {p : α → Bool} {xs ys : List α} (hx : ∀ x ∈ xs, p x = true)
    (hy : ∀ y ∈ ys, p y = false) :
    (xs ++ ys).filter p = xs ∧ (xs ++ ys).filter (fun z => !p z) = ys := by
  have none : ys.filter p = [] := List.filter_eq_nil_iff.2 fun y h => by simp [hy y h]
  have none' : xs.filter (fun z => !p z) = [] :=
    List.filter_eq_nil_iff.2 fun x h => by simp [hx x h]
  rw [List.filter_append, List.filter_append, none, none', List.append_nil, List.nil_append]
  exact ⟨List.filter_eq_self.2 hx, List.filter_eq_self.2 fun y h => by simp [hy y h]⟩

include trans total in
theorem mergeSort_filter (keep : α → Bool) (xs : List α) :
    (xs.filter keep).mergeSort le = (xs.mergeSort le).filter keep := by
  induction xs with
  | nil => simp
  | cons x xs ih =>
    obtain ⟨before, behind, sorted, others, greater⟩ := List.mergeSort_cons trans total x xs
    have after := le_behind trans total sorted
    rw [others, List.filter_append] at ih
    rw [sorted, List.filter_append]
    cases kept : keep x with
    | false =>
      have out : ¬keep x = true := by simp [kept]
      rw [List.filter_cons_of_neg out, List.filter_cons_of_neg out, ih]
    | true =>
      rw [List.filter_cons_of_pos kept, List.filter_cons_of_pos kept]
      obtain ⟨before', behind', sorted', others', greater'⟩ :=
        List.mergeSort_cons trans total x (xs.filter keep)
      have after' := le_behind trans total sorted'
      -- both lists are split at `x` by the same test
      have here := @filter_split α (fun y => !le x y) before' behind' greater'
        fun y h => by simp [after' y h]
      have there := @filter_split α (fun y => !le x y) (before.filter keep) (behind.filter keep)
        (fun y h => greater y (List.mem_filter.1 h).1)
        fun y h => by simp [after y (List.mem_filter.1 h).1]
      rw [← others', ih] at here
      rw [sorted', here.1.symm.trans there.1, here.2.symm.trans there.2]

theorem filter_isPrefix_filter {R : α → α → Prop} {low high : α → Bool} {xs : List α}
    (sorted : xs.Pairwise R) (down : ∀ a b, R a b → low b = true → low a = true)
    (wider : ∀ a, low a = true → high a = true) : xs.filter low <+: xs.filter high := by
  induction xs with
  | nil => exact List.prefix_rfl
  | cons x xs ih =>
    obtain ⟨first, rest⟩ := List.pairwise_cons.1 sorted
    by_cases here : low x = true
    · rw [List.filter_cons_of_pos here, List.filter_cons_of_pos (wider x here)]
      exact (List.prefix_cons_inj x).2 (ih rest)
    · have none : (x :: xs).filter low = [] := by
        refine List.filter_eq_nil_iff.2 fun y hy => ?_
        rcases List.mem_cons.1 hy with rfl | hy
        · exact here
        · exact fun later => here (down x y (first y hy) later)
      rw [none]
      exact List.nil_prefix

end Sorting

namespace Pin

def endsBefore (a b : Pin) : Bool := a.notAfter ≤ b.notAfter

theorem endsBefore_trans (a b c : Pin) (h : a.endsBefore b = true) (h' : b.endsBefore c = true) :
    a.endsBefore c = true :=
  decide_eq_true (Instant.le_trans (of_decide_eq_true h) (of_decide_eq_true h'))

theorem endsBefore_total (a b : Pin) : (a.endsBefore b || b.endsBefore a) = true := by
  simpa [endsBefore] using Instant.le_total a.notAfter b.notAfter

def endsWithin (now : Instant) (within : Duration) (pin : Pin) : Bool :=
  pin.notAfter.ordinal - now.ordinal ≤ within.nanoseconds

end Pin

namespace Pins

def standing (pins : Pins) : List Pin :=
  (pins.all.filter fun pin => !pin.revoked).mergeSort Pin.endsBefore

theorem standing_perm (pins : Pins) :
    pins.standing.Perm (pins.values.filter fun pin => !pin.revoked) :=
  (List.mergeSort_perm _ _).trans ((List.mergeSort_perm _ _).filter _)

variable {pins : Pins} {now : Instant}

theorem standing_regular (ends : ∀ pin ∈ pins.values, pin.notAfter.isLeap = false) :
    ∀ pin ∈ pins.standing, pin.notAfter.isLeap = false := fun pin h =>
  ends pin (List.mem_filter.1 (pins.standing_perm.mem_iff.1 h)).1

theorem standing_ascending (ends : ∀ pin ∈ pins.values, pin.notAfter.isLeap = false) :
    pins.standing.Pairwise fun a b => a.notAfter.ordinal ≤ b.notAfter.ordinal := by
  have sorted := List.pairwise_mergeSort Pin.endsBefore_trans Pin.endsBefore_total
    (pins.all.filter fun pin => !pin.revoked)
  refine sorted.imp_of_mem fun {a b} ha _ order => ?_
  exact Instant.ordinal_le (of_decide_eq_true order) (standing_regular ends a ha)

theorem expiring_eq (regular : now.isLeap = false)
    (ends : ∀ pin ∈ pins.values, pin.notAfter.isLeap = false) (within : Duration) :
    pins.expiring now within = pins.standing.filter (Pin.endsWithin now within) := by
  have early (pin : Pin) (h : pin ∈ pins.standing) :
      decide (pin.notAfter ≤ (now.add? within).getD .latest) = pin.endsWithin now within :=
    decide_eq_decide.2 (Instant.le_horizon_iff (standing_regular ends pin h) regular within)
  rw [← List.filter_congr early, standing,
    ← mergeSort_filter Pin.endsBefore_trans Pin.endsBefore_total, List.filter_filter]
  exact congrArg (fun keep => (pins.all.filter keep).mergeSort Pin.endsBefore)
    (funext fun pin => Bool.and_comm _ _)

/-- Exactly the unrevoked pins are shown that end within the time, each one once and the first to
end first, and with more time there are the same ones and then others. -/
theorem expiring_exact (regular : now.isLeap = false)
    (ends : ∀ pin ∈ pins.values, pin.notAfter.isLeap = false) (within : Duration) :
    (∀ pin, pin ∈ pins.expiring now within ↔ pin ∈ pins.values ∧ pin.revoked = false ∧
      pin.notAfter.ordinal - now.ordinal ≤ within.nanoseconds) ∧
    (pins.expiring now within).Perm
      (pins.values.filter fun pin => !pin.revoked && pin.endsWithin now within) ∧
    ((pins.expiring now within).Pairwise fun a b => a.notAfter.ordinal ≤ b.notAfter.ordinal) ∧
    ∀ longer, within ≤ longer → pins.expiring now within <+: pins.expiring now longer := by
  have perm : (pins.expiring now within).Perm
      (pins.values.filter fun pin => !pin.revoked && pin.endsWithin now within) := by
    rw [expiring_eq regular ends]
    refine (pins.standing_perm.filter _).trans ?_
    rw [List.filter_filter]
    exact .of_eq (List.filter_congr fun pin _ => Bool.and_comm _ _)
  refine ⟨fun pin => ?_, perm, ?_, fun longer more => ?_⟩
  · rw [perm.mem_iff, List.mem_filter]
    simp [Pin.endsWithin]
  · rw [expiring_eq regular ends]
    exact (standing_ascending ends).filter _
  · rw [expiring_eq regular ends, expiring_eq regular ends]
    have more : within.nanoseconds ≤ longer.nanoseconds := more
    apply filter_isPrefix_filter (standing_ascending ends)
    · intro a b order later
      simp only [Pin.endsWithin, decide_eq_true_eq] at later ⊢
      omega
    · intro pin early
      simp only [Pin.endsWithin, decide_eq_true_eq] at early ⊢
      omega

def endingPin (agentId : String) (notAfter : Instant) (revoked : Bool) : Pin :=
  { agentId, notAfter, revoked, fingerprint := "", certificatePem := "", region := "",
    firstSeen := .epoch, lastSeen := .epoch, revokedAt := none, revokedReason := none }

def soonPin : Pin := endingPin "soon" (Instant.epoch.advance (.ofSeconds 10)) false

def endlessPin : Pin := endingPin "endless" .latest false

def endedPin : Pin :=
  endingPin "ended" ((Instant.of? Instant.firstSecond 0).getD .epoch) false

def mixedPins : Pins :=
  [endlessPin, endingPin "revoked" .epoch true, soonPin, endedPin].foldl
    (fun pins pin => pins.set pin.agentId pin) .empty

def longestDuration : Duration := ⟨0x10000000000000000 * 1_000_000_000 - 1, by decide⟩

theorem expiring_exact_of_mixed_pins :
    (mixedPins.expiring .epoch (.ofNanoseconds 9_999_999_999)).Perm [endedPin] ∧
      (mixedPins.expiring .epoch (.ofSeconds 10)).Perm [soonPin, endedPin] ∧
      (mixedPins.expiring .epoch longestDuration).Perm [endlessPin, soonPin, endedPin] ∧
      mixedPins.expiring .epoch (.ofSeconds 10) <+: mixedPins.expiring .epoch longestDuration := by
  have exact (within : Duration) := @expiring_exact mixedPins .epoch rfl (by decide +kernel) within
  refine ⟨?_, ?_, ?_, (exact _).2.2.2 longestDuration (by decide +kernel)⟩
  · exact (exact _).2.1.trans (.of_eq (by decide +kernel))
  · exact (exact _).2.1.trans (.of_eq (by decide +kernel))
  · exact (exact _).2.1.trans (.of_eq (by decide +kernel))

end Pins

end HealthConsensus
