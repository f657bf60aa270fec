import HealthConsensus.Time.Instant

namespace HealthConsensus.Instant

def ordinal (t : Instant) : Int := t.seconds * 1_000_000_000 + t.nanos

variable {a b c s t : Instant}

theorem le_refl (t : Instant) : t ≤ t := .inr ⟨rfl, Nat.le_refl _⟩

theorem le_trans (h : a ≤ b) (h' : b ≤ c) : a ≤ c := by
  rcases h with earlier | ⟨same, nanos⟩ <;> rcases h' with earlier' | ⟨same', nanos'⟩
  · exact .inl (by omega)
  · exact .inl (by omega)
  · exact .inl (by omega)
  · exact .inr (by omega)

theorem le_total (a b : Instant) : a ≤ b ∨ b ≤ a := by
  rcases Int.lt_trichotomy a.seconds b.seconds with earlier | same | later
  · exact .inl (.inl earlier)
  · rcases Nat.le_total a.nanos b.nanos with nanos | nanos
    · exact .inl (.inr ⟨same, nanos⟩)
    · exact .inr (.inr ⟨same.symm, nanos⟩)
  · exact .inr (.inl later)

theorem nanos_of_regular (h : t.isLeap = false) : t.nanos < 1_000_000_000 := by
  simpa [isLeap] using h

theorem ordinal_le (h : a ≤ b) (ha : a.isLeap = false) : a.ordinal ≤ b.ordinal := by
  have small := nanos_of_regular ha
  unfold ordinal
  rcases h with earlier | ⟨same, nanos⟩
  · omega
  · omega

theorem le_iff_ordinal_le (ha : a.isLeap = false) (hb : b.isLeap = false) :
    a ≤ b ↔ a.ordinal ≤ b.ordinal := by
  refine ⟨fun h => ordinal_le h ha, fun h => ?_⟩
  have small := nanos_of_regular ha
  have small' := nanos_of_regular hb
  unfold ordinal at h
  rcases Int.lt_trichotomy a.seconds b.seconds with earlier | same | later
  · exact .inl earlier
  · exact .inr ⟨same, by omega⟩
  · omega

theorem ordinal_le_latest (h : t.isLeap = false) : t.ordinal ≤ latest.ordinal := by
  have last := t.le_last
  have small := nanos_of_regular h
  simp only [ordinal, latest, lastSecond] at *
  omega

theorem nanosSince_regular (ha : a.isLeap = false) (hb : b.isLeap = false) :
    nanosSince a b = a.ordinal - b.ordinal := by
  have between : leapBetween a b = 0 := by simp [leapBetween, ha, hb]
  simp only [nanosSince, ordinal, between]
  omega

theorem since_nanoseconds (ha : a.isLeap = false) (hb : b.isLeap = false) :
    (a.since b).nanoseconds = (a.ordinal - b.ordinal).toNat := by
  have first := b.first_le
  have last := a.le_last
  have small := nanos_of_regular ha
  rw [since, nanosSince_regular ha hb]
  simp only [Duration.ofNanoseconds, ordinal, firstSecond, lastSecond] at *
  omega

theorem since_mono (h : s ≤ t) (hs : s.isLeap = false) (ht : t.isLeap = false)
    (hb : b.isLeap = false) : (s.since b).nanoseconds ≤ (t.since b).nanoseconds := by
  have order := ordinal_le h hs
  rw [since_nanoseconds hs hb, since_nanoseconds ht hb]
  omega

theorem since_le_add (h : s ≤ t) (hs : s.isLeap = false) (ht : t.isLeap = false)
    (hb : b.isLeap = false) :
    (t.since b).nanoseconds ≤ (s.since b).nanoseconds + (t.since s).nanoseconds := by
  have order := ordinal_le h hs
  rw [since_nanoseconds hs hb, since_nanoseconds ht hb, since_nanoseconds ht hs]
  omega

theorem since_eq_zero (h : s ≤ t) (hs : s.isLeap = false) (ht : t.isLeap = false) :
    (s.since t).nanoseconds = 0 := by
  have order := ordinal_le h hs
  rw [since_nanoseconds hs ht]
  omega

theorem of?_regular {seconds : Int} {nanos : Nat} (first : firstSecond ≤ seconds)
    (small : nanos < 1_000_000_000) :
    (∃ u, of? seconds nanos = some u ∧ u.isLeap = false ∧
        u.ordinal = seconds * 1_000_000_000 + nanos) ∨
      of? seconds nanos = none ∧ lastSecond < seconds := by
  by_cases last : seconds ≤ lastSecond
  · refine .inl ⟨⟨seconds, nanos, first, last, by omega, by omega⟩, ?_, ?_, rfl⟩
    · exact dif_pos ⟨first, last, by omega, by omega⟩
    · simpa [isLeap] using small
  · exact .inr ⟨dif_neg fun h => last h.2.1, Int.not_le.1 last⟩

theorem later?_regular (ht : t.isLeap = false) (d : Duration) :
    (∃ u, t.later? d = some u ∧ u.isLeap = false ∧ u.ordinal = t.ordinal + d.nanoseconds) ∨
      t.later? d = none ∧ latest.ordinal < t.ordinal + d.nanoseconds := by
  have first := t.first_le
  have small := nanos_of_regular ht
  have parts : d.nanoseconds = d.seconds * 1_000_000_000 + d.subsecond := by
    simp only [Duration.seconds, Duration.subsecond]
    omega
  let nanos := t.nanos + d.subsecond
  have eq : t.later? d =
      of? (t.seconds + d.seconds + (nanos / 1_000_000_000 : Nat)) (nanos % 1_000_000_000) := by
    simp [later?, ht, nanos]
  have low : firstSecond ≤ t.seconds + d.seconds + (nanos / 1_000_000_000 : Nat) := by omega
  rw [eq, parts]
  rcases of?_regular low (Nat.mod_lt nanos (by decide)) with
    ⟨u, found, regular, ordinal⟩ | ⟨none, beyond⟩
  · refine .inl ⟨u, found, regular, ?_⟩
    rw [ordinal, Instant.ordinal]
    omega
  · refine .inr ⟨none, ?_⟩
    simp only [Instant.ordinal, latest, lastSecond] at *
    omega

theorem add?_regular (ht : t.isLeap = false) (d : Duration) :
    (∃ u, t.add? d = some u ∧ u.isLeap = false ∧ u.ordinal = t.ordinal + d.nanoseconds) ∨
      t.add? d = none ∧ latest.ordinal < t.ordinal + d.nanoseconds := by
  by_cases fits : d.nanoseconds ≤ Duration.longestSigned
  · have eq : t.add? d = t.later? d := by simp [add?, Duration.signed?, fits]
    rw [eq]
    exact later?_regular ht d
  · -- even from the first instant the last one is nearer than that
    refine .inr ⟨by simp [add?, Duration.signed?, fits], ?_⟩
    have first := t.first_le
    simp only [Duration.longestSigned, ordinal, latest, firstSecond, lastSecond] at *
    omega

theorem horizon_regular (ht : t.isLeap = false) (d : Duration) :
    ((t.add? d).getD latest).isLeap = false := by
  rcases add?_regular ht d with ⟨u, found, regular, -⟩ | ⟨none, -⟩
  · rw [found]
    exact regular
  · rw [none]
    rfl

theorem le_horizon_iff (ha : a.isLeap = false) (ht : t.isLeap = false) (d : Duration) :
    a ≤ (t.add? d).getD latest ↔ a.ordinal - t.ordinal ≤ d.nanoseconds := by
  rw [le_iff_ordinal_le ha (horizon_regular ht d)]
  rcases add?_regular ht d with ⟨u, found, -, ordinal⟩ | ⟨none, beyond⟩
  · rw [found, Option.getD_some, ordinal]
    omega
  · have inside := ordinal_le_latest ha
    rw [none, Option.getD_none]
    omega

end HealthConsensus.Instant
