import Failover.Proofs.Health.Counters
import Failover.World.Basic

/-
  The average latency against the samples that it is made of.
  Products that are too great stay at the greatest word, but
  their sum has to be a word.  As long as it is one, the
  average lies within the samples and each success moves it
  towards the new one.  Where it is none, the recording of the
  success panics.

  Key definitions include:
    * `Health.samples`
    * `Health.Recorded.Panics`, `Health.Overflows`
    * `Health.IsSmoothed`

  Main statements:
    * `Health.recordSuccess_panics_iff`
    * `Health.smoothed_iff`
    * `World.recordSuccess_ends`, `World.recordFailure_ends`
-/

namespace Failover

namespace Health

------------------------------------------------------------
-- Words
------------------------------------------------------------

theorem sample_pos (elapsed : Nat) : 0 < (sample elapsed).toNat := by
  rw [toNat_sample]
  omega

/- A word is zero if its number is. -/
theorem eq_zero_iff {a : UInt64} : a = 0 ↔ a.toNat = 0 := by
  rw [← UInt64.toNat_inj, UInt64.toNat_zero]

theorem latency?_eq_some_iff
    {micros : UInt64}
    {n : Nat} :
    latency? micros = some n ↔ 0 < n ∧ micros.toNat = n := by
  unfold latency?
  split
  · next h =>
    have hNone := eq_zero_iff.mp h
    constructor
    · intro hSome
      cases hSome
    · omega
  · next h =>
    have hSome : micros.toNat ≠ 0 := mt eq_zero_iff.mpr h
    rw [Option.some.injEq]
    omega

------------------------------------------------------------
-- One success
------------------------------------------------------------

/- The recording of an outcome does not come to its end. -/
def Recorded.Panics (x : Recorded) : Prop :=
  ∃ h, x = .panicked h

section Step

variable {average latest : UInt64}

/-
  A product that is cut off makes the sum too great, so the
  sum leaves the words exactly if the weighted sum does.
-/
theorem smooth?_eq_none_iff (hLatest : 0 < latest.toNat) :
    smooth? average latest = none ↔
      average ≠ 0 ∧
        UInt64.size ≤ 80 * average.toNat + 20 * latest.toNat := by
  have hSize : UInt64.size = 2 ^ 64 := rfl
  have hEighty : (80 : UInt64).toNat = 80 := rfl
  have hTwenty : (20 : UInt64).toNat = 20 := rfl
  unfold smooth?
  split
  · next hNone => simp [hNone]
  · next hSome =>
    have hPos := mt eq_zero_iff.mpr hSome
    rw [Option.map_eq_none_iff, plus?_eq_none_iff, toNat_times,
      toNat_times, hEighty, hTwenty, and_iff_right hSome]
    omega

/- The recording of a success panics if its sum is no word. -/
theorem recordSuccess_panics_iff
    {h : Health}
    {elapsed : Nat} :
    (h.recordSuccess elapsed).Panics ↔
      h.averageLatency ≠ 0 ∧
        UInt64.size ≤ 80 * h.averageLatency.toNat +
          20 * (sample elapsed).toNat := by
  rw [← smooth?_eq_none_iff (sample_pos elapsed)]
  unfold recordSuccess
  cases smooth? h.averageLatency (sample elapsed) with
  | none => exact ⟨fun _ => rfl, fun _ => ⟨_, rfl⟩⟩
  | some average => exact ⟨nofun, nofun⟩

/-
  Recording a failure panics at one time only, the last one
  that the clock can show.
-/
theorem recordFailure_panics_iff
    {h : Health}
    {now : Nat} :
    (h.recordFailure now).Panics ↔ now + 1 = UInt64.size := by
  have hOne : (1 : UInt64).toNat = 1 := rfl
  have hStamp : stamp? now = none ↔ now + 1 = UInt64.size := by
    unfold stamp?
    split
    · next hFits =>
      rw [plus?_eq_none_iff, UInt64.toNat_ofNat_of_lt' hFits, hOne]
      omega
    · next hGreat =>
      have hLast : plus? (UInt64.ofNat (UInt64.size - 2)) 1 ≠
          none := by
        decide
      exact ⟨fun hNone => absurd hNone hLast, by omega⟩
  rw [← hStamp]
  unfold recordFailure
  cases stamp? now with
  | none => exact ⟨fun _ => rfl, fun _ => ⟨_, rfl⟩⟩
  | some time => exact ⟨nofun, nofun⟩

end Step

------------------------------------------------------------
-- Histories
------------------------------------------------------------

/- What the successes of a history count for. -/
def samples (vs : List Verdict) : List Nat :=
  (vs.filterMap Verdict.elapsed?).map fun t =>
    max (min t (UInt64.size - 1)) 1

/- The average after a history, if there is one. -/
def average? (vs : List Verdict) : Option Nat :=
  latency? (ofHistory vs).averageLatency

/- The recording of some success of a history panics. -/
def Overflows (vs : List Verdict) : Prop :=
  ∃ earlier elapsed later,
    vs = earlier ++ .success elapsed :: later ∧
    ((ofHistory earlier).recordSuccess elapsed).Panics

/- There is an average, and it lies within the samples. -/
def IsWithin (vs : List Verdict) : Prop :=
  ∃ least greatest average,
    (samples vs).min? = some least ∧
    (samples vs).max? = some greatest ∧
    average? vs = some average ∧
    least ≤ average ∧ average ≤ greatest

/-
  What the average of a history is meant to be: a word at each
  step, within the samples, and moved by each success towards
  the new sample.
-/
structure IsSmoothed (vs : List Verdict) : Prop where
  fits : ¬ Overflows vs
  within : IsWithin vs
  moves : ∀ earlier elapsed later before,
    vs = earlier ++ .success elapsed :: later →
    average? earlier = some before →
      ∃ after,
        average? (earlier ++ [.success elapsed]) = some after ∧
        min before (sample elapsed).toNat ≤ after ∧
        after ≤ max before (sample elapsed).toNat

section Histories

variable {vs earlier : List Verdict} {elapsed : Nat}

theorem samples_success
    (vs : List Verdict)
    (elapsed : Nat) :
    samples (vs ++ [.success elapsed]) =
      samples vs ++ [(sample elapsed).toNat] := by
  rw [toNat_sample]
  simp [samples, Verdict.elapsed?]

theorem samples_failure
    (vs : List Verdict)
    (time : Instant) :
    samples (vs ++ [.failure time]) = samples vs := by
  simp [samples, Verdict.elapsed?]

theorem averageLatency_success
    (vs : List Verdict)
    (elapsed : Nat) :
    (ofHistory (vs ++ [.success elapsed])).averageLatency =
      (smooth? (ofHistory vs).averageLatency
        (sample elapsed)).getD (ofHistory vs).averageLatency := by
  rw [ofHistory_concat, record, recordSuccess_health]

theorem averageLatency_failure
    (vs : List Verdict)
    (time : Instant) :
    (ofHistory (vs ++ [.failure time])).averageLatency =
      (ofHistory vs).averageLatency := by
  rw [ofHistory_concat, record, recordFailure_health]

/- A panic leaves the average as it was. -/
theorem average?_of_panics
    (h : ((ofHistory vs).recordSuccess elapsed).Panics) :
    average? (vs ++ [.success elapsed]) = average? vs := by
  rw [recordSuccess_panics_iff,
    ← smooth?_eq_none_iff (sample_pos elapsed)] at h
  rw [average?, averageLatency_success, h, Option.getD_none,
    average?]

/- A success that is recorded moves the average towards it. -/
theorem averageLatency_between
    (hEnds : ¬ ((ofHistory vs).recordSuccess elapsed).Panics) :
    ((ofHistory vs).averageLatency ≠ 0 →
      min (ofHistory vs).averageLatency.toNat
          (sample elapsed).toNat ≤
        (ofHistory
          (vs ++ [.success elapsed])).averageLatency.toNat) ∧
    ((ofHistory vs).averageLatency = 0 →
      (ofHistory (vs ++ [.success elapsed])).averageLatency =
        sample elapsed) ∧
    (ofHistory (vs ++ [.success elapsed])).averageLatency.toNat ≤
      max (ofHistory vs).averageLatency.toNat
        (sample elapsed).toNat := by
  rw [averageLatency_success]
  cases hNext : smooth? (ofHistory vs).averageLatency
      (sample elapsed) with
  | none =>
      rw [smooth?_eq_none_iff (sample_pos elapsed),
        ← recordSuccess_panics_iff] at hNext
      exact absurd hNext hEnds
  | some next =>
      obtain ⟨hLeast, hMost⟩ :=
        smooth?_between (sample_pos elapsed) hNext
      refine ⟨hLeast, fun hNone => ?_, hMost⟩
      rw [smooth?, if_pos hNone] at hNext
      exact (Option.some.inj hNext).symm

/- A longer history has the sums of the shorter one. -/
theorem Overflows.longer
    (h : Overflows vs)
    (v : Verdict) : Overflows (vs ++ [v]) := by
  obtain ⟨earlier, elapsed, later, rfl, hGreat⟩ := h
  exact ⟨earlier, elapsed, later ++ [v], by simp, hGreat⟩

/-
  The average of a history whose sums fit is bounded by what
  bounds its samples, and it is zero only before the first
  one.  The induction is on the history, whose last verdict
  makes the last step.
-/
theorem averageLatency_bounds
    (hFits : ¬ Overflows vs)
    (least greatest : Nat)
    (hBounds : ∀ s ∈ samples vs, least ≤ s ∧ s ≤ greatest) :
    ((ofHistory vs).averageLatency = 0 → samples vs = []) ∧
    ((ofHistory vs).averageLatency ≠ 0 →
      least ≤ (ofHistory vs).averageLatency.toNat ∧
      (ofHistory vs).averageLatency.toNat ≤ greatest) := by
  induction vs using List.reverseRecOn with
  | nil => exact ⟨fun _ => rfl, fun h => absurd rfl h⟩
  | append_singleton vs v ih =>
      have hBefore : ¬ Overflows vs := fun h => hFits (h.longer v)
      cases v with
      | failure time =>
          rw [samples_failure] at hBounds ⊢
          rw [averageLatency_failure]
          exact ih hBefore hBounds
      | success elapsed =>
          rw [samples_success] at hBounds
          have hLast := hBounds _ (List.mem_concat_self ..)
          have hPos := sample_pos elapsed
          obtain ⟨-, hWithin⟩ := ih hBefore fun s hS =>
            hBounds s (List.mem_append_left _ hS)
          obtain ⟨hLeast, hFirst, hMost⟩ :=
            averageLatency_between fun hPanics =>
              hFits ⟨vs, elapsed, [], rfl, hPanics⟩
          by_cases hNone : (ofHistory vs).averageLatency = 0
          · -- The first sample is the average.
            rw [hFirst hNone]
            refine ⟨fun hZero => ?_, fun _ => hLast⟩
            rw [hZero, UInt64.toNat_zero] at hPos
            omega
          · have hOld := hWithin hNone
            have hOldPos := mt eq_zero_iff.mpr hNone
            have hLeast := hLeast hNone
            refine ⟨fun hZero => ?_, fun _ => by omega⟩
            rw [hZero, UInt64.toNat_zero] at hLeast
            omega

/- The average lies within the samples if all sums fit. -/
theorem isWithin_of_fits
    (hSome : samples vs ≠ [])
    (hFits : ¬ Overflows vs) : IsWithin vs := by
  obtain ⟨least, hLeast⟩ :=
    Option.ne_none_iff_exists'.mp (mt List.min?_eq_none_iff.mp hSome)
  obtain ⟨greatest, hGreatest⟩ :=
    Option.ne_none_iff_exists'.mp (mt List.max?_eq_none_iff.mp hSome)
  obtain ⟨hNone, hBetween⟩ :=
    averageLatency_bounds hFits least greatest fun s hS =>
      ⟨(List.min?_eq_some_iff.mp hLeast).2 s hS,
        (List.max?_eq_some_iff.mp hGreatest).2 s hS⟩
  have hAverage : (ofHistory vs).averageLatency ≠ 0 :=
    mt hNone hSome
  exact ⟨least, greatest, _, hLeast, hGreatest,
    latency?_eq_some_iff.mpr
      ⟨Nat.pos_of_ne_zero (mt eq_zero_iff.mpr hAverage), rfl⟩,
    hBetween hAverage⟩

/- Samples below a hundredth of the words have sums that fit. -/
theorem fits_of_small
    (hSmall : ∀ s ∈ samples vs, 100 * s < UInt64.size) :
    ¬ Overflows vs := by
  induction vs using List.reverseRecOn with
  | nil =>
      rintro ⟨earlier, elapsed, later, hEmpty, -⟩
      simp at hEmpty
  | append_singleton vs v ih =>
      have hSize : UInt64.size = 2 ^ 64 := rfl
      have hOld : ∀ s ∈ samples vs, 100 * s < UInt64.size := by
        intro s hS
        refine hSmall s ?_
        cases v with
        | success elapsed =>
            rw [samples_success]
            exact List.mem_append_left _ hS
        | failure time => rwa [samples_failure]
      have hFits := ih hOld
      rintro ⟨earlier, elapsed, later, hSplit, hGreat⟩
      rcases List.eq_nil_or_concat' later with rfl | ⟨later, last, rfl⟩
      · -- The last sum is of the average so far and a sample.
        obtain ⟨rfl, hLast⟩ := List.append_inj' hSplit rfl
        rw [List.singleton_inj] at hLast
        subst hLast
        rw [samples_success] at hSmall
        have hSample := hSmall _ (List.mem_concat_self ..)
        rw [recordSuccess_panics_iff] at hGreat
        have hAverage := (averageLatency_bounds hFits 0
          ((UInt64.size - 1) / 100) fun s hS => by
            have hS := hOld s hS
            omega).2 hGreat.1
        omega
      · rw [← List.cons_append, ← List.append_assoc] at hSplit
        obtain ⟨hSame, -⟩ := List.append_inj' hSplit rfl
        exact hFits ⟨earlier, elapsed, later, hSame, hGreat⟩

end Histories

------------------------------------------------------------
-- All of it
------------------------------------------------------------

/-
  The average of a history with a success is what it is meant
  to be exactly if no success panics, and none does for
  samples below a hundredth of the words.  A success panics
  exactly if there is an average, and four fifths of it and a
  fifth of the sample make up a hundredth of the words or more.
  This leaves the average as it was.
-/
theorem smoothed_iff
    (vs : List Verdict)
    (hSome : samples vs ≠ []) :
    (IsSmoothed vs ↔ ¬ Overflows vs) ∧
    ((∀ s ∈ samples vs, 100 * s < UInt64.size) →
      ¬ Overflows vs) ∧
    ∀ earlier elapsed,
      (((ofHistory earlier).recordSuccess elapsed).Panics ↔
        ∃ before, average? earlier = some before ∧
          UInt64.size ≤
            80 * before + 20 * (sample elapsed).toNat) ∧
      (((ofHistory earlier).recordSuccess elapsed).Panics →
        average? (earlier ++ [.success elapsed]) =
          average? earlier) := by
  refine ⟨⟨fun h => h.fits, fun hFits => ?_⟩, fits_of_small,
    fun earlier elapsed => ⟨?_, average?_of_panics⟩⟩
  · refine ⟨hFits, isWithin_of_fits hSome hFits, ?_⟩
    intro earlier elapsed later before hSplit hBefore
    obtain ⟨hPos, rfl⟩ := latency?_eq_some_iff.mp hBefore
    have hAverage : (ofHistory earlier).averageLatency ≠ 0 := by
      rw [Ne, eq_zero_iff]
      omega
    obtain ⟨hLeast, -, hMost⟩ :=
      averageLatency_between fun hPanics =>
        hFits ⟨earlier, elapsed, later, hSplit, hPanics⟩
    have hLeast := hLeast hAverage
    have hSample := sample_pos elapsed
    exact ⟨_, latency?_eq_some_iff.mpr ⟨by omega, rfl⟩, hLeast,
      hMost⟩
  · rw [recordSuccess_panics_iff]
    constructor
    · rintro ⟨hAverage, hGreat⟩
      have hPos := mt eq_zero_iff.mpr hAverage
      exact ⟨_, latency?_eq_some_iff.mpr ⟨by omega, rfl⟩, hGreat⟩
    · rintro ⟨before, hBefore, hGreat⟩
      obtain ⟨hPos, rfl⟩ := latency?_eq_some_iff.mp hBefore
      refine ⟨?_, hGreat⟩
      rw [Ne, eq_zero_iff]
      omega

/- The greatest average that two equal samples keep. -/
theorem hundredth_is_smoothed :
    samples [.success 184467440737095516,
      .success 184467440737095516] ≠ [] ∧
    IsSmoothed [.success 184467440737095516,
      .success 184467440737095516] := by
  have hSome : samples [.success 184467440737095516,
      .success 184467440737095516] ≠ [] := by
    decide
  obtain ⟨hIff, hSmall, -⟩ := smoothed_iff _ hSome
  exact ⟨hSome, hIff.mpr (hSmall (by decide))⟩

/-
  Two equal samples, one microsecond above the greatest that
  are kept: the second success panics.
-/
theorem equal_samples_overflow :
    ¬ ∀ vs : List Verdict, samples vs ≠ [] → IsSmoothed vs := by
  intro h
  have hSmoothed := h
    [.success 184467440737095517, .success 184467440737095517]
    (by decide)
  refine hSmoothed.fits
    ⟨[.success 184467440737095517], 184467440737095517, [], rfl, ?_⟩
  rw [recordSuccess_panics_iff]
  decide

end Health

------------------------------------------------------------
-- The world
------------------------------------------------------------

namespace World

variable (w : World) (repository : String)

/-
  Latencies that are told by a clock have a sum that is a word,
  so that no recording of a success panics.
-/
theorem recordSuccess_ends (started : Nat) :
    ¬ ((w.health repository).recordSuccess
      (w.now - started)).Panics := by
  have hSize : UInt64.size = 2 ^ 64 := rfl
  have hLast : lastReading = 2 ^ 63 / 1000 := rfl
  have hAverage := w.steady repository
  have hNow : w.now ≤ lastReading := Nat.min_le_right ..
  rw [Health.recordSuccess_panics_iff, Health.toNat_sample]
  omega

/- The times that a clock can tell are words with one more. -/
theorem recordFailure_ends :
    ¬ ((w.health repository).recordFailure w.now).Panics := by
  have hSize : UInt64.size = 2 ^ 64 := rfl
  have hLast : lastReading = 2 ^ 63 / 1000 := rfl
  have hNow : w.now ≤ lastReading := Nat.min_le_right ..
  rw [Health.recordFailure_panics_iff]
  omega

end World

end Failover
