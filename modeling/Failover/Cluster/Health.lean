/-
  The health of a repository, from the successes and failures
  of the operations on it.  Times are in microseconds.  Sums
  are checked: one that is no word ends the call in a panic.

  Key definitions include:
    * `Health`
    * `Health.sample`, `Health.smooth?`
    * `Health.stamp?`
    * `Health.Recorded`
    * `Health.recordSuccess`, `Health.recordFailure`
    * `Health.sinceFailure?`
-/

namespace Failover

/-
  A word of zero stands for none: every sample of a latency is
  at least one microsecond, and the time of a failure is kept
  with one added to it.
-/
structure Health where
  successes : Nat := 0
  failures : Nat := 0
  consecutiveSuccesses : Nat := 0
  consecutiveFailures : Nat := 0
  lastLatency : UInt64 := 0
  averageLatency : UInt64 := 0
  lastFailure : UInt64 := 0
deriving DecidableEq, Repr, Inhabited

namespace Health

------------------------------------------------------------
-- Words
------------------------------------------------------------

/- The sample of a latency, within the words. -/
def sample (elapsed : Nat) : UInt64 :=
  UInt64.ofNat (max (min elapsed (UInt64.size - 1)) 1)

/- The greatest word stands for all greater products. -/
def times (a b : UInt64) : UInt64 :=
  UInt64.ofNat (min (a.toNat * b.toNat) (UInt64.size - 1))

/- A sum, unless it is no word. -/
def plus? (a b : UInt64) : Option UInt64 :=
  if a.toNat + b.toNat < UInt64.size then some (a + b) else none

/- A fifth of the new sample and the rest of the average. -/
def smooth?
    (average latest : UInt64) : Option UInt64 :=
  if average = 0 then some latest
  else
    (plus? (times average 80) (times latest 20)).map (· / 100)

/-
  One more than a time.  For a time that is no word stands the
  greatest word but one.
-/
def stamp? (now : Nat) : Option UInt64 :=
  if now < UInt64.size then plus? (UInt64.ofNat now) 1
  else plus? (UInt64.ofNat (UInt64.size - 2)) 1

/- What a latency counts for: at least one, and a word. -/
theorem toNat_sample (elapsed : Nat) :
    (sample elapsed).toNat =
      max (min elapsed (UInt64.size - 1)) 1 := by
  have hSize : UInt64.size = 2 ^ 64 := rfl
  exact UInt64.toNat_ofNat_of_lt' (by omega)

theorem toNat_times (a b : UInt64) :
    (times a b).toNat =
      min (a.toNat * b.toNat) (UInt64.size - 1) := by
  have hSize : UInt64.size = 2 ^ 64 := rfl
  exact UInt64.toNat_ofNat_of_lt' (by omega)

/- A sum that is a word is the sum of the numbers. -/
theorem plus?_eq_some_iff {a b sum : UInt64} :
    plus? a b = some sum ↔ a.toNat + b.toNat = sum.toNat := by
  have hSum := sum.toNat_lt_size
  unfold plus?
  split
  · next hFits =>
    have hNumber : (a + b).toNat = a.toNat + b.toNat := by
      rw [UInt64.toNat_add]
      exact Nat.mod_eq_of_lt hFits
    rw [Option.some_inj, ← UInt64.toNat_inj, hNumber]
  · next hGreat =>
    constructor
    · nofun
    · omega

theorem plus?_eq_none_iff {a b : UInt64} :
    plus? a b = none ↔ UInt64.size ≤ a.toNat + b.toNat := by
  unfold plus?
  split <;> simp <;> omega

/-
  An average lies between the one before and the sample, which
  is not zero.  A product that is cut off has no part in this:
  then the sum is no word.
-/
theorem smooth?_between
    {average latest next : UInt64}
    (hLatest : 0 < latest.toNat)
    (h : smooth? average latest = some next) :
    (average ≠ 0 → min average.toNat latest.toNat ≤ next.toNat) ∧
      next.toNat ≤ max average.toNat latest.toNat := by
  have hSize : UInt64.size = 2 ^ 64 := rfl
  unfold smooth? at h
  split at h
  · next hNone =>
    cases h
    exact ⟨fun hSome => absurd hNone hSome, Nat.le_max_right ..⟩
  · obtain ⟨sum, hSum, rfl⟩ := Option.map_eq_some_iff.mp h
    have hFits := sum.toNat_lt_size
    have hHundred : (100 : UInt64).toNat = 100 := rfl
    have hEighty : (80 : UInt64).toNat = 80 := rfl
    have hTwenty : (20 : UInt64).toNat = 20 := rfl
    rw [plus?_eq_some_iff, toNat_times, toNat_times, hEighty,
      hTwenty] at hSum
    rw [UInt64.toNat_div, hHundred]
    omega

------------------------------------------------------------
-- Recording
------------------------------------------------------------

/-
  How the recording of an outcome ends.  A panic leaves behind
  what was stored before it.
-/
inductive Recorded where
  | done (h : Health)
  | panicked (h : Health)

def Recorded.health : Recorded → Health
  | .done h => h
  | .panicked h => h

/- The average is stored last, as its sum may be no word. -/
def recordSuccess
    (h : Health)
    (elapsed : Nat) : Recorded :=
  let h' : Health := { h with
    successes := h.successes + 1
    consecutiveSuccesses := h.consecutiveSuccesses + 1
    consecutiveFailures := 0
    lastLatency := sample elapsed }
  match smooth? h.averageLatency (sample elapsed) with
  | some average => .done { h' with averageLatency := average }
  | none => .panicked h'

/- The time is stored last, for the same reason. -/
def recordFailure
    (h : Health)
    (now : Nat) : Recorded :=
  let h' : Health := { h with
    failures := h.failures + 1
    consecutiveFailures := h.consecutiveFailures + 1
    consecutiveSuccesses := 0 }
  match stamp? now with
  | some time => .done { h' with lastFailure := time }
  | none => .panicked h'

/- What a success leaves, whether its recording panics or not. -/
theorem recordSuccess_health
    (h : Health)
    (elapsed : Nat) :
    (h.recordSuccess elapsed).health = { h with
      successes := h.successes + 1
      consecutiveSuccesses := h.consecutiveSuccesses + 1
      consecutiveFailures := 0
      lastLatency := sample elapsed
      averageLatency :=
        (smooth? h.averageLatency (sample elapsed)).getD
          h.averageLatency } := by
  unfold recordSuccess
  cases smooth? h.averageLatency (sample elapsed) <;> rfl

theorem recordFailure_health
    (h : Health)
    (now : Nat) :
    (h.recordFailure now).health = { h with
      failures := h.failures + 1
      consecutiveFailures := h.consecutiveFailures + 1
      consecutiveSuccesses := 0
      lastFailure := (stamp? now).getD h.lastFailure } := by
  unfold recordFailure
  cases stamp? now <;> rfl

/- What bounds latencies and their average bounds the next. -/
theorem recordSuccess_average_le
    {h : Health}
    {elapsed most : Nat}
    (hMost : 0 < most)
    (hAverage : h.averageLatency.toNat ≤ most)
    (hElapsed : elapsed ≤ most) :
    (h.recordSuccess elapsed).health.averageLatency.toNat ≤
      most := by
  have hSample := toNat_sample elapsed
  rw [recordSuccess_health]
  cases hNext : smooth? h.averageLatency (sample elapsed) with
  | none => exact hAverage
  | some average =>
      have hBounds := (smooth?_between (by omega) hNext).2
      change average.toNat ≤ most
      omega

------------------------------------------------------------
-- Reading
------------------------------------------------------------

/- The time since the last failure, if there was one. -/
def sinceFailure?
    (h : Health)
    (now : Nat) : Option Nat :=
  if h.lastFailure = 0 then none
  else some (now - (h.lastFailure.toNat - 1))

/- A latency, unless it stands for none. -/
def latency? (micros : UInt64) : Option Nat :=
  if micros = 0 then none else some micros.toNat

end Health

end Failover
