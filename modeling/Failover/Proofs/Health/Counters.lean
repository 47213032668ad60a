import Failover.Cluster.Health
import Mathlib.Data.List.DropRight

/-
  What the health of a repository holds of all that has been
  recorded of it, from its beginning on: the totals count the
  verdicts, the two streaks are the verdicts of one kind at the
  end, and the latest failure and the latest latency are those
  of the last verdict of their kind.

  Key definitions include:
    * `Health.Instant`, `Health.Verdict`
    * `Health.record`
    * `Health.ofHistory`
    * `Health.failuresInARow`, `Health.lastFailure?`
    * `IsLongestSuffix`
    * `Health.lastElapsed?`
    * `Health.Reflects`

  Main statements:
    * `Health.stamp?_instant`
    * `Health.consecutiveFailures_ofHistory`
    * `Health.sinceFailure?_ofHistory`
    * `isLongestSuffix_rtakeWhile`
    * `Health.counters_reflect_history`
-/

namespace Failover

namespace Health

/-
  A time in microseconds that is a word with one more.  Clocks
  that count nanoseconds in 63 bits tell no other one.
-/
structure Instant where
  micros : Nat
  isWord : micros + 1 < UInt64.size := by decide

/-
  What is recorded of an operation: that it succeeded and how
  long it took, or that it failed and when.
-/
inductive Verdict where
  | success (elapsed : Nat)
  | failure (time : Instant)

def Verdict.isFailure : Verdict → Bool
  | .success _ => false
  | .failure _ => true

/- When a failure came. -/
def Verdict.time? : Verdict → Option Nat
  | .success _ => none
  | .failure time => some time.micros

/- What a verdict leaves, also if its recording panics. -/
def record
    (h : Health) : Verdict → Health
  | .success elapsed => (h.recordSuccess elapsed).health
  | .failure time => (h.recordFailure time.micros).health

/- The health after some verdicts, the earliest one first. -/
def ofHistory (vs : List Verdict) : Health :=
  vs.foldl record {}

/- The number of failures since the last success. -/
def failuresInARow (vs : List Verdict) : Nat :=
  (vs.rtakeWhile Verdict.isFailure).length

/- When the last of the failures came. -/
def lastFailure? (vs : List Verdict) : Option Nat :=
  (vs.filterMap Verdict.time?).getLast?

------------------------------------------------------------
-- One verdict
------------------------------------------------------------

/- A time is kept as a word that stands for no other. -/
theorem stamp?_instant (time : Instant) :
    ∃ word, stamp? time.micros = some word ∧
      word.toNat = time.micros + 1 := by
  have hTime := time.isWord
  have hFits : time.micros < UInt64.size := by omega
  have hNumber : (UInt64.ofNat time.micros).toNat = time.micros :=
    UInt64.toNat_ofNat_of_lt' hFits
  have hOne : (1 : UInt64).toNat = 1 := rfl
  rw [stamp?, if_pos hFits]
  cases hSum : plus? (UInt64.ofNat time.micros) 1 with
  | none =>
      rw [plus?_eq_none_iff, hNumber, hOne] at hSum
      omega
  | some word =>
      rw [plus?_eq_some_iff, hNumber, hOne] at hSum
      exact ⟨word, rfl, hSum.symm⟩

/- A failure has the time since then counted from it. -/
theorem sinceFailure?_failure
    (h : Health)
    (time : Instant)
    (now : Nat) :
    (h.record (.failure time)).sinceFailure? now =
      some (now - time.micros) := by
  obtain ⟨word, hStamp, hWord⟩ := stamp?_instant time
  have hSome : word ≠ 0 := by
    intro hZero
    rw [hZero, UInt64.toNat_zero] at hWord
    omega
  rw [record, recordFailure_health, hStamp, Option.getD_some]
  unfold sinceFailure?
  rw [if_neg hSome, hWord, Nat.add_sub_cancel]

/- A success leaves the time of the last failure. -/
theorem sinceFailure?_success
    (h : Health)
    (elapsed now : Nat) :
    (h.record (.success elapsed)).sinceFailure? now =
      h.sinceFailure? now := by
  rw [record, recordSuccess_health]
  rfl

theorem consecutiveFailures_success
    (h : Health)
    (elapsed : Nat) :
    (h.record (.success elapsed)).consecutiveFailures = 0 := by
  rw [record, recordSuccess_health]

theorem consecutiveFailures_failure
    (h : Health)
    (time : Instant) :
    (h.record (.failure time)).consecutiveFailures =
      h.consecutiveFailures + 1 := by
  rw [record, recordFailure_health]

theorem consecutiveSuccesses_success
    (h : Health)
    (elapsed : Nat) :
    (h.record (.success elapsed)).consecutiveSuccesses =
      h.consecutiveSuccesses + 1 := by
  rw [record, recordSuccess_health]

theorem consecutiveSuccesses_failure
    (h : Health)
    (time : Instant) :
    (h.record (.failure time)).consecutiveSuccesses = 0 := by
  rw [record, recordFailure_health]

------------------------------------------------------------
-- Histories
------------------------------------------------------------

/- The last verdict of a history is recorded last. -/
theorem ofHistory_concat
    (vs : List Verdict)
    (v : Verdict) :
    ofHistory (vs ++ [v]) = (ofHistory vs).record v := by
  unfold ofHistory
  rw [List.foldl_append]
  rfl

theorem consecutiveFailures_ofHistory (vs : List Verdict) :
    (ofHistory vs).consecutiveFailures = failuresInARow vs := by
  induction vs using List.reverseRecOn with
  | nil => rfl
  | append_singleton vs v ih =>
      rw [ofHistory_concat, failuresInARow]
      cases v with
      | success elapsed =>
          rw [List.rtakeWhile_concat_neg _ _ _ Bool.false_ne_true]
          exact consecutiveFailures_success _ _
      | failure time =>
          rw [List.rtakeWhile_concat_pos _ _ _ rfl,
            List.length_append, ← failuresInARow, ← ih]
          exact consecutiveFailures_failure _ _

/- The word that is kept stands for the last of the failures. -/
theorem sinceFailure?_ofHistory
    (vs : List Verdict)
    (now : Nat) :
    (ofHistory vs).sinceFailure? now =
      (lastFailure? vs).map (now - ·) := by
  induction vs using List.reverseRecOn with
  | nil => rfl
  | append_singleton vs v ih =>
      rw [ofHistory_concat]
      unfold lastFailure? at ih ⊢
      rw [List.filterMap_append]
      cases v with
      | success elapsed =>
          rw [sinceFailure?_success, ih]
          simp [Verdict.time?]
      | failure time =>
          rw [sinceFailure?_failure]
          simp [Verdict.time?]

end Health

------------------------------------------------------------
-- Streaks
------------------------------------------------------------

/- The longest end of a list that has a property throughout. -/
structure IsLongestSuffix
    {α : Type}
    (p : α → Bool)
    (xs run : List α) : Prop where
  suffix : run <:+ xs
  all : ∀ x ∈ run, p x = true
  longest : ∀ other, other <:+ xs → (∀ x ∈ other, p x = true) →
    other.length ≤ run.length

theorem isLongestSuffix_rtakeWhile
    {α : Type}
    (p : α → Bool)
    (xs : List α) :
    IsLongestSuffix p xs (xs.rtakeWhile p) := by
  refine ⟨List.rtakeWhile_suffix p xs,
    fun x => List.mem_rtakeWhile_imp, ?_⟩
  rintro other ⟨before, rfl⟩ hAll
  have hReversed : ∀ x ∈ other.reverse, p x = true :=
    fun x hX => hAll x (List.mem_reverse.mp hX)
  rw [List.rtakeWhile, List.reverse_append, List.length_reverse,
    List.takeWhile_append_of_pos hReversed, List.length_append,
    List.length_reverse]
  exact Nat.le_add_right _ _

namespace Health

def Verdict.isSuccess : Verdict → Bool
  | .success _ => true
  | .failure _ => false

/- How long a success took. -/
def Verdict.elapsed? : Verdict → Option Nat
  | .success elapsed => some elapsed
  | .failure _ => none

/- How long the last of the successes took. -/
def lastElapsed? (vs : List Verdict) : Option Nat :=
  (vs.filterMap Verdict.elapsed?).getLast?

------------------------------------------------------------
-- Totals
------------------------------------------------------------

theorem successes_ofHistory (vs : List Verdict) :
    (ofHistory vs).successes = vs.countP Verdict.isSuccess := by
  induction vs using List.reverseRecOn with
  | nil => rfl
  | append_singleton vs v ih =>
      rw [ofHistory_concat, List.countP_append, ← ih]
      cases v with
      | success elapsed => rw [record, recordSuccess_health]; rfl
      | failure time => rw [record, recordFailure_health]; rfl

theorem failures_ofHistory (vs : List Verdict) :
    (ofHistory vs).failures = vs.countP Verdict.isFailure := by
  induction vs using List.reverseRecOn with
  | nil => rfl
  | append_singleton vs v ih =>
      rw [ofHistory_concat, List.countP_append, ← ih]
      cases v with
      | success elapsed => rw [record, recordSuccess_health]; rfl
      | failure time => rw [record, recordFailure_health]; rfl

------------------------------------------------------------
-- Runs of one kind
------------------------------------------------------------

theorem consecutiveSuccesses_ofHistory (vs : List Verdict) :
    (ofHistory vs).consecutiveSuccesses =
      (vs.rtakeWhile Verdict.isSuccess).length := by
  induction vs using List.reverseRecOn with
  | nil => rfl
  | append_singleton vs v ih =>
      rw [ofHistory_concat]
      cases v with
      | success elapsed =>
          rw [List.rtakeWhile_concat_pos _ _ _ rfl,
            List.length_append, ← ih]
          exact consecutiveSuccesses_success _ _
      | failure time =>
          rw [List.rtakeWhile_concat_neg _ _ _ Bool.false_ne_true]
          exact consecutiveSuccesses_failure _ _

/- The last verdict ends the streak of the other kind. -/
theorem one_streak (vs : List Verdict) :
    (ofHistory vs).consecutiveFailures = 0 ∨
    (ofHistory vs).consecutiveSuccesses = 0 := by
  induction vs using List.reverseRecOn with
  | nil => exact .inl rfl
  | append_singleton vs v _ =>
      rw [ofHistory_concat]
      cases v with
      | success elapsed =>
          exact .inl (consecutiveFailures_success _ _)
      | failure time =>
          exact .inr (consecutiveSuccesses_failure _ _)

------------------------------------------------------------
-- The latest verdicts
------------------------------------------------------------

/- A history has no last failure exactly if it has no failure. -/
theorem lastFailure?_eq_none_iff (vs : List Verdict) :
    lastFailure? vs = none ↔ ∀ v ∈ vs, v.isFailure = false := by
  rw [lastFailure?, List.getLast?_eq_none_iff,
    List.filterMap_eq_nil_iff]
  refine forall₂_congr fun v _ => ?_
  cases v <;> simp [Verdict.time?, Verdict.isFailure]

/- A sample stands for the latency, as it is never zero. -/
theorem latency?_sample (elapsed : Nat) :
    latency? (sample elapsed) =
      some (max (min elapsed (UInt64.size - 1)) 1) := by
  have hSame := toNat_sample elapsed
  have hSome : sample elapsed ≠ 0 := by
    intro hZero
    rw [hZero, UInt64.toNat_zero] at hSame
    omega
  rw [latency?, if_neg hSome, hSame]

theorem lastLatency_ofHistory (vs : List Verdict) :
    latency? (ofHistory vs).lastLatency =
      (lastElapsed? vs).map fun t =>
        max (min t (UInt64.size - 1)) 1 := by
  induction vs using List.reverseRecOn with
  | nil => rfl
  | append_singleton vs v ih =>
      rw [ofHistory_concat]
      unfold lastElapsed? at ih ⊢
      rw [List.filterMap_append]
      cases v with
      | success elapsed =>
          have hLast : [Verdict.success elapsed].filterMap
              Verdict.elapsed? = [elapsed] :=
            rfl
          rw [hLast, List.getLast?_append, List.getLast?_singleton,
            record, recordSuccess_health]
          exact latency?_sample elapsed
      | failure time =>
          -- A failure leaves the latency of the last success.
          have hNone : [Verdict.failure time].filterMap
              Verdict.elapsed? = [] :=
            rfl
          rw [hNone, List.append_nil, record, recordFailure_health]
          exact ih

------------------------------------------------------------
-- All of them
------------------------------------------------------------

/- What the health of a repository tells of its history. -/
structure Reflects
    (h : Health)
    (vs : List Verdict) : Prop where
  successes : h.successes = vs.countP Verdict.isSuccess
  failures : h.failures = vs.countP Verdict.isFailure
  failureStreak :
    ∃ run, IsLongestSuffix Verdict.isFailure vs run ∧
      h.consecutiveFailures = run.length
  successStreak :
    ∃ run, IsLongestSuffix Verdict.isSuccess vs run ∧
      h.consecutiveSuccesses = run.length
  oneStreak :
    h.consecutiveFailures = 0 ∨ h.consecutiveSuccesses = 0
  neverFailed : ∀ now,
    h.sinceFailure? now = none ↔ ∀ v ∈ vs, v.isFailure = false
  sinceFailure : ∀ now,
    h.sinceFailure? now = (lastFailure? vs).map (now - ·)
  latency :
    latency? h.lastLatency =
      (lastElapsed? vs).map fun t =>
        max (min t (UInt64.size - 1)) 1

/-
  The health after a history reflects it, and the totals do not
  depend on the order of the verdicts.
-/
theorem counters_reflect_history (vs : List Verdict) :
    (ofHistory vs).Reflects vs ∧
    ∀ ws : List Verdict, ws.Perm vs →
      (ofHistory ws).successes = (ofHistory vs).successes ∧
      (ofHistory ws).failures = (ofHistory vs).failures := by
  constructor
  · constructor
    case successes => exact successes_ofHistory vs
    case failures => exact failures_ofHistory vs
    case failureStreak =>
      exact ⟨_, isLongestSuffix_rtakeWhile _ vs,
        consecutiveFailures_ofHistory vs⟩
    case successStreak =>
      exact ⟨_, isLongestSuffix_rtakeWhile _ vs,
        consecutiveSuccesses_ofHistory vs⟩
    case oneStreak => exact one_streak vs
    case neverFailed =>
      intro now
      rw [sinceFailure?_ofHistory, Option.map_eq_none_iff]
      exact lastFailure?_eq_none_iff vs
    case sinceFailure => exact sinceFailure?_ofHistory vs
    case latency => exact lastLatency_ofHistory vs
  · intro ws hPerm
    simp only [successes_ofHistory, failures_ofHistory]
    exact ⟨hPerm.countP_eq _, hPerm.countP_eq _⟩

/- A failure after thirty microseconds. -/
def failedEarly : Verdict :=
  .failure { micros := 30 }

/-
  Two histories with the same outcomes in another order have
  the same counters.
-/
theorem swapped_verdicts_count_the_same :
    [failedEarly, .success 0, .success 12].Perm
        [.success 12, failedEarly, .success 0] ∧
    (ofHistory [failedEarly, .success 0, .success 12]).successes =
      (ofHistory [.success 12, failedEarly, .success 0]).successes ∧
    (ofHistory [failedEarly, .success 0, .success 12]).failures =
      (ofHistory [.success 12, failedEarly, .success 0]).failures := by
  have hPerm : [failedEarly, .success 0, .success 12].Perm
      [.success 12, failedEarly, .success 0] :=
    List.perm_append_singleton (Verdict.success 12)
      [failedEarly, Verdict.success 0]
  exact ⟨hPerm, (counters_reflect_history _).2 _ hPerm⟩

end Health

end Failover
