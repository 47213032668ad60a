import Failover.Proofs.Common
import Failover.Provider.Basic
import Failover.World.Backend

/-
  The failures that come with a result, and where they are
  from: errors of the driver while a statement is at work, or
  arguments that a statement could not be sent with.

  Key definitions include:
    * `DriverError.isMisplaced`
    * `Failure.IsDriven`
    * `Progress.failures`
    * `BoundCommand.Misreads`
    * `Reply.IsBuiltIn`, `Backend.IsBuiltIn`

  Main statements:
    * `Failure.ofDriver_isPreExecution`
    * `Progress.receive_failures`
-/

namespace Failover

------------------------------------------------------------
-- Errors of drivers
------------------------------------------------------------

/-
  Errors that count as failures to open a connection even if
  the connection is there and a statement was sent on it.
-/
def DriverError.isMisplaced : DriverError → Bool
  | .configuration _ => true
  | .poolTimedOut => true
  | .poolClosed => true
  | .tls _ => true
  | _ => false

namespace Failure

theorem ofDriver_isPreExecution
    (repository : String)
    (e : DriverError) :
    (ofDriver repository .executing e).isPreExecution =
      e.isMisplaced := by
  cases e <;> rfl

/- The driver's error while a statement is at work. -/
def IsDriven
    (repository : String)
    (f : Failure) : Prop :=
  ∃ e, f = ofDriver repository .executing e

end Failure

------------------------------------------------------------
-- Failures of results
------------------------------------------------------------

/- The failures with which sets end. -/
def Outcome.failures (o : Outcome) : List Failure :=
  o.sets.filterMap (·.failure)

theorem Outcome.takeFrom_mem
    {sets : List ResultSet}
    {f : Failure}
    (h : (takeFrom sets).1 = some f) :
    f ∈ sets.filterMap (·.failure) := by
  induction sets with
  | nil => cases h
  | cons s r ih =>
      cases hSet : s.failure with
      | none =>
          simp only [takeFrom, hSet] at h
          rw [List.filterMap_cons_none hSet]
          exact ih h
      | some f' =>
          simp only [takeFrom, hSet] at h
          cases h
          rw [List.filterMap_cons_some hSet]
          exact List.mem_cons_self ..

namespace Progress

/- What went wrong, at once or while rows were arriving. -/
def failures : Reply → List Failure
  | .error f => [f]
  | .ok o => o.failures

theorem whole_failures
    {reply : Reply}
    {f : Failure}
    (h : whole reply = .error f) : f ∈ failures reply := by
  cases reply with
  | error f' =>
      cases h
      exact List.mem_singleton_self f
  | ok o =>
      rw [whole] at h
      cases hFailure : o.failure? with
      | none =>
          rw [hFailure] at h
          cases h
      | some f' =>
          rw [hFailure] at h
          cases h
          exact Outcome.takeFrom_mem hFailure

theorem whole_ok
    {reply : Reply}
    {o : Outcome}
    (h : whole reply = .ok o) : reply = .ok o := by
  cases reply with
  | error f => cases h
  | ok o' =>
      rw [whole] at h
      cases hFailure : o'.failure? with
      | none =>
          rw [hFailure] at h
          cases h
          rfl
      | some f =>
          rw [hFailure] at h
          cases h

/- Taking outputs from a row brings no failures in. -/
theorem takeMainRow_failures
    {parameters : List String}
    {o : Outcome}
    {f : Failure}
    (h : f ∈ failures (takeMainRow parameters o)) :
    f ∈ o.failures := by
  rw [takeMainRow] at h
  rw [Outcome.failures]
  split at h
  · next hNil =>
    rw [← Outcome.failures]
    exact h
  · next s r hCons =>
    rw [hCons]
    split at h
    · next f' hSet =>
      rw [List.filterMap_cons_some hSet]
      rw [List.mem_singleton.mp h]
      exact List.mem_cons_self ..
    · next hSet =>
      rw [List.filterMap_cons_none hSet]
      exact h

theorem takeReadback_failures
    (parameters : List String)
    (o read : Outcome) :
    (takeReadback parameters o read).failures = o.failures := by
  rw [takeReadback]
  split <;> rfl

/- The failures that are kept for the result. -/
def kept : Progress → List Failure
  | .readback _ _ o => o.failures
  | _ => []

/-
  Each failure of a result came with its reply or was kept
  from an earlier one.
-/
theorem receive_failures
    {p : Progress}
    {reply result : Reply}
    {f : Failure}
    (h : p.receive reply = .result result)
    (hMem : f ∈ failures result) :
    f ∈ failures reply ∨ f ∈ p.kept := by
  cases p with
  | setup s rest command =>
      simp only [receive] at h
      split at h
      · next f' hWhole =>
        cases h
        rw [List.mem_singleton.mp hMem]
        exact .inl (whole_failures hWhole)
      · cases h
  | main command =>
      simp only [receive] at h
      split at h
      · cases h
        exact .inl hMem
      · next o =>
        simp only [afterMain] at h
        split at h
        · cases h
          exact .inl hMem
        · cases h
          exact .inl (takeMainRow_failures hMem)
        · cases h
  | readback s parameters o =>
      simp only [receive] at h
      split at h
      · next f' hWhole =>
        cases h
        rw [List.mem_singleton.mp hMem]
        exact .inl (whole_failures hWhole)
      · next read hWhole =>
        cases h
        rw [failures, takeReadback_failures] at hMem
        exact .inr hMem

end Progress

------------------------------------------------------------
-- Built-in engines
------------------------------------------------------------

/-
  Replies of a built-in engine: an argument could not be bound
  and the statement was not sent, or whatever went wrong was
  an error of the driver.
-/
def Reply.IsBuiltIn
    (repository : String)
    (s : Statement)
    (reply : Reply) : Prop :=
  (∃ message, reply = .error (.commandBinding repository message) ∧
    s.arguments ≠ []) ∨
  ∀ f ∈ Progress.failures reply, f.IsDriven repository

def Backend.IsBuiltIn
    (repository : String)
    (k : Backend) : Prop :=
  ∀ n s reply, (k.fetch n s).reply = some reply →
    Reply.IsBuiltIn repository s reply

/-
  An argument of the statement that reads output values back
  could not be bound.
-/
def BoundCommand.Misreads
    (b : BoundCommand)
    (repository : String)
    (f : Failure) : Prop :=
  ∃ s parameters message, b.outputs = .readback s parameters ∧
    s.arguments ≠ [] ∧ f = .commandBinding repository message

end Failover
