import Failover.Cluster.Health
import Failover.Repository

/-
  Policies: in which order the members of a cluster are
  tried, and whether a failure leads on to the next of them.

  Key definitions include:
    * `Counter`
    * `Policy`, `Policy.ofConfig`
    * `Policy.cooling?`
    * `Policy.rank`
    * `Policy.rotated`
    * `Policy.shouldRetry`
-/

namespace Failover

/-
  What turns are counted by.  A policy that was made in code
  has a counter of its own, whichever clusters follow it, and
  so has one that was made for a cluster.
-/
inductive Counter where
  | ofCode (number : Nat)
  | ofCluster (name : String)
deriving DecidableEq, Repr

/-
  How members are ordered: those that failed lately last, as
  configured, with a first place that moves on, or by a rule
  of its own.
-/
inductive Ranking where
  | cooldown (threshold micros : Nat)
  | configured
  | rotating (counter : Counter)
  | custom (order : List Repository → List Repository)

/- When a failed attempt is followed by another. -/
inductive RetryRule where
  | standard (maxAttempts : Option Nat)
  | custom (decide : Command → Failure → Nat → Bool)

/-
  A policy under its name.  One that listens takes note of
  each attempt's outcome.
-/
structure Policy where
  name : String
  ranking : Ranking
  retry : RetryRule
  listens : Bool

namespace Policy

/- The policy that a configuration makes for a cluster. -/
def ofConfig
    (cluster : String)
    (p : Config.Policy) : Policy where
  name := p.name
  ranking :=
    match p.kind with
    | .cooldown =>
        .cooldown p.failureThreshold (p.cooldown * 1000000)
    | .ordered => .configured
    | .roundRobin => .rotating (.ofCluster cluster)
  retry := .standard p.maxAttempts
  listens := false

------------------------------------------------------------
-- Ranking
------------------------------------------------------------

/-
  How long ago the last failure was, if there were enough of
  them in a row and it was not too long ago.
-/
def cooling?
    (threshold micros now : Nat)
    (h : Health) : Option Nat :=
  if h.consecutiveFailures < max threshold 1 then none
  else (h.sinceFailure? now).filter fun t => decide (t < micros)

/- Those that cool, with the time since their failures. -/
def coolingMembers
    (cooling : Repository → Option Nat)
    (members : List Repository) : List (Nat × Repository) :=
  members.filterMap fun m => (cooling m).map fun t => (t, m)

/-
  The members that do not cool, as configured, and then the
  others, the longest since its failure first.
-/
def rankByCooling
    (cooling : Repository → Option Nat)
    (members : List Repository) : List Repository :=
  members.filter (fun m => (cooling m).isNone) ++
    ((coolingMembers cooling members).mergeSort
      fun a b => decide (b.1 ≤ a.1)).map (·.2)

/- The members from a turn's place on, then those before. -/
def rotated
    {α : Type}
    (turn : UInt64)
    (members : List α) : List α :=
  let k := turn.toNat % members.length
  members.drop k ++ members.take k

/- The members in the order in which they are tried. -/
def rank
    (p : Policy)
    (turn : UInt64)
    (now : Nat)
    (health : Repository → Health)
    (members : List Repository) : List Repository :=
  match p.ranking with
  | .cooldown threshold micros =>
      rankByCooling
        (fun m => cooling? threshold micros now (health m))
        members
  | .configured => members
  | .rotating _ => rotated turn members
  | .custom order => order members

/- The turn of a policy that has one. -/
def turnIn
    (p : Policy)
    (turns : Counter → UInt64) : UInt64 :=
  match p.ranking with
  | .rotating c => turns c
  | _ => 0

/- A ranking of some members takes a turn. -/
def turnsAfter
    (p : Policy)
    (members : List Repository)
    (turns : Counter → UInt64) : Counter → UInt64 :=
  match p.ranking with
  | .rotating c =>
      if members.isEmpty then turns
      else fun x => if x = c then turns c + 1 else turns x
  | _ => turns

------------------------------------------------------------
-- Retrying
------------------------------------------------------------

/-
  A result that does not convert will not convert elsewhere.
  A command that is not safe to repeat goes on only if it did
  not reach the engine.
-/
def standardRetry
    (maxAttempts : Option Nat)
    (c : Command)
    (f : Failure)
    (attempt : Nat) : Bool :=
  match f with
  | .resultConversion _ _ => false
  | _ =>
      if !c.retrySafe && !f.isPreExecution then false
      else
        match maxAttempts with
        | none => true
        | some most => attempt < most

/- Attempts are counted from one. -/
def shouldRetry
    (p : Policy)
    (c : Command)
    (f : Failure)
    (attempt : Nat) : Bool :=
  match p.retry with
  | .standard most => standardRetry most c f attempt
  | .custom decide => decide c f attempt

end Policy

end Failover
