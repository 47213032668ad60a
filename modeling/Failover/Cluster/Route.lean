import Failover.Cluster.Policy

/-
  Clusters: members in the order of their sequence numbers,
  and one operation tried on them in turn.

  Key definitions include:
    * `Cluster`, `Cluster.ofMembers`
    * `Cluster.available`
    * `Cluster.tryEach`
    * `Cluster.execute`
-/

namespace Failover

structure Cluster where
  name : String
  sequence : Int
  enabled : Bool
  members : List Repository
  policy : Policy

namespace Cluster

/-
  The members that are enabled, by their sequence numbers;
  equal ones stay as listed.
-/
def ordered (members : List Repository) : List Repository :=
  (members.filter (·.enabled)).mergeSort
    fun a b => decide (a.sequence ≤ b.sequence)

def ofMembers
    (name : String)
    (sequence : Int)
    (enabled : Bool)
    (members : List Repository)
    (policy : Policy) : Cluster :=
  ⟨name, sequence, enabled, ordered members, policy⟩

/- A cluster that takes no commands says why. -/
def available (k : Cluster) : Except Failure Unit :=
  if !k.enabled then
    .error (.clusterUnavailable k.name "cluster is disabled")
  else if k.members.isEmpty then
    .error (.clusterUnavailable k.name "no enabled members")
  else .ok ()

------------------------------------------------------------
-- Attempts
------------------------------------------------------------

/- How a series of attempts ends. -/
inductive Trial (α : Type) where
  | succeeded (a : α)
  | failed (last : Failure) (history : List Attempt)
  | untried

/- What is done with a member, and with what comes of it. -/
structure Trier (m : Type → Type) (α : Type) where
  attempt : Repository → m (Except Failure α)
  report : Repository → Bool → m Unit
  retry : Failure → Nat → Bool

/-
  Members are tried in turn until one succeeds, its failure
  is not to be followed by another attempt, or none is left.
  The history holds the failures so far.
-/
def tryEach
    {m : Type → Type}
    [Monad m]
    {α : Type}
    (t : Trier m α)
    (history : List Attempt) :
    List Repository → m (Trial α)
  | [] => return .untried
  | member :: rest => do
      match ← t.attempt member with
      | .ok a =>
          t.report member true
          return .succeeded a
      | .error f =>
          t.report member false
          let history :=
            history ++ [⟨member.name, f.message⟩]
          if t.retry f history.length && !rest.isEmpty then
            tryEach t history rest
          else return .failed f history

/-
  The last failure stands for all if members were left when
  it came; else the cluster is exhausted.
-/
def conclude
    {α : Type}
    (k : Cluster)
    (ranked : List Repository) :
    Trial α → Except Failure α
  | .succeeded a => .ok a
  | .untried =>
      .error (.clusterUnavailable k.name "no members were tried")
  | .failed last history =>
      if history.length < ranked.length then .error last
      else .error (.exhausted k.name last history)

/- A command on the ranked members of a cluster. -/
def execute
    {m : Type → Type}
    [Monad m]
    {α : Type}
    (k : Cluster)
    (c : Command)
    (ranked : List Repository)
    (attempt : Repository → m (Except Failure α))
    (report : Repository → Bool → m Unit) :
    m (Except Failure α) := do
  let t : Trier m α :=
    ⟨attempt, report, k.policy.shouldRetry c⟩
  return k.conclude ranked (← tryEach t [] ranked)

end Cluster

end Failover
