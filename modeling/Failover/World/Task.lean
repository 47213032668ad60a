import Failover.World.Event

/-
  Work on a connection that goes on by itself, and work that
  is left behind in the background.

  Key definitions include:
    * `Task`, `Task.State`
    * `Task.due?`
    * `Job`
-/

namespace Failover

/-
  A task waits for the reply to a statement until a time, has
  finished and gives its connection back, was stopped without
  it, or has died with it.
-/
inductive Task.State where
  | waiting
      (time : Nat)
      (progress : Progress)
      (reply : Option Reply)
  | finished (connection : Connection) (result : Reply)
  | stopped (cause : Failure)
  | died
deriving Inhabited

/- The limit is in seconds and times in milliseconds. -/
structure Task where
  id : Nat
  connection : Connection
  limit : Nat
  deadline : Nat
  state : Task.State
deriving Inhabited

namespace Task

/- When a task that waits goes on. -/
def due? (t : Task) : Option Nat :=
  match t.state with
  | .waiting time _ _ => some (min time t.deadline)
  | _ => none

def isWaiting (t : Task) : Bool :=
  t.due?.isSome

/- A bound of the times at which a task may go on. -/
def steps (t : Task) : Nat :=
  match t.state with
  | .waiting _ progress _ => progress.size + 1
  | _ => 0

/- The steps that some tasks have left. -/
def stepsOf : List Task → Nat
  | [] => 0
  | t :: tasks => t.steps + stepsOf tasks

end Task

/-
  A connection that no session holds is released: that of a
  task when it ends, or one inside a transaction.
-/
inductive Job where
  | afterTask (task : Nat) (inTransaction : Bool)
  | commit (connection : Connection)
deriving DecidableEq, Repr

end Failover
