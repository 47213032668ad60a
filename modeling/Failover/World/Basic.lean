import Failover.Cluster.Route
import Failover.Url.Basic
import Failover.Url.Parse
import Failover.World.Task

/-
  The state that all sessions share: the engines, the number
  of active connections, the health of the repositories, the
  clock, and what has happened so far.

  Key definitions include:
    * `lastReading`
    * `World`, `World.initial`
    * `World.now`
    * `Effect`
    * `World.note`
    * `World.refused?`
    * `World.bindCommand`
    * `World.recordSuccess`, `World.recordFailure`
    * `World.openConnection`
    * `World.releaseDetached`
    * `World.order`, `World.rank`
-/

namespace Failover

/-
  The last time in microseconds that a clock can tell.  It
  counts nanoseconds in 63 bits.
-/
def lastReading : Nat := UInt64.size / 2 / 1000

/-
  The clock counts the milliseconds that are waited for, and
  the instant more microseconds, in which failures are told
  apart.  Each millisecond of waiting takes as many of these
  as the pace says.  No average is longer than a clock can
  tell.
-/
structure World where
  backend : String → Backend
  calls : String → Call → Nat
  health : String → Health
  turns : Counter → UInt64
  sessions : Nat
  connections : Nat
  active : Nat
  clock : Nat
  pace : Nat
  instant : Nat
  tasks : List Task
  started : Nat
  jobs : List Job
  log : List Event
  steady : ∀ repository,
    (health repository).averageLatency.toNat ≤ lastReading

/- What happens in the world and gives a result. -/
abbrev Effect := StateM World

namespace World

/- Nothing has happened yet, and waiting takes its time. -/
def initial (backend : String → Backend) : World where
  backend
  calls := fun _ _ => 0
  health := fun _ => {}
  turns := fun _ => 0
  sessions := 0
  connections := 0
  active := 0
  clock := 0
  pace := 1000
  instant := 0
  tasks := []
  started := 0
  jobs := []
  log := []
  steady := fun _ => Nat.zero_le _

/- What the clock tells, in microseconds. -/
def now (w : World) : Nat :=
  min (w.pace * w.clock + w.instant) lastReading

/- A function with another value at one place. -/
def update
    {α β : Type}
    [DecidableEq α]
    (f : α → β)
    (a : α)
    (b : β) : α → β :=
  fun x => if x = a then b else f x

def note (e : Event) : Effect Unit :=
  modify fun w => { w with log := w.log ++ [e] }

------------------------------------------------------------
-- Calls
------------------------------------------------------------

/- The number of the next call of a kind. -/
def nextCall
    (repository : String)
    (call : Call) : Effect Nat :=
  modifyGet fun w =>
    let n := w.calls repository call
    (n, { w with
      calls := update w.calls repository
        (update (w.calls repository) call (n + 1)) })

/- Why a repository's engine refuses a call, if it does. -/
def refused?
    (repository : String)
    (call : Call) : Effect (Option Failure) := do
  let n ← nextCall repository call
  return ((← get).backend repository).refusal call n

/- What a refusal makes of a call. -/
def outcomeOf : Option Failure → Except Failure Unit
  | some f => .error f
  | none => .ok ()

/- A call on a connection. -/
def callOn
    (c : Connection)
    (call : Call) : Effect (Except Failure Unit) := do
  let f ← refused? c.repository call
  note (.called call c f.isNone)
  return outcomeOf f

/- A statement is sent on a connection. -/
def fetch
    (c : Connection)
    (s : Statement) : Effect Response := do
  let n ← nextCall c.repository .fetch
  note (.fetched c s)
  return ((← get).backend c.repository).fetch n s

/- The bound form of a command; binding may be a call. -/
def bindCommand
    (r : Repository)
    (c : Command) : Effect (Except Failure BoundCommand) := do
  if r.provider.callsToBind then
    let f ← refused? r.name .bind
    note (.asked r.name c)
    match f with
    | some f => return .error f
    | none => return r.provider.bind c
  else return r.provider.bind c

------------------------------------------------------------
-- Connections
------------------------------------------------------------

/- One more connection is active. -/
def countOpened : Effect Nat :=
  modifyGet fun w =>
    (w.active + 1, { w with active := w.active + 1 })

/- One less is active; there are never less than none. -/
def countClosed : Effect Nat :=
  modifyGet fun w =>
    (w.active - 1, { w with active := w.active - 1 })

/- A repository's engine opens a connection or refuses. -/
def openConnection
    (repository : String) :
    Effect (Except Failure Connection) := do
  match ← refused? repository .opening with
  | some f =>
      note (.opened repository none)
      return .error f
  | none =>
      let c ← modifyGet fun w =>
        ((⟨w.connections, repository⟩ : Connection),
          { w with connections := w.connections + 1 })
      note (.opened repository (some c))
      return .ok c

/- What is told of a repository's connections. -/
def connectionInfo
    (r : Repository)
    (active : Nat) : ConnectionInfo :=
  ⟨r.provider.serverType, r.name,
    Url.maskPassword r.provider.url, active⟩

/-
  A connection that no session holds goes back.  An open
  transaction is committed first, and a connection on which
  this fails is discarded.
-/
def releaseDetached
    (c : Connection)
    (inTransaction : Bool) : Effect Unit := do
  if inTransaction then
    match ← callOn c .commit with
    | .error _ => note (.discarded c)
    | .ok () => discard (callOn c .close)
  else discard (callOn c .close)

------------------------------------------------------------
-- Health
------------------------------------------------------------

/- A repository has another health. -/
def setHealth
    (w : World)
    (repository : String)
    (h : Health)
    (hSteady : h.averageLatency.toNat ≤ lastReading) : World :=
  { w with
    health := update w.health repository h
    steady := by
      intro name
      unfold update
      split
      · exact hSteady
      · exact w.steady name }

/- A success of what began at some time. -/
def recordSuccess
    (repository : String)
    (started : Nat) : Effect Unit := do
  modify fun w =>
    w.setHealth repository
      ((w.health repository).recordSuccess
        (w.now - started)).health
      (Health.recordSuccess_average_le (by decide)
        (w.steady repository)
        (Nat.le_trans (Nat.sub_le ..) (Nat.min_le_right ..)))
  note (.recorded repository none)

/- No two failures have one instant. -/
def recordFailure
    (repository : String)
    (cause : Failure) : Effect Unit := do
  modify fun w =>
    let w := { w with instant := w.instant + 1 }
    w.setHealth repository
      ((w.health repository).recordFailure w.now).health
      (by
        rw [Health.recordFailure_health]
        exact w.steady repository)
  note (.recorded repository (some cause))

/- Members as a cluster's policy orders them now. -/
def order (k : Cluster) : Effect (List Repository) := do
  let w ← get
  set { w with turns := k.policy.turnsAfter k.members w.turns }
  return k.policy.rank (k.policy.turnIn w.turns) w.now
    (fun r => w.health r.name) k.members

/- The members of a cluster that takes commands, in order. -/
def rank
    (k : Cluster) :
    Effect (Except Failure (List Repository)) := do
  match k.available with
  | .error f => return .error f
  | .ok () => return .ok (← order k)

end World

end Failover
