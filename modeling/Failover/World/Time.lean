import Failover.World.Basic

/-
  Tasks go on when the replies that they wait for arrive, and
  end when their time is over.  Time passes only for someone
  who waits, from one arrival to the next.

  Key definitions include:
    * `World.spawn`
    * `World.goOn`
    * `World.runJobs`
    * `World.pass`
    * `World.await`
-/

namespace Failover

namespace World

------------------------------------------------------------
-- Tasks
------------------------------------------------------------

/- A command that exceeds its time loses its connection. -/
def timeOut (t : Task) : Effect Task.State := do
  note (.discarded t.connection)
  return .stopped
    (.timeout t.connection.repository "Command" t.limit)

/-
  The next statement is sent, and those after it as long as
  replies come at once.  A reply counts that comes at the
  very end of the time.
-/
def send
    (t : Task)
    (p : Progress) : Effect Task.State := do
  let r ← fetch t.connection p.statement
  if r.delay = 0 then
    match r.reply with
    | none => return .died
    | some reply =>
        match h : p.receive reply with
        | .result result =>
            return .finished t.connection result
        | .more q =>
            have := Progress.size_receive h
            send t q
  else
    let now := (← get).clock
    if t.deadline ≤ now then timeOut t
    else return .waiting (now + r.delay) p r.reply
termination_by p.size

/- What has arrived is taken. -/
def take
    (t : Task)
    (p : Progress) : Option Reply → Effect Task.State
  | none => return .died
  | some reply =>
      match p.receive reply with
      | .result result =>
          return .finished t.connection result
      | .more q => send t q

/- A task goes on if its reply or the end of its time came. -/
def goOn (t : Task) : Effect Task := do
  match t.state with
  | .waiting time p reply =>
      let now := (← get).clock
      if time ≤ now then
        return { t with state := ← take t p reply }
      else if t.deadline ≤ now then
        return { t with state := ← timeOut t }
      else return t
  | _ => return t

/- A bound command begins to run on a connection. -/
def spawn
    (c : Connection)
    (limit : Nat)
    (command : BoundCommand) : Effect Nat := do
  let w ← get
  let id := w.started
  let t : Task :=
    { id, connection := c, limit
      deadline := w.clock + limit * 1000
      state := .died }
  set { w with started := id + 1 }
  let state ← send t (.start command)
  modify fun w =>
    { w with tasks := w.tasks ++ [{ t with state }] }
  return id

def task?
    (w : World)
    (id : Nat) : Option Task :=
  w.tasks.find? (·.id == id)

def removeTask (id : Nat) : Effect Unit :=
  modify fun w =>
    { w with tasks := w.tasks.filter (·.id != id) }

------------------------------------------------------------
-- Background
------------------------------------------------------------

/- A job is done, unless the task that it is for goes on. -/
def runJob : Job → Effect Bool
  | .commit c => do
      releaseDetached c true
      discard countClosed
      return true
  | .afterTask id inTransaction => do
      match (← get).task? id with
      | none => return true
      | some t =>
          if t.isWaiting then return false
          removeTask id
          match t.state with
          | .finished c _ =>
              releaseDetached c inTransaction
          | _ => pure ()
          discard countClosed
          return true

/- Jobs are done in turn; those that cannot be yet remain. -/
def runEach : List Job → Effect (List Job)
  | [] => return []
  | j :: r => do
      let isDone ← runJob j
      let rest ← runEach r
      return if isDone then rest else j :: rest

def runJobs : Effect Unit := do
  let jobs := (← get).jobs
  let rest ← runEach jobs
  modify fun w => { w with jobs := rest }

def addJob (j : Job) : Effect Unit :=
  modify fun w => { w with jobs := w.jobs ++ [j] }

------------------------------------------------------------
-- Time
------------------------------------------------------------

/- When the next task goes on. -/
def nextDue? (w : World) : Option Nat :=
  (w.tasks.filterMap Task.due?).min?

/- The tasks go on that can, and then the jobs. -/
def arrive (time : Nat) : Effect Unit := do
  modify fun w => { w with clock := max w.clock time }
  let w ← get
  let tasks ← w.tasks.mapM goOn
  modify fun w => { w with tasks }
  runJobs

/- A bound of the arrivals that are still to come. -/
def arrivals (w : World) : Nat :=
  Task.stepsOf w.tasks

/- Time passes to each arrival up to an end. -/
def passFor
    (finish : Nat) : Nat → Effect Unit
  | 0 => return ()
  | fuel + 1 => do
      match (← get).nextDue? with
      | some time =>
          if time ≤ finish then
            arrive time
            passFor finish fuel
      | none => return ()

/- Some milliseconds pass. -/
def pass (millis : Nat) : Effect Unit := do
  let w ← get
  let finish := w.clock + millis
  passFor finish (w.arrivals + 1)
  modify fun w => { w with clock := finish }

/- Time passes until a task has ended. -/
def passUntilEnd
    (id : Nat) : Nat → Effect Unit
  | 0 => return ()
  | fuel + 1 => do
      let w ← get
      match w.task? id with
      | none => return ()
      | some t =>
          if t.isWaiting then
            match w.nextDue? with
            | some time =>
                arrive time
                passUntilEnd id fuel
            | none => return ()

/- The end of a task, which is forgotten. -/
def await (id : Nat) : Effect Task.State := do
  passUntilEnd id ((← get).arrivals + 1)
  let t := (← get).task? id
  removeTask id
  return (t.map (·.state)).getD .died

end World

end Failover
