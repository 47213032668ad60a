import Failover.Session.Lifecycle

/-
  Operations of a session: the bound command is started, goes
  on by itself, and is completed.

  Key definitions include:
    * `Operation`, `Operation.Context`
    * `Session.start`, `Session.finish`
    * `Session.settle`
    * `Session.completeNonQuery`, `Session.completeScalar`
    * `Session.completeRows`
    * `Operation.drop`, `Operation.dropAbroad`
-/

namespace Failover

namespace Operation

/- What an operation gives in the end. -/
inductive Kind where
  | reader
  | nonQuery
  | scalar
deriving DecidableEq, Repr

def Kind.name : Kind → String
  | .reader => "reader"
  | .nonQuery => "nonQuery"
  | .scalar => "scalar"

/-
  Whether the connection was opened for the operation, the
  transaction it started in, and when it started.
-/
structure Context where
  openedHere : Bool
  inTransaction : Bool
  started : Nat
  text : String
deriving DecidableEq, Repr, Inhabited

end Operation

/- An operation that was started and not completed. -/
structure Operation where
  session : Nat
  kind : Operation.Kind
  task : Nat
  context : Operation.Context
deriving DecidableEq, Repr

namespace Operation

/-
  An operation that nobody completes: its connection goes
  back when its work has ended.
-/
def drop (o : Operation) : Effect Unit :=
  World.addJob (.afterTask o.task o.context.inTransaction)

/-
  An operation is dropped where nothing runs in the
  background: its work is stopped.
-/
def dropAbroad (o : Operation) : Effect Unit := do
  World.removeTask o.task
  discard World.countClosed

end Operation

namespace Session

/- The line of a command that is about to run. -/
def traceLine
    (s : Session)
    (c : Command) : String :=
  s.repository.name ++ " " ++ c.kind.name ++ ": " ++ c.text

/- The bound command, with the command that it is for. -/
def boundCommand : Try (Command × BoundCommand) := do
  let s ← get
  match s.command, s.bound with
  | some c, some b => return (c, b)
  | _, _ =>
      throw (.commandBinding s.repository.name
        "no command is bound to the session")

/- The bound command begins to run. -/
def start (kind : Operation.Kind) : Try Operation := do
  ensureUsable
  if (← get).link = .busy then
    refuse "an operation is already running"
  let (c, b) ← boundCommand
  let s ← get
  World.note (.traced (s.traceLine c))
  let openedHere ← ensureOpen
  let s ← get
  match s.link with
  | .opened connection =>
      let started := (← getThe World).now
      set { s with link := .busy }
      let task ← liftM (World.spawn connection
        (c.timeout.getD s.defaultTimeout) b)
      return ⟨s.id, kind, task,
        ⟨openedHere, s.inTransaction, started, c.text⟩⟩
  | _ => refuse "connection is not open"

/-
  The end of an operation's work, with the connection if it
  is given back.  An operation of another session is dropped.
-/
def finish (o : Operation) : Try Reply := do
  let s ← get
  if o.session ≠ s.id then
    liftM o.drop
    refuse "the operation was started by another session"
  match ← liftM (World.await o.task) with
  | .finished c result =>
      modify fun s => { s with link := .opened c }
      return result
  | .stopped f =>
      connectionLost
      return .error f
  | _ =>
      connectionLost
      return .error (.execution s.repository.name
        "Execution task failed" none false)

------------------------------------------------------------
-- Settling
------------------------------------------------------------

/- The outcome of an operation counts for its repository. -/
def recordOutcome
    (context : Operation.Context)
    (cause : Option Failure)
    (reported : Bool) : Act Unit := do
  let name := (← get).repository.name
  match cause with
  | none =>
      World.recordSuccess name context.started
      World.note (.commandEnded name context.text true)
  | some f =>
      recordFailure f
      World.note (.commandEnded name context.text false)
      if !reported then report f "Command execution failed"

/- A connection that was opened for an operation goes back. -/
def closeOpenedHere
    (context : Operation.Context) : Act Unit := do
  if context.openedHere && !(← get).inTransaction then
    match ← closeLink with
    | .ok () => return ()
    | .error f => report f "Failed to close connection"

/- An operation is over. -/
def settle
    (context : Operation.Context)
    (cause : Option Failure)
    (reported : Bool) : Act Unit := do
  recordOutcome context cause reported
  closeOpenedHere context

/- The result of an operation that is over. -/
def settled
    {α : Type}
    (context : Operation.Context)
    (result : Except Failure α) : Try α := do
  match result with
  | .ok a =>
      settle context none false
      return a
  | .error f =>
      settle context (some f) false
      throw f

------------------------------------------------------------
-- Results
------------------------------------------------------------

/- The command takes the output values that came back. -/
def applyOutputs (o : OutputValues) : Act Unit :=
  modify fun s =>
    { s with command := s.command.map (·.storeOutputs o) }

/- An outcome without any failure, with its outputs taken. -/
def takeWhole (reply : Reply) : Act Reply := do
  match Progress.whole reply with
  | .error f => return .error f
  | .ok o =>
      applyOutputs o.outputs
      return .ok o

/- The number of affected rows. -/
def completeNonQuery (o : Operation) : Try UInt64 := do
  let reply ← finish o
  let whole ← ExceptT.lift (takeWhole reply)
  settled o.context (whole.map (·.rowsAffected))

/- The first value of an outcome, converted. -/
def scalarOf
    (repository : String)
    (t : Target)
    (o : Outcome) : Except Failure t.Carrier :=
  (t.convert (o.first?.getD .null)).mapError fun e =>
    .resultConversion repository e.message

def completeScalar
    (o : Operation)
    (t : Target) : Try t.Carrier := do
  let reply ← finish o
  let name := (← get).repository.name
  let whole ← ExceptT.lift (takeWhole reply)
  settled o.context (whole.bind (scalarOf name t))

/-
  The outcome whose rows are still to be read.  The operation
  is not over unless it failed.
-/
def completeRows (o : Operation) : Try Outcome := do
  match ← finish o with
  | .error f => settled o.context (.error f)
  | .ok outcome =>
      applyOutputs outcome.outputs
      return outcome

def executeNonQuery : Try UInt64 := do
  completeNonQuery (← start .nonQuery)

def executeScalar (t : Target) : Try t.Carrier := do
  completeScalar (← start .scalar) t

end Session

end Failover
