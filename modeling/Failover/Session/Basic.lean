import Failover.World.Time

/-
  Sessions: one connection, at most one transaction and at
  most one bound command.

  Key definitions include:
    * `Session`, `Session.State`
    * `Session.Act`, `Session.Try`
    * `Session.make`
    * `Session.ensureOpen`
    * `Session.closeLink`, `Session.discardLink`
    * `Session.connectionLost`
-/

namespace Failover

/- A connection is at work inside a running operation. -/
inductive Link where
  | closed
  | opened (connection : Connection)
  | busy
deriving DecidableEq, Repr, Inhabited

/- The default timeout is in seconds. -/
structure Session where
  id : Nat
  repository : Repository
  defaultTimeout : Nat
  command : Option Command
  bound : Option BoundCommand
  link : Link
  inTransaction : Bool
  disposed : Bool

namespace Session

/- What a session does, with the world around it. -/
abbrev Act := StateT Session Effect

/- What a session does and may fail to do. -/
abbrev Try := ExceptT Failure Act

/- A closed session.  Nothing is opened until needed. -/
def make
    (r : Repository)
    (defaultTimeout : Nat) : Effect Session := do
  let w ← get
  set { w with sessions := w.sessions + 1 }
  return {
    id := w.sessions
    repository := r
    defaultTimeout
    command := none
    bound := none
    link := .closed
    inTransaction := false
    disposed := false }

------------------------------------------------------------
-- State
------------------------------------------------------------

inductive State where
  | closed
  | opened
  | inTransaction
deriving DecidableEq, Repr

def State.name : State → String
  | .closed => "Closed"
  | .opened => "Open"
  | .inTransaction => "InTransaction"

def state (s : Session) : State :=
  match s.link with
  | .closed => .closed
  | _ => if s.inTransaction then .inTransaction else .opened

def isOpen (s : Session) : Bool :=
  s.link != .closed

/- The failure of a session that cannot do what it should. -/
def invalid
    (s : Session)
    (message : String) : Failure :=
  .invalidState s.repository.name message

def refuse
    {α : Type}
    (message : String) : Try α := do
  throw ((← get).invalid message)

def ensureUsable : Try Unit := do
  if (← get).disposed then refuse "session is disposed"

------------------------------------------------------------
-- Reports
------------------------------------------------------------

/- A failure is told to whoever reads the reports. -/
def report
    (f : Failure)
    (message : String) : Act Unit := do
  World.note (.reported (← get).repository.name message f)

def recordFailure (f : Failure) : Act Unit := do
  World.recordFailure (← get).repository.name f

/- The session's connection with a count of active ones. -/
def info (active : Nat) : Act ConnectionInfo := do
  return World.connectionInfo (← get).repository active

/- One connection less is active, as is told. -/
def linkReleased : Act Unit := do
  let active ← World.countClosed
  World.note (.connectionClosed (← info active))

------------------------------------------------------------
-- Connections
------------------------------------------------------------

/- A connection is opened if there is none. -/
def openLink : Try Unit := do
  let name := (← get).repository.name
  match ← World.openConnection name with
  | .ok c =>
      modify fun s => { s with link := .opened c }
      let active ← World.countOpened
      World.note (.connectionOpened (← info active))
  | .error f =>
      recordFailure f
      let active := (← getThe World).active
      World.note (.connectionFailed (← info active))
      report f "Failed to open connection"
      throw f

/- Whether the connection had to be opened. -/
def ensureOpen : Try Bool := do
  match (← get).link with
  | .opened _ => return false
  | .busy => refuse "an operation is already running"
  | .closed =>
      openLink
      return true

/- The connection goes, and does not come back. -/
def discardLink : Act Unit := do
  match (← get).link with
  | .opened c =>
      modify fun s =>
        { s with link := .closed, inTransaction := false }
      World.note (.discarded c)
      linkReleased
  | _ => return ()

/-
  The connection goes back to where it came from.  One that
  is inside a transaction is discarded.
-/
def closeLink : Act (Except Failure Unit) := do
  let s ← get
  if s.inTransaction then
    discardLink
    return .ok ()
  else
    match s.link with
    | .opened c =>
        set { s with link := .closed }
        let result ← World.callOn c .close
        linkReleased
        return result
    | _ => return .ok ()

/- A running operation does not give its connection back. -/
def connectionLost : Act Unit := do
  modify fun s =>
    { s with link := .closed, inTransaction := false }
  linkReleased

end Session

end Failover
