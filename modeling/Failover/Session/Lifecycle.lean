import Failover.Session.Basic

/-
  What a session does between its operations: commands are
  bound, transactions begin and end, and the session itself
  is given up.

  Key definitions include:
    * `Session.setCommand`, `Session.takeCommand`
    * `Session.connect`
    * `Session.begin`, `Session.commit`, `Session.rollback`
    * `Session.dispose`
    * `Session.drop`, `Session.dropAbroad`
-/

namespace Failover

namespace Session

------------------------------------------------------------
-- Commands
------------------------------------------------------------

/- A command replaces the one before, even if it fails. -/
def setCommand (c : Command) : Try Unit := do
  ensureUsable
  if (← get).link = .busy then
    refuse "cannot rebind while an operation is running"
  modify fun s => { s with command := none, bound := none }
  match ← World.bindCommand (← get).repository c with
  | .ok b =>
      modify fun s =>
        { s with command := some c, bound := some b }
  | .error f =>
      recordFailure f
      report f "Failed to bind command"
      throw f

/- The command, which the session gives away. -/
def takeCommand : Act (Option Command) :=
  modifyGet fun s =>
    (s.command, { s with command := none, bound := none })

/- The connection is opened now and not on first use. -/
def connect : Try Unit := do
  ensureUsable
  discard ensureOpen

------------------------------------------------------------
-- Transactions
------------------------------------------------------------

/- How a transaction ends. -/
inductive Ending where
  | commit
  | rollback
deriving DecidableEq, Repr

def Ending.call : Ending → Call
  | .commit => .commit
  | .rollback => .rollback

def Ending.complaint : Ending → String
  | .commit => "Failed to commit transaction"
  | .rollback => "Failed to roll back transaction"

/- After the call the transaction is over either way. -/
def afterEnding
    (e : Ending)
    (result : Except Failure Unit) : Try Unit := do
  modify fun s => { s with inTransaction := false }
  match result with
  | .ok () => return ()
  | .error f =>
      report f e.complaint
      throw f

def endTransaction (e : Ending) : Try Unit := do
  let s ← get
  if s.inTransaction then
    match s.link with
    | .opened c => afterEnding e (← World.callOn c e.call)
    | .busy => refuse "an operation is still running"
    | .closed => afterEnding e (.ok ())

def commit : Try Unit :=
  endTransaction .commit

def rollback : Try Unit :=
  endTransaction .rollback

def afterBegin (result : Except Failure Unit) : Try Unit := do
  match result with
  | .ok () => modify fun s => { s with inTransaction := true }
  | .error f =>
      report f "Failed to begin transaction"
      throw f

/- A transaction begins where none is active. -/
def beginFresh : Try Unit := do
  discard ensureOpen
  let s ← get
  match s.link with
  | .opened c => afterBegin (← World.callOn c .begin)
  | _ => afterBegin (.error (s.invalid "connection is busy"))

/- A transaction that is active is committed first. -/
def begin : Try Unit := do
  ensureUsable
  if (← get).inTransaction then commit
  beginFresh

------------------------------------------------------------
-- The end of a session
------------------------------------------------------------

/- The first failure of two things that were both done. -/
def firstFailure
    (a b : Except Failure Unit) : Except Failure Unit :=
  match a with
  | .error f => .error f
  | .ok () => b

/-
  A transaction is committed and the connection goes back.
  After a failed commit it is discarded, as nothing is known
  of the transaction.
-/
def release : Act (Except Failure Unit) := do
  match ← commit.run with
  | .error f =>
      discardLink
      return .error f
  | .ok () => closeLink

/- A session is given up; once more does nothing. -/
def dispose : Try Unit := do
  let s ← get
  if !s.disposed then
    if s.link = .busy then
      refuse "cannot dispose while an operation is running"
    modify fun s => { s with disposed := true }
    let result ← ExceptT.lift release
    modify fun s => { s with command := none, bound := none }
    liftExcept result

/-
  A session that nobody holds any more.  A transaction is
  committed in the background; a connection at work is left
  to its operation.
-/
def drop (s : Session) : Effect Unit := do
  match s.link with
  | .opened c =>
      if s.inTransaction then World.addJob (.commit c)
      else
        discard (World.callOn c .close)
        discard World.countClosed
  | _ => return ()

/- A session is dropped where nothing runs in the background. -/
def dropAbroad (s : Session) : Effect Unit := do
  match s.link with
  | .opened c =>
      if s.inTransaction then World.note (.discarded c)
      else discard (World.callOn c .close)
      discard World.countClosed
  | _ => return ()

end Session

end Failover
