import Failover.Workspace.Basic

/-
  Requests to a workspace, and the answers to them.  Work in
  the background that a request leaves is done before the
  next one, as far as no waiting is needed for it.

  Key definitions include:
    * `Workspace.Request`, `Workspace.Answer`
    * `Workspace.answer`
    * `Workspace.perform`
    * `Workspace.run`
-/

namespace Failover

namespace Workspace

------------------------------------------------------------
-- Requests
------------------------------------------------------------

/-
  What can be asked for.  A row is pulled with a test of
  whether it can be mapped.
-/
inductive Request where
  | openSession (cluster name : String)
  | openRepositorySession (repository name : String)
  | bindSession
      (repository name : String)
      (command : Option Command)
  | setCommand (session : String) (command : Command)
  | takeCommand (session : String)
  | connect (session : String)
  | begin (session : String)
  | commit (session : String)
  | rollback (session : String)
  | dispose (session : String)
  | dropSession (session : String)
  | execute
      (session : String)
      (kind : Operation.Kind)
      (target : Target)
  | start
      (session : String)
      (kind : Operation.Kind)
      (operation : String)
  | complete (session operation : String) (target : Target)
  | completeOwned (session operation reader : String)
  | dropOperation (operation : String)
  | scalar (cluster : String) (command : Command) (target : Target)
  | nonQuery (cluster : String) (command : Command)
  | reader (cluster : String) (command : Command) (name : String)
  | read (reader : Holder)
  | nextResult (reader : Holder)
  | release (reader : Holder)
  | pull
      (reader : Holder)
      (test : Reader → Except Failure Unit)
  | dropReader (reader : Holder)
  | renameReader (reader : Holder) (name : String)
  | wait (millis : Nat)
  | shutDown

/- What is given for a request that succeeds. -/
inductive Result where
  | nothing
  | count (n : UInt64)
  | value (target : Target) (content : target.Carrier)
  | repository (name : String)
  | command (command : Option Command)
  | moved (hasMore : Bool)

/-
  A name that is not in use is absent.  After a command on a
  cluster the command comes back, whatever came of it.
-/
inductive Answer where
  | absent
  | gave (result : Except Failure Result)
  | ran (result : Except Failure Result) (command : Command)

------------------------------------------------------------
-- Answers
------------------------------------------------------------

/- What a session does under its name. -/
def onSession
    (name : String)
    (act : Session.Try Result) : Act Answer := do
  match (← get).session? name with
  | none => return .absent
  | some s =>
      let (result, s) ← liftM (act.run.run s)
      setSession name s
      return .gave result

/-
  An act of a session of which nothing but a failure is
  answered.
-/
def quietly (act : Session.Try Unit) : Session.Try Result := do
  act
  return .nothing

/- What a reader does under its name. -/
def onReader
    (h : Holder)
    (act : Reader.Act Result) : Act Answer := do
  match (← get).reader? h with
  | none => return .absent
  | some r =>
      let (result, r) ← liftM (act.run r)
      setReader h r
      return .gave (.ok result)

/- A session that was made is kept. -/
def keepMade
    (name : String) :
    Except Failure Session → Act Answer
  | .error f => return .gave (.error f)
  | .ok s => do
      keepSession name s
      return .gave (.ok (.repository s.repository.name))

/- A session with a command that is bound at once. -/
def makeBound
    (d : DataAccess)
    (repository : String)
    (command : Option Command) :
    Effect (Except Failure Session) := do
  match d.repository repository with
  | .error f => return .error f
  | .ok r =>
      let s ← Session.make r 30
      match command with
      | none => return .ok s
      | some c =>
          let (result, s) ← (Session.setCommand c).run.run s
          return result.map fun _ => s

/- An operation is started and kept under a name. -/
def startAs
    (session : String)
    (kind : Operation.Kind)
    (operation : String) : Act Answer := do
  match (← get).session? session with
  | none => return .absent
  | some s =>
      let (result, s) ← liftM ((Session.start kind).run.run s)
      setSession session s
      match result with
      | .error f => return .gave (.error f)
      | .ok o =>
          keepOperation operation o
          return .gave (.ok .nothing)

/- The reader of an operation, or the session alone. -/
def openReader
    (s : Session)
    (o : Operation)
    (h : Holder)
    (giveBack : Session → Act Unit) : Act Answer := do
  match ← liftM (s.openReader o) with
  | (.ok r, _) =>
      keepReader h r
      return .gave (.ok .nothing)
  | (.error f, s) =>
      giveBack s
      return .gave (.error f)

/-
  An operation is completed as what it was started for.  A
  reader has the session on loan.
-/
def complete
    (session operation : String)
    (t : Target) : Act Answer := do
  let w ← get
  match w.session? session, w.operation? operation with
  | some s, some o =>
      removeOperation operation
      match o.kind with
      | .nonQuery =>
          onSession session do
            return .count (← Session.completeNonQuery o)
      | .scalar =>
          onSession session do
            return .value t (← Session.completeScalar o t)
      | .reader =>
          removeSession session
          openReader s o (.lender session) (setSession session)
  | _, _ => return .absent

/- A reader takes the session over. -/
def completeOwned
    (session operation reader : String) : Act Answer := do
  let w ← get
  match w.session? session, w.operation? operation with
  | some s, some o =>
      if o.kind = .reader then
        removeOperation operation
        removeSession session
        openReader s o (.named reader) fun s => s.drop
      else return .absent
  | _, _ => return .absent

/-
  The bound command of a session from its start to its end.
  A reader has the session on loan.
-/
def execute
    (session : String)
    (kind : Operation.Kind)
    (t : Target) : Act Answer := do
  match kind with
  | .nonQuery =>
      onSession session do
        return .count (← Session.executeNonQuery)
  | .scalar =>
      onSession session do
        return .value t (← Session.executeScalar t)
  | .reader =>
      match (← get).session? session with
      | none => return .absent
      | some s =>
          removeSession session
          match ← liftM ((Session.start .reader).run.run s) with
          | (.error f, s) =>
              setSession session s
              return .gave (.error f)
          | (.ok o, s) =>
              openReader s o (.lender session)
                (setSession session)

/- A command on a cluster whose reader is kept. -/
def runReader
    (cluster : String)
    (c : Command)
    (name : String) : Act Answer := do
  match ← liftM ((← get).access.executeReader cluster c) with
  | (.error f, c) => return .ran (.error f) c
  | (.ok r, c) =>
      keepReader (.named name) r
      return .ran (.ok .nothing) c

/- Something is done with what is under a name, if anything. -/
def ifThere
    (isThere : Bool)
    (act : Act Unit) : Act Answer := do
  if isThere then
    act
    return .gave (.ok .nothing)
  else return .absent

def answer (q : Request) : Act Answer := do
  let w ← get
  match q with
  | .openSession cluster name =>
      keepMade name (← w.access.openSession cluster)
  | .openRepositorySession repository name =>
      keepMade name (← w.access.openRepositorySession repository)
  | .bindSession repository name command =>
      keepMade name (← makeBound w.access repository command)
  | .setCommand s c =>
      onSession s (quietly (Session.setCommand c))
  | .takeCommand s =>
      onSession s do
        return .command (← ExceptT.lift Session.takeCommand)
  | .connect s => onSession s (quietly Session.connect)
  | .begin s => onSession s (quietly Session.begin)
  | .commit s => onSession s (quietly Session.commit)
  | .rollback s => onSession s (quietly Session.rollback)
  | .dispose s => onSession s (quietly Session.dispose)
  | .dropSession s =>
      ifThere (w.session? s).isSome (dropSession s)
  | .execute s kind t => execute s kind t
  | .start s kind o => startAs s kind o
  | .complete s o t => complete s o t
  | .completeOwned s o r => completeOwned s o r
  | .dropOperation o =>
      ifThere (w.operation? o).isSome (dropOperation o)
  | .scalar cluster c t =>
      let (result, c) ← w.access.executeScalar cluster c t
      return .ran (result.map (.value t)) c
  | .nonQuery cluster c =>
      let (result, c) ← w.access.executeNonQuery cluster c
      return .ran (result.map .count) c
  | .reader cluster c name => runReader cluster c name
  | .read h => onReader h (Result.moved <$> Reader.read)
  | .nextResult h =>
      onReader h (Result.moved <$> Reader.nextResult)
  | .release h =>
      onReader h ((fun _ => Result.nothing) <$> Reader.release)
  | .pull h test => do
      match w.reader? h with
      | none => return .absent
      | some r =>
          let (item, r) ← liftM ((Reader.pull test).run r)
          setReader h r
          match item with
          | none => return .gave (.ok (.moved false))
          | some (.ok ()) => return .gave (.ok (.moved true))
          | some (.error f) => return .gave (.error f)
  | .dropReader h =>
      ifThere (w.reader? h).isSome (dropReader h)
  | .renameReader h name =>
      ifThere (w.reader? h).isSome (renameReader h name)
  | .wait millis =>
      World.pass millis
      return .gave (.ok .nothing)
  | .shutDown =>
      w.access.shutDown
      return .gave (.ok .nothing)

/- A request, with the work in the background it leaves. -/
def perform (q : Request) : Act Answer := do
  let a ← answer q
  World.runJobs
  return a

/- Requests in turn. -/
def run (qs : List Request) : Act (List Answer) :=
  qs.mapM perform

end Workspace

end Failover
