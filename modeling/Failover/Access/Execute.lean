import Failover.Access.Build
import Failover.Reader.Basic

/-
  Commands on clusters.  Each attempt is made in a session of
  its own with a copy of the command; only the output values
  of an attempt that succeeded come back.

  Key definitions include:
    * `DataAccess.openSession`
    * `DataAccess.routed`
    * `DataAccess.executeScalar`
    * `DataAccess.executeNonQuery`
    * `DataAccess.executeReader`
-/

namespace Failover

namespace DataAccess

------------------------------------------------------------
-- Sessions
------------------------------------------------------------

/- A closed session on a repository. -/
def sessionOn
    (d : DataAccess)
    (r : Repository) : Effect Session :=
  Session.make r d.defaultTimeout

/- A session on the member that a cluster tries first. -/
def openSession
    (d : DataAccess)
    (cluster : String) : Effect (Except Failure Session) := do
  match d.cluster cluster with
  | .error f => return .error f
  | .ok k =>
      match ← World.rank k with
      | .error f => return .error f
      | .ok [] =>
          return .error
            (.clusterUnavailable cluster "no enabled members")
      | .ok (r :: _) => return .ok (← d.sessionOn r)

/- A session on the repository of a name. -/
def openRepositorySession
    (d : DataAccess)
    (name : String) : Effect (Except Failure Session) := do
  match d.repository name with
  | .error f => return .error f
  | .ok r => return .ok (← d.sessionOn r)

------------------------------------------------------------
-- Attempts
------------------------------------------------------------

/-
  The end of an attempt, which gives the command back with
  its result.  A failure to give up the session does not undo
  what the command has done, so it is only reported.
-/
def closeAttempt
    {α : Type}
    (result : Except Failure α) :
    Session.Act (Except Failure (α × Option Command)) := do
  let executed ← Session.takeCommand
  let disposed ← Session.dispose.run
  match result with
  | .error f => return .error f
  | .ok a =>
      match disposed with
      | .ok () => pure ()
      | .error f =>
          Session.report f
            "Failed to dispose session after the command completed"
      return .ok (a, executed)

/- A command is bound and run, and the session given up. -/
def attempt
    {α : Type}
    (c : Command)
    (run : Session.Try α) :
    Session.Act (Except Failure (α × Option Command)) := do
  match ← (Session.setCommand c).run with
  | .error f => return .error f
  | .ok () => closeAttempt (← run.run)

/- An attempt in a session of its own on a repository. -/
def attemptOn
    {α : Type}
    (d : DataAccess)
    (c : Command)
    (run : Session.Try α)
    (r : Repository) :
    Effect (Except Failure (α × Option Command)) := do
  let s ← d.sessionOn r
  let (result, s) ← (attempt c run).run s
  s.drop
  return result

/- A command starts, and its reader holds the session. -/
def startReader (c : Command) : Session.Try Operation := do
  Session.setCommand c
  Session.start .reader

/- An attempt whose session goes on in a reader. -/
def attemptReaderOn
    (d : DataAccess)
    (c : Command)
    (r : Repository) : Effect (Except Failure Reader) := do
  let s ← d.sessionOn r
  match ← ((startReader c).run).run s with
  | (.error f, s) =>
      s.drop
      return .error f
  | (.ok o, s) =>
      match ← s.openReader o with
      | (.ok reader, _) => return .ok reader
      | (.error f, s) =>
          s.drop
          return .error f

------------------------------------------------------------
-- Routing
------------------------------------------------------------

/- A policy that listens takes note of an attempt. -/
def reportTo
    (p : Policy)
    (r : Repository)
    (ok : Bool) : Effect Unit := do
  if p.listens then World.note (.attempted p.name r.name ok)

/- Attempts on the members of the cluster of a name. -/
def routed
    {m : Type → Type}
    [Monad m]
    [MonadLiftT Effect m]
    {α : Type}
    (d : DataAccess)
    (cluster : String)
    (c : Command)
    (attempt : Repository → m (Except Failure α)) :
    m (Except Failure α) := do
  match d.cluster cluster with
  | .error f => return .error f
  | .ok k =>
      match ← liftM (World.rank k) with
      | .error f => return .error f
      | .ok ranked =>
          k.execute c ranked attempt fun r ok =>
            liftM (reportTo k.policy r ok)

/- The outputs of the command that was run come back. -/
def withOutputs
    (c : Command) : Option Command → Command
  | some executed => c.copyOutputs executed
  | none => c

/- An operation on a cluster, with the command afterwards. -/
def execute
    {α : Type}
    (d : DataAccess)
    (cluster : String)
    (c : Command)
    (run : Session.Try α) :
    Effect (Except Failure α × Command) := do
  match ← d.routed cluster c (d.attemptOn c run) with
  | .error f => return (.error f, c)
  | .ok (a, executed) => return (.ok a, withOutputs c executed)

def executeScalar
    (d : DataAccess)
    (cluster : String)
    (c : Command)
    (t : Target) :
    Effect (Except Failure t.Carrier × Command) :=
  d.execute cluster c (Session.executeScalar t)

def executeNonQuery
    (d : DataAccess)
    (cluster : String)
    (c : Command) :
    Effect (Except Failure UInt64 × Command) :=
  d.execute cluster c Session.executeNonQuery

/- The reader holds the session until it is dropped. -/
def executeReader
    (d : DataAccess)
    (cluster : String)
    (c : Command) :
    Effect (Except Failure Reader × Command) := do
  match ← d.routed cluster c (d.attemptReaderOn c) with
  | .error f => return (.error f, c)
  | .ok r => return (.ok r, withOutputs c r.session.command)

/- The engines of all repositories shut down. -/
def shutDown (d : DataAccess) : Effect Unit :=
  d.sortedRepositories.forM fun r =>
    World.note (.shutDown r.name)

end DataAccess

end Failover
