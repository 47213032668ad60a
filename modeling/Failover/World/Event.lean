import Failover.World.Backend
import Failover.Provider.Basic

/-
  What happens, in order: calls of engines, changes of the
  number of connections, outcomes of commands, failures that
  are reported, and lines of the trace.

  Key definitions include:
    * `Connection`
    * `ConnectionInfo`
    * `Event`
-/

namespace Failover

/- A physical connection by its number. -/
structure Connection where
  id : Nat
  repository : String
deriving DecidableEq, Repr, Inhabited

/- What is told of a connection; the password is masked. -/
structure ConnectionInfo where
  serverType : String
  repository : String
  url : String
  active : Nat
deriving DecidableEq, Repr

/-
  A call to open holds the connection that came of it.  A
  record of an operation on a repository holds its failure.
-/
inductive Event where
  | created (engine : String) (settings : Provider.Settings)
  | asked (repository : String) (command : Command)
  | opened (repository : String) (connection : Option Connection)
  | called (call : Call) (connection : Connection) (ok : Bool)
  | fetched (connection : Connection) (statement : Statement)
  | discarded (connection : Connection)
  | shutDown (repository : String)
  | connectionOpened (info : ConnectionInfo)
  | connectionClosed (info : ConnectionInfo)
  | connectionFailed (info : ConnectionInfo)
  | commandEnded (repository text : String) (ok : Bool)
  | recorded (repository : String) (cause : Option Failure)
  | reported (repository message : String) (cause : Failure)
  | traced (line : String)
  | attempted (policy repository : String) (ok : Bool)

end Failover
