import Failover.Number.Decimal

/-
  Failures.  One that arises at a repository carries the name
  of the repository; one of a cluster carries the name of the
  cluster.

  Key definitions include:
    * `Attempt`
    * `Failure`, `Failure.kind`
    * `Failure.message`, `Failure.suggestion?`
    * `Failure.isRetryable`, `Failure.isPreExecution`
    * `Failure.timeout`, `Failure.exhausted`
    * `DriverError`, `Failure.ofDriver`
-/

namespace Failover

------------------------------------------------------------
-- Failures
------------------------------------------------------------

/- What is kept of one failed attempt. -/
structure Attempt where
  repository : String
  message : String
deriving DecidableEq, Repr

inductive Failure where
  | connectionOpen (repository message suggestion : String)
  | connectionClose (repository message : String)
  | commandBinding (repository message : String)
  | execution
      (repository message : String)
      (sqlState : Option String)
      (timedOut : Bool)
  | resultConversion (repository message : String)
  | clusterExhausted
      (cluster : String)
      (attempts : Nat)
      (last : Failure)
      (history : List Attempt)
  | clusterNotFound (cluster : String)
  | clusterUnavailable (cluster reason : String)
  | repositoryNotFound (repository : String)
  | unsupportedEngine (engine : String)
  | invalidConfig (message : String)
  | invalidState (repository message : String)
deriving DecidableEq, Repr, Inhabited

namespace Failure

/- The name of a failure's kind. -/
def kind : Failure → String
  | .connectionOpen _ _ _ => "ConnectionOpen"
  | .connectionClose _ _ => "ConnectionClose"
  | .commandBinding _ _ => "CommandBinding"
  | .execution _ _ _ _ => "Execution"
  | .resultConversion _ _ => "ResultConversion"
  | .clusterExhausted _ _ _ _ => "ClusterExhausted"
  | .clusterNotFound _ => "ClusterNotFound"
  | .clusterUnavailable _ _ => "ClusterUnavailable"
  | .repositoryNotFound _ => "RepositoryNotFound"
  | .unsupportedEngine _ => "UnsupportedEngine"
  | .invalidConfig _ => "InvalidConfig"
  | .invalidState _ _ => "InvalidState"

/- A command that ran longer than it may. -/
def timeout
    (repository operation : String)
    (seconds : Nat) : Failure :=
  .execution repository
    (operation ++ " exceeded " ++ Decimal.render seconds ++
      "s")
    none true

/- All members of a cluster failed, and at least one. -/
def exhausted
    (cluster : String)
    (last : Failure)
    (history : List Attempt) : Failure :=
  .clusterExhausted cluster (max history.length 1) last
    history

/- The text of a failure. -/
def message : Failure → String
  | .connectionOpen r m _ =>
      "Failed to open connection to '" ++ r ++ "': " ++ m
  | .connectionClose r m =>
      "Failed to close connection to '" ++ r ++ "': " ++ m
  | .commandBinding r m =>
      "Cannot bind command for '" ++ r ++ "': " ++ m
  | .execution r m _ _ =>
      "Execution failed on '" ++ r ++ "': " ++ m
  | .resultConversion r m =>
      "Cannot convert result from '" ++ r ++ "': " ++ m
  | .clusterExhausted c n last _ =>
      "All " ++ Decimal.render n ++
        " member(s) of cluster '" ++ c ++
        "' failed; last error: " ++ last.message
  | .clusterNotFound c => "Cluster not found: " ++ c
  | .clusterUnavailable c reason =>
      "Cluster '" ++ c ++ "' is unavailable: " ++ reason
  | .repositoryNotFound r => "Repository not found: " ++ r
  | .unsupportedEngine e =>
      "No connection provider registered for engine '" ++ e ++
        "'"
  | .invalidConfig m => "Invalid configuration: " ++ m
  | .invalidState r m =>
      "Invalid session state on '" ++ r ++ "': " ++ m

/- What may help, if anything is known to. -/
def suggestion? : Failure → Option String
  | .connectionOpen _ _ s => some s
  | .execution _ _ _ true =>
      some ("Consider increasing the command timeout " ++
        "or optimizing the query")
  | .clusterExhausted _ _ last _ => last.suggestion?
  | _ => none

/- The repository at which the failure arose. -/
def repository? : Failure → Option String
  | .connectionOpen r _ _ => some r
  | .connectionClose r _ => some r
  | .commandBinding r _ => some r
  | .execution r _ _ _ => some r
  | .resultConversion r _ => some r
  | .repositoryNotFound r => some r
  | .invalidState r _ => some r
  | _ => none

/- The command exceeded its time. -/
def isTimeout : Failure → Bool
  | .execution _ _ _ timedOut => timedOut
  | _ => false

/-
  A failure after which the same command may succeed at
  another time.
-/
def isRetryable : Failure → Bool
  | .connectionOpen _ _ _ => true
  | f => f.isTimeout

/-
  The command did not reach the engine, so running it again
  elsewhere cannot repeat its effects.
-/
def isPreExecution : Failure → Bool
  | .connectionOpen _ _ _ => true
  | .commandBinding _ _ => true
  | _ => false

end Failure

------------------------------------------------------------
-- Errors of drivers
------------------------------------------------------------

/- When a driver's error came up. -/
inductive Phase where
  | opening
  | executing
deriving DecidableEq, Repr

/- The errors that an engine's driver reports. -/
inductive DriverError where
  | configuration (message : String)
  | database (message : String) (code : Option String)
  | poolTimedOut
  | poolClosed
  | io (message : String)
  | tls (message : String)
  | protocol (message : String)
  | columnDecode (column message : String)
  | decode (message : String)
  | rowNotFound
  | typeNotFound (name : String)
  | columnNotFound (name : String)
  | encode (message : String)
  | workerCrashed
deriving DecidableEq, Repr

/- The text of an error that has no rule of its own. -/
def DriverError.plainText : DriverError → String
  | .rowNotFound =>
      "no rows returned by a query that expected to return " ++
        "at least one row"
  | .typeNotFound name =>
      "type named " ++ name ++ " not found"
  | .columnNotFound name =>
      "no column found for name: " ++ name
  | .encode m =>
      "error occurred while encoding a value: " ++ m
  | .workerCrashed =>
      "attempted to communicate with a crashed background " ++
        "worker"
  | _ => ""

namespace Failure

/- An error before or after the connection is there. -/
def inPhase
    (repository : String)
    (phase : Phase)
    (message suggestion : String)
    (code : Option String) : Failure :=
  match phase with
  | .opening => .connectionOpen repository message suggestion
  | .executing => .execution repository message code false

/- The failure that a driver's error at a repository is. -/
def ofDriver
    (repository : String)
    (phase : Phase) : DriverError → Failure
  | .configuration m =>
      .connectionOpen repository m
        "Check the connection string format and credentials"
  | .database m code =>
      inPhase repository phase m
        ("Check that the database exists and the " ++
          "credentials are valid") code
  | .poolTimedOut =>
      .connectionOpen repository
        "Timed out acquiring a connection from the pool"
        "Increase max_connections or acquire_timeout"
  | .poolClosed =>
      .connectionOpen repository "Connection pool is closed"
        "Recreate the data access layer"
  | .io m =>
      inPhase repository phase ("I/O error: " ++ m)
        ("Check network connectivity and database server " ++
          "status") none
  | .tls m =>
      .connectionOpen repository ("TLS error: " ++ m)
        "Verify TLS configuration and certificates"
  | .protocol m =>
      .execution repository ("Protocol error: " ++ m) none
        false
  | .columnDecode column m =>
      .resultConversion repository
        ("Failed to decode column " ++ column ++ ": " ++ m)
  | .decode m =>
      .resultConversion repository ("Decode error: " ++ m)
  | e =>
      inPhase repository phase e.plainText
        "Check database driver configuration" none

end Failure

end Failover
