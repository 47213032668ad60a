import Failover.Engine
import Failover.Failure
import Failover.Text.Fold

/-
  What a data access layer is configured with: repositories,
  clusters of them, and the policies that clusters follow.

  Key definitions include:
    * `Config.Pool`, `Config.Repository`
    * `Config.Cluster`, `Config.Policy`, `Config.Logging`
    * `Config`
    * `Config.Error`, `Config.Error.message`
    * `Config.Repository.engineKey`
    * `Config.Repository.isEmbedded`
    * `Config.policy?`
    * `Config.validate`
-/

namespace Failover

namespace Config

------------------------------------------------------------
-- Pools
------------------------------------------------------------

/- Options of a connection pool; times are in seconds. -/
structure Pool where
  maxConnections : Option Nat := none
  minConnections : Option Nat := none
  idleTimeout : Option Nat := none
  acquireTimeout : Option Nat := none
  testBeforeAcquire : Option Bool := none
deriving DecidableEq, Repr, Inhabited

namespace Pool

/- An embedded database takes one connection by default. -/
def greatest
    (p : Pool)
    (embedded : Bool) : Nat :=
  p.maxConnections.getD (if embedded then 1 else 10)

def least (p : Pool) : Nat :=
  p.minConnections.getD 1

def idleSeconds (p : Pool) : Nat :=
  p.idleTimeout.getD 600

def acquireSeconds (p : Pool) : Nat :=
  p.acquireTimeout.getD 30

def tests (p : Pool) : Bool :=
  p.testBeforeAcquire.getD true

/- Why the options of a pool do not go together. -/
inductive Error where
  | noGreatest
  | noLeast
  | leastAboveGreatest (least greatest : Nat)
deriving DecidableEq, Repr

def Error.message : Error → String
  | .noGreatest =>
      "max_connections must be greater than 0"
  | .noLeast => "min_connections must be greater than 0"
  | .leastAboveGreatest least greatest =>
      "min_connections (" ++ Decimal.render least ++
        ") cannot exceed max_connections (" ++
        Decimal.render greatest ++ ")"

/- The bounds that are given are positive and in order. -/
def validate (p : Pool) : Except Error Unit :=
  if p.maxConnections = some 0 then .error .noGreatest
  else
    match p.minConnections, p.maxConnections with
    | some 0, _ => .error .noLeast
    | some least, some greatest =>
        if greatest < least then
          .error (.leastAboveGreatest least greatest)
        else .ok ()
    | _, _ => .ok ()

end Pool

------------------------------------------------------------
-- Repositories, clusters and policies
------------------------------------------------------------

/-
  One database.  Without an engine the connection string
  tells it; lower sequence numbers come first in a cluster.
-/
structure Repository where
  name : String
  engine : Option String := none
  connectionString : String
  schema : Option String := none
  enabled : Bool := true
  sequence : Int := 0
  pool : Pool := {}
deriving DecidableEq, Repr, Inhabited

/- A named group of repositories. -/
structure Cluster where
  name : String
  databases : List String
  sequence : Int := 0
  enabled : Bool := true
  fallbackPolicy : String := "default"
deriving DecidableEq, Repr, Inhabited

/- How a policy orders the members of a cluster. -/
inductive PolicyKind where
  | cooldown
  | ordered
  | roundRobin
deriving DecidableEq, Repr, Inhabited

namespace PolicyKind

def all : List PolicyKind := [.cooldown, .ordered, .roundRobin]

def name : PolicyKind → String
  | .cooldown => "cooldown"
  | .ordered => "ordered"
  | .roundRobin => "round-robin"

end PolicyKind

/- A policy; the cooldown is in seconds. -/
structure Policy where
  name : String := "default"
  kind : PolicyKind := .cooldown
  failureThreshold : Nat := 1
  cooldown : Nat := 30
  maxAttempts : Option Nat := none
deriving DecidableEq, Repr, Inhabited

structure Logging where
  level : String := "info"
  json : Bool := false
deriving DecidableEq, Repr, Inhabited

end Config

/- The default timeout of commands is in seconds. -/
structure Config where
  repositories : List Config.Repository := []
  clusters : List Config.Cluster := []
  policies : List Config.Policy := []
  defaultTimeout : Nat := 30
  logging : Config.Logging := {}
deriving DecidableEq, Repr, Inhabited

namespace Config

------------------------------------------------------------
-- Causes
------------------------------------------------------------

/- Why a configuration is not valid. -/
inductive Error where
  | invalidJson
  | emptyName
  | duplicateRepository (name : String)
  | undetectedEngine (name : String)
  | pool (name : String) (cause : Pool.Error)
  | duplicatePolicy (name : String)
  | noAttempts (policy : String)
  | duplicateCluster (name : String)
  | emptyCluster (name : String)
  | unknownMember (cluster member : String)
  | unknownPolicy (cluster policy : String)
deriving DecidableEq, Repr

def Error.message : Error → String
  | .invalidJson => "Invalid JSON"
  | .emptyName => "Repository name cannot be empty"
  | .duplicateRepository n =>
      "Duplicate repository name '" ++ n ++ "'"
  | .undetectedEngine n =>
      "Cannot detect the engine of repository '" ++ n ++
        "'; set 'engine' explicitly"
  | .pool n cause =>
      "Repository '" ++ n ++ "': " ++ cause.message
  | .duplicatePolicy n =>
      "Duplicate fallback policy '" ++ n ++ "'"
  | .noAttempts n =>
      "Fallback policy '" ++ n ++
        "': maxAttempts must be greater than 0"
  | .duplicateCluster n =>
      "Duplicate cluster name '" ++ n ++ "'"
  | .emptyCluster n =>
      "Cluster '" ++ n ++ "' has no databases"
  | .unknownMember c m =>
      "Cluster '" ++ c ++
        "' references unknown repository '" ++ m ++ "'"
  | .unknownPolicy c p =>
      "Cluster '" ++ c ++
        "' references unknown fallback policy '" ++ p ++ "'"

def Error.failure (e : Error) : Failure :=
  .invalidConfig e.message

------------------------------------------------------------
-- Lookup
------------------------------------------------------------

/- The key of a repository's engine. -/
def Repository.engineKey
    (r : Repository) : Except Error String :=
  match r.engine with
  | some name => .ok (Engine.keyOf name)
  | none =>
      match Engine.ofConnectionString? r.connectionString with
      | some e => .ok e.key
      | none => .error (.undetectedEngine r.name)

/- The repository is a database inside the process. -/
def Repository.isEmbedded (r : Repository) : Bool :=
  match r.engineKey with
  | .ok key => key == Engine.sqlite.key
  | .error _ => false

/- The policy of a name; the default one always exists. -/
def policy?
    (c : Config)
    (name : String) : Option Policy :=
  match c.policies.find? fun p => Text.sameName p.name name with
  | some p => some p
  | none =>
      if Text.sameName name "default" then some {} else none

------------------------------------------------------------
-- Validation
------------------------------------------------------------

/- Names that agree in lower case count as one name. -/
def foldedNames
    {α : Type}
    (name : α → String)
    (xs : List α) : List String :=
  xs.map fun x => Text.lower (name x)

/-
  Each element is checked in turn against the lower-case
  names of those before it.
-/
def checkEach
    {α : Type}
    (name : α → String)
    (check : List String → α → Except Error Unit)
    (seen : List String) : List α → Except Error Unit
  | [] => .ok ()
  | x :: r =>
      match check seen x with
      | .error e => .error e
      | .ok () =>
          checkEach name check (Text.lower (name x) :: seen) r

/- A repository has a name of its own and an engine. -/
def checkRepository
    (seen : List String)
    (r : Repository) : Except Error Unit := do
  if (Text.trim r.name).isEmpty then throw .emptyName
  if seen.contains (Text.lower r.name) then
    throw (.duplicateRepository r.name)
  let _ ← r.engineKey
  (r.pool.validate).mapError (.pool r.name)

/- A policy has a name of its own and allows an attempt. -/
def checkPolicy
    (seen : List String)
    (p : Policy) : Except Error Unit := do
  if seen.contains (Text.lower p.name) then
    throw (.duplicatePolicy p.name)
  if p.maxAttempts = some 0 then throw (.noAttempts p.name)

/- A cluster has known members and a known policy. -/
def checkCluster
    (c : Config)
    (seen : List String)
    (k : Cluster) : Except Error Unit := do
  if seen.contains (Text.lower k.name) then
    throw (.duplicateCluster k.name)
  if k.databases.isEmpty then throw (.emptyCluster k.name)
  let names := foldedNames Repository.name c.repositories
  match k.databases.find? fun m =>
      !names.contains (Text.lower m) with
  | some m => throw (.unknownMember k.name m)
  | none =>
      if (c.policy? k.fallbackPolicy).isNone then
        throw (.unknownPolicy k.name k.fallbackPolicy)

/- Repositories, policies and clusters are checked in turn. -/
def validate (c : Config) : Except Error Unit := do
  checkEach Repository.name checkRepository [] c.repositories
  checkEach Policy.name checkPolicy [] c.policies
  checkEach Cluster.name (checkCluster c) [] c.clusters

end Config

end Failover
