import Failover.World.Basic

/-
  The data access layer: repositories and clusters, built
  from a configuration and found by their names.

  Key definitions include:
    * `DataAccess`
    * `DataAccess.relaxed`
    * `DataAccess.policyFor`
    * `DataAccess.build`
    * `DataAccess.cluster`, `DataAccess.repository`
-/

namespace Failover

/-
  Repositories are kept under their names in lower case, and
  clusters by their sequence numbers.  The default timeout is
  in seconds.
-/
structure DataAccess where
  repositories : List (String × Repository)
  clusters : List Cluster
  defaultTimeout : Nat

namespace DataAccess

------------------------------------------------------------
-- Validation
------------------------------------------------------------

/- The policy that was registered in code under a name. -/
def registered?
    (policies : List Policy)
    (name : String) : Option Policy :=
  policies.find? fun p => Text.sameName p.name name

/-
  For validation a policy that is registered in code stands
  for one that is configured.
-/
def relaxed
    (c : Config)
    (policies : List Policy) : Config :=
  { c with
    clusters := c.clusters.map fun k =>
      if (registered? policies k.fallbackPolicy).isSome then
        { k with fallbackPolicy := "default" }
      else k }

------------------------------------------------------------
-- Building
------------------------------------------------------------

/- A repository under a key replaces the one before. -/
def insertRepository
    (key : String)
    (r : Repository) :
    List (String × Repository) → List (String × Repository)
  | [] => [(key, r)]
  | (k, q) :: rest =>
      if k = key then (k, r) :: rest
      else (k, q) :: insertRepository key r rest

def find?
    (repositories : List (String × Repository))
    (name : String) : Option Repository :=
  repositories.lookup (Text.lower name)

/- Repositories are made in turn, each with its provider. -/
def makeRepositories
    (registry : Registry)
    (made : List (String × Repository)) :
    List Config.Repository →
      Effect (Except Failure (List (String × Repository)))
  | [] => return .ok made
  | c :: rest => do
      match Repository.ofConfig registry c with
      | .error f => return .error f
      | .ok r =>
          World.note
            (.created r.engine (Repository.settings c))
          makeRepositories registry
            (insertRepository (Text.lower c.name) r made) rest

/- The policy of a name: one from code, or a configured one. -/
def policyFor
    (c : Config)
    (policies : List Policy)
    (k : Config.Cluster) : Except Failure Policy :=
  match registered? policies k.fallbackPolicy with
  | some p => .ok p
  | none =>
      match c.policy? k.fallbackPolicy with
      | some p => .ok (.ofConfig k.name p)
      | none =>
          .error (Config.Error.unknownPolicy k.name
            k.fallbackPolicy).failure

/- The repository of a cluster's member. -/
def member
    (repositories : List (String × Repository))
    (name : String) : Except Failure Repository :=
  match find? repositories name with
  | some r => .ok r
  | none => .error (.repositoryNotFound name)

def makeCluster
    (c : Config)
    (policies : List Policy)
    (repositories : List (String × Repository))
    (k : Config.Cluster) : Except Failure Cluster := do
  let members ← k.databases.mapM (member repositories)
  let policy ← policyFor c policies k
  return .ofMembers k.name k.sequence k.enabled members policy

/- Clusters by their sequence numbers, ties as configured. -/
def sortClusters (clusters : List Cluster) : List Cluster :=
  clusters.mergeSort fun a b =>
    decide (a.sequence ≤ b.sequence)

/- A valid configuration is built. -/
def build
    (registry : Registry)
    (policies : List Policy)
    (c : Config) : Effect (Except Failure DataAccess) := do
  match (relaxed c policies).validate with
  | .error e => return .error e.failure
  | .ok () =>
      match ← makeRepositories registry [] c.repositories with
      | .error f => return .error f
      | .ok repositories =>
          return (c.clusters.mapM
            (makeCluster c policies repositories)).map
              fun clusters =>
                ⟨repositories, sortClusters clusters,
                  c.defaultTimeout⟩

------------------------------------------------------------
-- Lookup
------------------------------------------------------------

/- The cluster of a name, in any ASCII case. -/
def cluster
    (d : DataAccess)
    (name : String) : Except Failure Cluster :=
  match d.clusters.find? fun k => Text.sameName k.name name with
  | some k => .ok k
  | none => .error (.clusterNotFound name)

def clusterNames (d : DataAccess) : List String :=
  d.clusters.map (·.name)

/- The first cluster that is enabled. -/
def defaultCluster? (d : DataAccess) : Option Cluster :=
  d.clusters.find? (·.enabled)

def repository
    (d : DataAccess)
    (name : String) : Except Failure Repository :=
  member d.repositories name

/- All repositories by their names. -/
def sortedRepositories (d : DataAccess) : List Repository :=
  (d.repositories.map (·.2)).mergeSort fun a b =>
    decide (a.name ≤ b.name)

end DataAccess

end Failover
