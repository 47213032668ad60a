import Failover.Provider.Registry

/-
  Repositories: single databases with the providers they are
  reached by.

  Key definitions include:
    * `Repository`
    * `Repository.ofConfig`
-/

namespace Failover

structure Repository where
  name : String
  engine : String
  enabled : Bool
  sequence : Int
  provider : Provider

namespace Repository

def settings (c : Config.Repository) : Provider.Settings :=
  ⟨c.name, c.connectionString, c.schema, c.pool⟩

/- The repository of a configuration.  Nothing is opened. -/
def ofConfig
    (r : Registry)
    (c : Config.Repository) : Except Failure Repository := do
  let engine ← c.engineKey.mapError Config.Error.failure
  let provider ← r.create engine (settings c)
  return ⟨c.name, engine, c.enabled, c.sequence, provider⟩

end Repository

end Failover
