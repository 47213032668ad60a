import Failover.Text.Blank
import Failover.Text.Lower

/-
  The database engines with built-in support, and the names
  and connection strings that stand for them.

  Key definitions include:
    * `Engine`
    * `Engine.key`, `Engine.displayName`
    * `Engine.ofName?`, `Engine.keyOf`
    * `Engine.ofConnectionString?`
-/

namespace Failover

inductive Engine where
  | postgres
  | mysql
  | sqlite
deriving DecidableEq, Repr, Inhabited

namespace Engine

/- The name under which an engine is registered. -/
def key : Engine → String
  | .postgres => "postgres"
  | .mysql => "mysql"
  | .sqlite => "sqlite"

def displayName : Engine → String
  | .postgres => "PostgreSQL"
  | .mysql => "MySQL"
  | .sqlite => "SQLite"

/- The names of an engine, in lower case. -/
def names : Engine → List String
  | .postgres => ["postgres", "postgresql", "pg"]
  | .mysql => ["mysql", "mariadb", "aurora"]
  | .sqlite => ["sqlite", "sqlite3"]

/- How the connection strings of an engine begin. -/
def schemes : Engine → List String
  | .postgres => ["postgres://", "postgresql://"]
  | .mysql => ["mysql://", "mariadb://"]
  | .sqlite => ["sqlite:"]

def all : List Engine := [.postgres, .mysql, .sqlite]

/- The engine of a name. -/
def ofName? (s : String) : Option Engine :=
  let name := Text.lower (Text.trim s)
  all.find? fun e => e.names.contains name

/- The key under which the engine of any name is found. -/
def keyOf (s : String) : String :=
  match ofName? s with
  | some e => e.key
  | none => Text.lower (Text.trim s)

/- The engine of a connection string. -/
def ofConnectionString? (s : String) : Option Engine :=
  let cs := (Text.lower s).toList
  all.find? fun e =>
    e.schemes.any fun p => p.toList.isPrefixOf cs

end Engine

end Failover
