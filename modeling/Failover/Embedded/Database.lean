import Failover.Embedded.ColumnType
import Failover.Embedded.Declaration
import Failover.Outcome.Basic

/-
  An embedded database without tables of its own: statements
  that open and end transactions or read a table, and values
  that pass through an argument or through a column.

  Key definitions include:
    * `Embedded.Refusal`, `Embedded.Refusal.failure`
    * `Embedded.Control`, `Embedded.Control.run`
    * `Embedded.readTable`
    * `Embedded.Request`, `Embedded.runAll`
    * `Embedded.store`
    * `Embedded.echo`, `Embedded.passColumn`
-/

namespace Failover

namespace Embedded

------------------------------------------------------------
-- Causes
------------------------------------------------------------

/- Why the engine refuses a statement. -/
inductive Refusal where
  | nestedTransaction
  | nothingToCommit
  | nothingToRollBack
  | noTable (name : String)
  | nameTooDeep
  | declaration (cause : Declaration.Error)
deriving DecidableEq, Repr

def Refusal.message : Refusal → String
  | .nestedTransaction =>
      "cannot start a transaction within a transaction"
  | .nothingToCommit =>
      "cannot commit - no transaction is active"
  | .nothingToRollBack =>
      "cannot rollback - no transaction is active"
  | .noTable name => "no such table: " ++ name
  | .nameTooDeep => "near \".\": syntax error"
  | .declaration cause => cause.message

/- The failure of a statement at a repository. -/
def Refusal.failure
    (repository : String)
    (r : Refusal) : Failure :=
  .ofDriver repository .executing
    (.database r.message (some "1"))

------------------------------------------------------------
-- Transactions
------------------------------------------------------------

/- The statements that open and end a transaction. -/
inductive Control where
  | begin
  | commit
  | rollback
deriving DecidableEq, Repr

/-
  Whether a transaction is open after a statement, told from
  whether one was before.  There is at most one.
-/
def Control.run
    (c : Control)
    (isOpen : Bool) : Except Refusal Bool :=
  match c, isOpen with
  | .begin, false => .ok true
  | .begin, true => .error .nestedTransaction
  | .commit, true => .ok false
  | .commit, false => .error .nothingToCommit
  | .rollback, true => .ok false
  | .rollback, false => .error .nothingToRollBack

------------------------------------------------------------
-- Tables
------------------------------------------------------------

/- The tables that every database has. -/
def systemTables : List String :=
  ["sqlite_master", "sqlite_schema", "sqlite_temp_master",
    "sqlite_temp_schema"]

/- The text between the quotes of a part of a name. -/
def partText (part : List Char) : String :=
  String.ofList (Sql.barePart '"' part)

/-
  Reading a table by a name with or without the name of a
  database in front.
-/
def readTable (name : String) : Except Refusal Unit :=
  let known (t : String) :=
    systemTables.any fun u => Text.sameName u t
  match (Text.splitOn '.' name.toList).map partText with
  | [t] => if known t then .ok () else .error (.noTable t)
  | [d, t] =>
      if Text.sameName d "main" && known t then .ok ()
      else .error (.noTable (d ++ "." ++ t))
  | _ => .error .nameTooDeep

/- What is asked of one connection. -/
inductive Request where
  | control (c : Control)
  | table (name : String)
deriving DecidableEq, Repr

/-
  The answer to a request, and whether a transaction is open
  then.
-/
def Request.run
    (isOpen : Bool) :
    Request → Except Refusal Unit × Bool
  | .control c =>
      match c.run isOpen with
      | .ok after => (.ok (), after)
      | .error cause => (.error cause, isOpen)
  | .table name => (readTable name, isOpen)

/- The answers to requests on one connection, in order. -/
def runAll
    (isOpen : Bool) :
    List Request → List (Except Refusal Unit)
  | [] => []
  | q :: r =>
      let (answer, after) := q.run isOpen
      answer :: runAll after r

------------------------------------------------------------
-- Values
------------------------------------------------------------

/- What an argument is stored as. -/
def store
    (repository : String)
    (a : Argument) : Except Failure Stored :=
  match a.native .sqlite with
  | .ok n => .ok n.stored
  | .error cause =>
      .error (.commandBinding repository cause.message)

/- The class of an argument, and the argument itself. -/
def echo
    (repository : String)
    (a : Argument) : Except Failure (List Value) :=
  (store repository a).map fun s =>
    [.text s.className, s.value]

/-
  A value stored in a column of a declared type and read back
  together with the class in which it is stored.
-/
def passColumn
    (repository declared : String)
    (v : Value) : Except Failure ResultSet := do
  match Declaration.check declared with
  | .error cause =>
      throw (Refusal.failure repository (.declaration cause))
  | .ok _ =>
      let s ← store repository ⟨v, .infer v⟩
      let s := (Affinity.ofTypeName declared).apply s
      let t := ColumnType.ofDeclared declared
      return {
        columns := [⟨"v", t.name⟩, ⟨"t", "NULL"⟩]
        rows := [[s.valueIn t, .text s.className]]
        failure := none }

end Embedded

end Failover
