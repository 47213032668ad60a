import Failover.Command.Outputs
import Failover.Failure

/-
  What a command produces: result sets, a count of affected
  rows and output values.  A set may end in a failure that
  came up while its rows were arriving.

  Key definitions include:
    * `Column`, `ResultSet`
    * `ResultSet.outputs`
    * `Outcome`, `Outcome.first?`
    * `Outcome.takeFailure`
-/

namespace Failover

structure Column where
  name : String
  typeName : String
deriving DecidableEq, Repr, Inhabited

------------------------------------------------------------
-- Result Sets
------------------------------------------------------------

structure ResultSet where
  columns : List Column
  rows : List (List Value)
  failure : Option Failure
deriving Repr, Inhabited

namespace ResultSet

def empty : ResultSet := ⟨[], [], none⟩

/- The position of a column's name, in any ASCII case. -/
def columnIndex?
    (s : ResultSet)
    (name : String) : Option Nat :=
  s.columns.findIdx? fun c => Text.sameName c.name name

/-
  The value for a parameter: that of the column of its name,
  else the one at the parameter's own position.
-/
def outputAt?
    (s : ResultSet)
    (row : List Value)
    (name : String)
    (position : Nat) : Option Value :=
  row[(s.columnIndex? name).getD position]?

/- The values for parameters from a position on. -/
def outputsFrom
    (s : ResultSet)
    (row : List Value)
    (position : Nat)
    (o : OutputValues) : List String → OutputValues
  | [] => o
  | name :: r =>
      let o' :=
        match s.outputAt? row name position with
        | some v => o.insert name v
        | none => o
      outputsFrom s row (position + 1) o' r

/- The output values in the first row. -/
def outputs
    (s : ResultSet)
    (parameters : List String) : OutputValues :=
  match s.rows with
  | [] => .empty
  | row :: _ => s.outputsFrom row 0 .empty parameters

end ResultSet

------------------------------------------------------------
-- Outcomes
------------------------------------------------------------

structure Outcome where
  sets : List ResultSet
  rowsAffected : UInt64
  outputs : OutputValues
deriving Repr, Inhabited

namespace Outcome

/- The first column of the first row of the first set. -/
def first? (o : Outcome) : Option Value :=
  o.sets.head?.bind fun s =>
    s.rows.head?.bind fun row => row.head?

/- The first failure of some sets, and the sets without it. -/
def takeFrom :
    List ResultSet → Option Failure × List ResultSet
  | [] => (none, [])
  | s :: r =>
      match s.failure with
      | some f => (some f, { s with failure := none } :: r)
      | none =>
          let (f, r') := takeFrom r
          (f, s :: r')

/- The first failure of any set, and the outcome without it. -/
def takeFailure (o : Outcome) : Option Failure × Outcome :=
  let (f, sets) := takeFrom o.sets
  (f, { o with sets })

/- The first failure of any set. -/
def failure? (o : Outcome) : Option Failure :=
  (takeFrom o.sets).1

end Outcome

end Failover
