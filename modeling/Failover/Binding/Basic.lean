import Failover.Command.Basic
import Failover.Sql.Identifier
import Failover.Sql.Placeholder

/-
  Commands bound to an engine: the statements to run
  with their arguments, and where the values of output
  parameters come from afterwards.

  Key definitions include:
    * `Argument`, `Statement`
    * `OutputCapture`, `OutputCapture.names`
    * `BoundCommand`
    * `BindingError`, `BindingError.message`
    * `Statement.ofText`
    * `BoundCommand.verbatim`
    * `Statement.ofTable`
-/

namespace Failover

------------------------------------------------------------
-- Statements
------------------------------------------------------------

/- One value for a placeholder, with its declared type. -/
structure Argument where
  value : Value
  type : DeclaredType
deriving Repr, Inhabited

/- A statement with its arguments in placeholder order. -/
structure Statement where
  sql : String
  arguments : List Argument
deriving Repr, Inhabited

/-
  Where output values are read: nowhere, in the first row of
  the main statement's first result set, or in the first row
  of a further statement.
-/
inductive OutputCapture where
  | none
  | mainRow (parameters : List String)
  | readback (statement : Statement) (parameters : List String)
deriving Repr, Inhabited

/- The parameters whose values are read. -/
def OutputCapture.names : OutputCapture → List String
  | .none => []
  | .mainRow parameters => parameters
  | .readback _ parameters => parameters

/- The setup statements run before the main one. -/
structure BoundCommand where
  setup : List Statement
  main : Statement
  outputs : OutputCapture
deriving Repr, Inhabited

/- A single statement without output values. -/
def BoundCommand.single (s : Statement) : BoundCommand :=
  ⟨[], s, .none⟩

------------------------------------------------------------
-- Causes
------------------------------------------------------------

def Direction.title : Direction → String
  | .input => "Input"
  | .output => "Output"
  | .inputOutput => "InputOutput"
  | .returnValue => "ReturnValue"

/- Why a command cannot be bound to an engine. -/
inductive BindingError where
  | routine (cause : Sql.RoutineError)
  | outputInText (name : String) (direction : Direction)
  | manyReturnValues
  | returnValueWithOutputs
  | noReturnValue (name : String)
  | outputName (name : String)
  | noDirection (name : String) (direction : Direction)
  | noProcedures
deriving DecidableEq, Repr

def BindingError.message : BindingError → String
  | .routine cause => cause.message
  | .outputInText name direction =>
      "parameter '" ++ name ++ "' is " ++ direction.title ++
        "; PostgreSQL text commands only take input " ++
        "parameters"
  | .manyReturnValues =>
      "only one return-value parameter is allowed"
  | .returnValueWithOutputs =>
      "PostgreSQL cannot combine a return value with " ++
        "output parameters"
  | .noReturnValue name =>
      "MySQL does not support return-value parameters ('" ++
        name ++ "')"
  | .outputName name =>
      "invalid output parameter name '" ++ name ++ "'"
  | .noDirection name direction =>
      "SQLite does not support " ++ direction.title ++
        " parameters ('" ++ name ++ "')"
  | .noProcedures =>
      "SQLite does not support stored procedures"

/- The name of a routine, or why it is none. -/
def BindingError.requireRoutine
    (name : String) : Except BindingError String :=
  (Sql.routineName name).mapError .routine

------------------------------------------------------------
-- Text and tables
------------------------------------------------------------

/- The value and the type of a parameter. -/
def Parameter.argument (p : Parameter) : Argument :=
  ⟨p.value, p.type⟩

/- The parameter is an input of a name. -/
def Parameter.isInputNamed
    (p : Parameter)
    (name : String) : Bool :=
  p.direction == .input && Text.sameName p.name name

/- The places of the inputs in a parameter list. -/
def inputIndices (ps : List Parameter) : List Nat :=
  (List.range ps.length).filter fun i =>
    (ps[i]?.map (·.direction)) == some .input

/-
  The text of a command with its references to inputs
  replaced.  A text without any takes its inputs in the order
  of their declaration.
-/
def Statement.ofText
    (lex : Sql.Lexis)
    (numbered : Bool)
    (placeholder : Nat → Nat → String)
    (c : Command) : Statement :=
  let ps := c.parameters
  let substituted :=
    Sql.substitute lex
      { numbered
        index? := fun name =>
          ps.findIdx? (·.isInputNamed name)
        placeholder } c.text
  let order :=
    if substituted.references = 0 then inputIndices ps
    else substituted.order
  ⟨String.ofList substituted.sql,
    order.filterMap fun i => ps[i]?.map (·.argument)⟩

/-
  The text of a command as it is, with a value for each
  parameter that sends one.  The other way round, the first
  row has the values of the output parameters.
-/
def BoundCommand.verbatim (c : Command) : BoundCommand :=
  let sent := c.parameters.filter (·.direction.sendsValue)
  let reported := c.parameters.filter (·.direction.isOutput)
  ⟨[], ⟨c.text, sent.map (·.argument)⟩,
    if reported.isEmpty then .none
    else .mainRow (reported.map (·.name))⟩

/- All rows of the table that a command names. -/
def Statement.ofTable
    (quote : Char)
    (c : Command) : Statement :=
  ⟨"SELECT * FROM " ++ Sql.quoteIdentifier quote c.text, []⟩

end Failover
