import Failover.Binding.Basic
import Failover.Column.NativeType

/-
  Binding to MySQL.  Output values travel in session
  variables: they are initialised before the command, which
  writes them, and read back by a further statement.

  Key definitions include:
    * `MySql.lexis`
    * `MySql.sessionVariable`
    * `MySql.initialise`, `MySql.column`
    * `MySql.outputPlan`
    * `MySql.bind`
-/

namespace Failover

namespace MySql

def lexis : Sql.Lexis :=
  { backslashEscapes := true, dollarQuotes := false }

------------------------------------------------------------
-- Output values
------------------------------------------------------------

/- The session variable of an output parameter. -/
def sessionVariable
    (name : String) : Except BindingError String :=
  if name.toList.contains '.' then .error (.outputName name)
  else
    (BindingError.requireRoutine name).map ("@" ++ ·)

/- The variable of a parameter that is not a return value. -/
def outputVariable
    (p : Parameter) : Except BindingError String :=
  match p.direction with
  | .returnValue => .error (.noReturnValue p.name)
  | _ => sessionVariable p.name

/- The statement that sets a variable before the command. -/
def initialise
    (p : Parameter)
    (v : String) : Statement :=
  match p.direction with
  | .inputOutput => ⟨"SET " ++ v ++ " = ?", [p.argument]⟩
  | _ => ⟨"SET " ++ v ++ " = NULL", []⟩

/- The column that reads a variable back. -/
def column
    (p : Parameter)
    (v : String) : String :=
  "CAST(" ++ v ++ " AS " ++ p.type.inMySql ++ ") AS " ++
    Sql.quoteIdentifier '`' p.name

/- The setup statements and the capture of the outputs. -/
def outputPlan
    (c : Command) :
    Except BindingError (List Statement × OutputCapture) := do
  let outputs := c.parameters.filter (·.direction.isOutput)
  if outputs.isEmpty then return ([], .none)
  let pairs ← outputs.mapM fun p => do
    return (p, ← outputVariable p)
  let columns := pairs.map fun (p, v) => column p v
  return (pairs.map fun (p, v) => initialise p v,
    .readback
      ⟨"SELECT " ++ ", ".intercalate columns, []⟩
      (outputs.map (·.name)))

------------------------------------------------------------
-- Commands
------------------------------------------------------------

def bindText
    (c : Command) : Except BindingError BoundCommand := do
  let (setup, outputs) ← outputPlan c
  return ⟨setup,
    Statement.ofText lexis false (fun _ _ => "?") c, outputs⟩

/- What stands for a parameter in a call. -/
def callItem
    (p : Parameter) : Except BindingError String :=
  match p.direction with
  | .input => .ok "?"
  | _ => sessionVariable p.name

def bindProcedure
    (c : Command) : Except BindingError BoundCommand := do
  let name ← BindingError.requireRoutine c.text
  let (setup, outputs) ← outputPlan c
  let items ← c.parameters.mapM callItem
  let sql :=
    "CALL " ++ name ++ "(" ++ ", ".intercalate items ++ ")"
  let inputs := c.parameters.filter (·.direction == .input)
  return ⟨setup, ⟨sql, inputs.map (·.argument)⟩, outputs⟩

/- The bound form of a command. -/
def bind
    (c : Command) : Except BindingError BoundCommand :=
  match c.kind with
  | .text => bindText c
  | .table => .ok (.single (Statement.ofTable '`' c))
  | .procedure => bindProcedure c

end MySql

end Failover
