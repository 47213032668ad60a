import Failover.Command.DeclaredType
import Failover.Command.Outputs
import Failover.Text.Blank
import Failover.Value.Conversion

/-
  Commands: one operation for an engine, with its parameters
  in the order of their first declaration.

  Key definitions include:
    * `Direction`
    * `Parameter`, `Parameter.make`
    * `Command`, `Command.add`
    * `Command.parameter?`
    * `Command.value`
    * `Command.storeOutputs`, `Command.copyOutputs`
-/

namespace Failover

------------------------------------------------------------
-- Parameters
------------------------------------------------------------

/- Which way a parameter's value goes. -/
inductive Direction where
  | input
  | output
  | inputOutput
  | returnValue
deriving DecidableEq, Repr, Inhabited

namespace Direction

/- The engine reports a value back. -/
def isOutput : Direction → Bool
  | .input => false
  | _ => true

/- The current value goes to the engine. -/
def sendsValue : Direction → Bool
  | .input => true
  | .inputOutput => true
  | _ => false

end Direction

structure Parameter where
  name : String
  direction : Direction
  type : DeclaredType
  size : Option Nat
  value : Value
deriving Repr, Inhabited

namespace Parameter

/- A name without white space around it and at signs. -/
def normalName (s : String) : String :=
  bareName (Text.trim s)

/- A parameter without a declared size. -/
def make
    (name : String)
    (direction : Direction)
    (type : DeclaredType)
    (value : Value) : Parameter :=
  ⟨normalName name, direction, type, none, value⟩

/- An input whose type is inferred from its value. -/
def input
    (name : String)
    (value : Value) : Parameter :=
  make name .input (.infer value) value

/- The name stands for the parameter. -/
def isNamed
    (p : Parameter)
    (name : String) : Bool :=
  Text.sameName p.name (bareName name)

end Parameter

------------------------------------------------------------
-- Commands
------------------------------------------------------------

/- What the text of a command is. -/
inductive CommandKind where
  | text
  | procedure
  | table
deriving DecidableEq, Repr, Inhabited

def CommandKind.name : CommandKind → String
  | .text => "Text"
  | .procedure => "StoredProcedure"
  | .table => "TableDirect"

/-
  A command without a timeout of its own, in seconds, uses a
  default.  One that is not safe to repeat must not run on a
  second engine once it may have reached a first one.
-/
structure Command where
  text : String
  kind : CommandKind
  timeout : Option Nat
  parameters : List Parameter
  retrySafe : Bool
deriving Repr, Inhabited

namespace Command

/- A command without parameters. -/
def ofText
    (kind : CommandKind)
    (text : String) : Command :=
  ⟨text, kind, none, [], true⟩

/-
  A parameter takes the place of the first one of its name,
  or comes last.
-/
def insertParameter
    (p : Parameter) : List Parameter → List Parameter
  | [] => [p]
  | q :: r =>
      if q.isNamed p.name then p :: r
      else q :: insertParameter p r

def add
    (c : Command)
    (p : Parameter) : Command :=
  { c with parameters := insertParameter p c.parameters }

/- The command with the mark that it is not safe to repeat. -/
def retryUnsafe (c : Command) : Command :=
  { c with retrySafe := false }

def parameter?
    (c : Command)
    (name : String) : Option Parameter :=
  c.parameters.find? (·.isNamed name)

/- The first parameter of a name gets a value. -/
def setFirst
    (name : String)
    (v : Value) : List Parameter → List Parameter
  | [] => []
  | p :: r =>
      if p.isNamed name then { p with value := v } :: r
      else p :: setFirst name v r

def setValue
    (c : Command)
    (name : String)
    (v : Value) : Command :=
  { c with parameters := setFirst name v c.parameters }

/- Some parameter gets a value back. -/
def hasOutputs (c : Command) : Bool :=
  c.parameters.any (·.direction.isOutput)

/- Why a parameter has no value of a type. -/
inductive ValueError where
  | unknownParameter (name : String)
  | conversion (cause : ConversionError)

def ValueError.message : ValueError → String
  | .unknownParameter name =>
      "unknown parameter '" ++ name ++ "'"
  | .conversion cause => cause.message

/- A parameter's value, converted to a type. -/
def value
    (c : Command)
    (name : String)
    (t : Target) : Except ValueError t.Carrier :=
  match c.parameter? name with
  | none => .error (.unknownParameter name)
  | some p =>
      match t.convert p.value with
      | .ok a => .ok a
      | .error e => .error (.conversion e)

------------------------------------------------------------
-- Output values
------------------------------------------------------------

/-
  An output parameter takes the value reported under its
  name; an input never does.
-/
def storeInto
    (o : OutputValues)
    (p : Parameter) : Parameter :=
  if p.direction.isOutput then
    match o.get? p.name with
    | some v => { p with value := v }
    | none => p
  else p

def storeOutputs
    (c : Command)
    (o : OutputValues) : Command :=
  { c with parameters := c.parameters.map (storeInto o) }

/- The current values of the output parameters. -/
def outputs (c : Command) : OutputValues :=
  OutputValues.ofEntries <|
    (c.parameters.filter (·.direction.isOutput)).map
      fun p => (p.name, p.value)

/- The output values of another form of the same command. -/
def copyOutputs
    (c other : Command) : Command :=
  c.storeOutputs other.outputs

end Command

end Failover
