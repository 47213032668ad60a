import Failover.Binding.Basic
import Failover.Column.NativeType

/-
  Binding to PostgreSQL.  A procedure is called with its
  outputs as typed NULLs and returns their values as a row; a
  procedure with a return value is called as a function.

  Key definitions include:
    * `Postgres.lexis`
    * `Postgres.placeholder`
    * `Postgres.Call`, `Postgres.Call.add`
    * `Postgres.bind`
-/

namespace Failover

namespace Postgres

def lexis : Sql.Lexis :=
  { backslashEscapes := false, dollarQuotes := true }

------------------------------------------------------------
-- Text commands
------------------------------------------------------------

/- Exact numbers and XML travel as text and are cast. -/
def placeholder
    (position : Nat)
    (t : DeclaredType) : String :=
  let number := "$" ++ Decimal.render position
  match t with
  | .decimal => number ++ "::numeric"
  | .money => number ++ "::numeric"
  | .xml => number ++ "::xml"
  | _ => number

/- The type of the parameter at a place. -/
def typeAt
    (ps : List Parameter)
    (i : Nat) : DeclaredType :=
  (ps[i]?.map (·.type)).getD .varChar

def bindText
    (c : Command) : Except BindingError BoundCommand :=
  match c.parameters.find? (·.direction.isOutput) with
  | some p => .error (.outputInText p.name p.direction)
  | none =>
      .ok <| .single <|
        Statement.ofText lexis true
          (fun position i =>
            placeholder position (typeAt c.parameters i))
          c

------------------------------------------------------------
-- Procedures
------------------------------------------------------------

/-
  A call under construction: what has been sent, the texts of
  the call's arguments, the outputs, and the return value.
-/
structure Call where
  arguments : List Argument
  items : List String
  outputs : List String
  returnValue : Option String

def Call.empty : Call := ⟨[], [], [], none⟩

/- A call with one more parameter. -/
def Call.add
    (k : Call)
    (p : Parameter) : Except BindingError Call :=
  let typeName := p.type.inPostgres
  let item :=
    "CAST($" ++ Decimal.render (k.arguments.length + 1) ++
      " AS " ++ typeName ++ ")"
  match p.direction with
  | .input =>
      .ok { k with
        arguments := k.arguments ++ [p.argument]
        items := k.items ++ [item] }
  | .inputOutput =>
      .ok { k with
        arguments := k.arguments ++ [p.argument]
        items := k.items ++ [item]
        outputs := k.outputs ++ [p.name] }
  | .output =>
      .ok { k with
        items := k.items ++ ["NULL::" ++ typeName]
        outputs := k.outputs ++ [p.name] }
  | .returnValue =>
      if k.returnValue.isSome then .error .manyReturnValues
      else .ok { k with returnValue := some p.name }

/- The statement that makes a call of a named routine. -/
def Call.finish
    (k : Call)
    (name : String) : Except BindingError BoundCommand :=
  let items := ", ".intercalate k.items
  match k.returnValue with
  | some result =>
      if !k.outputs.isEmpty then
        .error .returnValueWithOutputs
      else
        let sql :=
          "SELECT " ++ name ++ "(" ++ items ++ ") AS " ++
            Sql.quoteIdentifier '"' result
        .ok ⟨[], ⟨sql, k.arguments⟩, .mainRow [result]⟩
  | none =>
      let sql := "CALL " ++ name ++ "(" ++ items ++ ")"
      .ok
        ⟨[], ⟨sql, k.arguments⟩,
          if k.outputs.isEmpty then .none
          else .mainRow k.outputs⟩

def bindProcedure
    (c : Command) : Except BindingError BoundCommand := do
  let name ← BindingError.requireRoutine c.text
  let call ← c.parameters.foldlM Call.add Call.empty
  call.finish name

/- The bound form of a command. -/
def bind
    (c : Command) : Except BindingError BoundCommand :=
  match c.kind with
  | .text => bindText c
  | .table => .ok (.single (Statement.ofTable '"' c))
  | .procedure => bindProcedure c

end Postgres

end Failover
