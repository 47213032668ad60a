import Failover.Binding.Basic

/-
  Binding to SQLite, which has neither procedures nor
  output parameters.

  Key definitions include:
    * `Sqlite.lexis`
    * `Sqlite.bind`
-/

namespace Failover

namespace Sqlite

def lexis : Sql.Lexis :=
  { backslashEscapes := false, dollarQuotes := false }

/- The bound form of a command. -/
def bind
    (c : Command) : Except BindingError BoundCommand :=
  match c.parameters.find? (·.direction.isOutput) with
  | some p => .error (.noDirection p.name p.direction)
  | none =>
      match c.kind with
      | .text =>
          .ok <| .single <|
            Statement.ofText lexis true
              (fun position _ =>
                "?" ++ Decimal.render position) c
      | .table => .ok (.single (Statement.ofTable '"' c))
      | .procedure => .error .noProcedures

end Sqlite

end Failover
