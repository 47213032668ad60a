import Failover.Binding.Engine
import Failover.Column.NativeType
import Failover.Config.Basic

/-
  Providers: what a repository knows of its engine without a
  connection.

  Key definitions include:
    * `Provider`
    * `Provider.Settings`
    * `Provider.ofEngine`
    * `Provider.verbatim`
-/

namespace Failover

/-
  The name of the server's kind, the connection string, the
  names of types, and the binding of commands.  For some
  engines binding is itself a call that can fail.
-/
structure Provider where
  serverType : String
  url : String
  nativeType : DeclaredType → String
  callsToBind : Bool
  bind : Command → Except Failure BoundCommand

namespace Provider

/- What a provider is made from. -/
structure Settings where
  repository : String
  url : String
  schema : Option String
  pool : Config.Pool
deriving DecidableEq, Repr

/- The provider of a built-in engine. -/
def ofEngine
    (e : Engine)
    (s : Settings) : Provider where
  serverType := e.displayName
  url := s.url
  nativeType := fun t => t.native e
  callsToBind := false
  bind := e.bindFor s.repository

/- The binding of a built-in provider is that of its engine. -/
theorem ofEngine_bind_iff
    {e : Engine}
    {s : Settings}
    {c : Command}
    {b : BoundCommand} :
    (ofEngine e s).bind c = .ok b ↔ e.bind c = .ok b := by
  change (e.bind c).mapError _ = .ok b ↔ _
  cases e.bind c with
  | error cause => exact ⟨nofun, nofun⟩
  | ok b' => exact ⟨fun h => by cases h; rfl, fun h => by cases h; rfl⟩

/-
  A provider that sends the text of every command as it is,
  and has one type for all columns.
-/
def verbatim
    (serverType url : String)
    (callsToBind : Bool) : Provider where
  serverType
  url
  nativeType := fun _ => "TEXT"
  callsToBind
  bind := fun c => .ok (.verbatim c)

end Provider

end Failover
