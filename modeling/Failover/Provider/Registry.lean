import Failover.Provider.Basic
import Failover.Text.Quoted

/-
  Registries: how providers are made, by the name of an
  engine.  Every name of a built-in engine stands for its
  key, and other names count up to case and outer white space.

  Key definitions include:
    * `Registry`, `Registry.builtin`
    * `Registry.register`
    * `Registry.contains`
    * `Registry.create`
    * `Registry.describe`
-/

namespace Failover

/- How a provider is made, or why it is not. -/
abbrev Maker :=
  Provider.Settings → Except Failure Provider

/- Makers under the keys of their engines. -/
structure Registry where
  makers : List (String × Maker)

namespace Registry

def empty : Registry := ⟨[]⟩

/- A maker under a key replaces the one before. -/
def insertMaker
    (key : String)
    (make : Maker) :
    List (String × Maker) → List (String × Maker)
  | [] => [(key, make)]
  | (k, m) :: r =>
      if k = key then (k, make) :: r
      else (k, m) :: insertMaker key make r

def register
    (r : Registry)
    (name : String)
    (make : Maker) : Registry :=
  ⟨insertMaker (Engine.keyOf name) make r.makers⟩

/- The registry of the built-in engines. -/
def builtin : Registry :=
  Engine.all.foldl
    (fun r e =>
      r.register e.key fun s => .ok (Provider.ofEngine e s))
    empty

def maker?
    (r : Registry)
    (name : String) : Option Maker :=
  (r.makers.find? fun m => m.1 == Engine.keyOf name).map
    (·.2)

def contains
    (r : Registry)
    (name : String) : Bool :=
  (r.maker? name).isSome

/- A provider of the engine of a name. -/
def create
    (r : Registry)
    (name : String)
    (s : Provider.Settings) : Except Failure Provider :=
  match r.maker? name with
  | some make => make s
  | none => .error (.unsupportedEngine name)

/- The keys in the order of their code points. -/
def keys (r : Registry) : List String :=
  (r.makers.map (·.1)).mergeSort fun a b => decide (a ≤ b)

/- One line that lists the keys. -/
def describe (r : Registry) : String :=
  "ProviderRegistry \x7b engines: [" ++
    ", ".intercalate (r.keys.map Text.quoted) ++ "] \x7d"

end Registry

end Failover
