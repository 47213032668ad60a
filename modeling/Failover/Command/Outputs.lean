import Failover.Text.Fold
import Failover.Value.Basic

/-
  The values that an engine reports for output parameters,
  by name.  Names are compared up to ASCII case, and an at
  sign in front of a name that is asked for does not count.

  Key definitions include:
    * `bareName`
    * `OutputValues`
    * `OutputValues.insert`
    * `OutputValues.get?`
-/

namespace Failover

/- A name without the at signs in front of it. -/
def bareName (s : String) : String :=
  String.ofList (s.toList.dropWhile (· == '@'))

/- Names with their values, in the order of insertion. -/
structure OutputValues where
  entries : List (String × Value)
deriving Repr, Inhabited

namespace OutputValues

def empty : OutputValues := ⟨[]⟩

/- The first entry of a name gets a value, or a new one. -/
def insertInto
    (name : String)
    (v : Value) :
    List (String × Value) → List (String × Value)
  | [] => [(name, v)]
  | (n, w) :: r =>
      if Text.sameName n name then (n, v) :: r
      else (n, w) :: insertInto name v r

/- A value is set under a name. -/
def insert
    (o : OutputValues)
    (name : String)
    (v : Value) : OutputValues :=
  ⟨insertInto name v o.entries⟩

/- The values of some entries, one after the other. -/
def ofEntries
    (es : List (String × Value)) : OutputValues :=
  es.foldl (fun o e => o.insert e.1 e.2) empty

/- The value under a name. -/
def get?
    (o : OutputValues)
    (name : String) : Option Value :=
  (o.entries.find? fun e =>
    Text.sameName e.1 (bareName name)).map (·.2)

def isEmpty (o : OutputValues) : Bool :=
  o.entries.isEmpty

def size (o : OutputValues) : Nat :=
  o.entries.length

end OutputValues

end Failover
