import Failover.Text.Blank
import Failover.Text.Fold
import Failover.Text.Split

/-
  Identifiers in SQL text: quoting names with dots between
  their parts, and checking the names of routines.

  Key definitions include:
    * `Sql.barePart`, `Sql.quotePart`
    * `Sql.quoteIdentifier`
    * `Sql.RoutineError`
    * `Sql.routineName`
-/

namespace Failover

namespace Sql

------------------------------------------------------------
-- Quoting
------------------------------------------------------------

/-
  A part of a name without the white space around it and the
  quotes within that.
-/
def barePart
    (quote : Char)
    (part : List Char) : List Char :=
  Text.trimBoth (· == quote)
    (Text.trimBoth Text.isBlank part)

/- A quote inside a part is doubled. -/
def doubleQuotes
    (quote : Char)
    (part : List Char) : List Char :=
  part.flatMap fun c =>
    if c = quote then [quote, quote] else [c]

/- A part between quotes. -/
def quotePart
    (quote : Char)
    (part : List Char) : List Char :=
  quote :: (doubleQuotes quote (barePart quote part) ++
    [quote])

/- The quoted parts of a name, with dots between. -/
def quoteChars
    (quote : Char)
    (name : List Char) : List Char :=
  ['.'].intercalate
    ((Text.splitOn '.' name).map (quotePart quote))

def quoteIdentifier
    (quote : Char)
    (name : String) : String :=
  String.ofList (quoteChars quote name.toList)

------------------------------------------------------------
-- Routine names
------------------------------------------------------------

/- Why a text is no name of a routine. -/
inductive RoutineError where
  | empty
  | invalid (name : String)
deriving DecidableEq, Repr

def RoutineError.message : RoutineError → String
  | .empty => "routine name cannot be empty"
  | .invalid name => "invalid routine name '" ++ name ++ "'"

/- Parts of word characters, none empty, with dots between. -/
def isRoutineName (cs : List Char) : Bool :=
  (Text.splitOn '.' cs).all fun part =>
    !part.isEmpty && part.all Text.isWordChar

/- A name that is safe to stand in SQL text as it is. -/
def routineName
    (name : String) : Except RoutineError String :=
  let trimmed := Text.trim name
  if trimmed.isEmpty then .error .empty
  else if isRoutineName trimmed.toList then .ok trimmed
  else .error (.invalid name)

end Sql

end Failover
