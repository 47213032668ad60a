import Failover.Engine
import Failover.Text.Split

/-
  Classes of column types, told from the engines' own type
  names.

  Key definitions include:
    * `Category`
    * `Category.ofTypeName`
-/

namespace Failover

inductive Category where
  | integer
  | float
  | decimal
  | boolean
  | text
  | binary
  | json
  | uuid
  | date
  | time
  | timestamp
  | moment
  | unknown
deriving DecidableEq, Repr

namespace Category

def name : Category → String
  | .integer => "Integer"
  | .float => "Float"
  | .decimal => "Decimal"
  | .boolean => "Boolean"
  | .text => "Text"
  | .binary => "Binary"
  | .json => "Json"
  | .uuid => "Uuid"
  | .date => "Date"
  | .time => "Time"
  | .timestamp => "Timestamp"
  | .moment => "TimestampTz"
  | .unknown => "Unknown"

/-
  The names of times, and of types that only look like
  numbers.  MySQL keeps a timestamp in UTC.
-/
def temporal?
    (e : Engine)
    (n : String) : Option Category :=
  if n = "timestamptz" then some .moment
  else if n = "timestamp" then
    some (if e = .mysql then .moment else .timestamp)
  else if n = "datetime" then some .timestamp
  else if n = "date" then some .date
  else if n = "time" then some .time
  else if ["interval", "point", "timetz"].contains n then
    some .unknown
  else none

/- The class of a type name in lower case. -/
def ofLowerName
    (e : Engine)
    (n : String) : Category :=
  let has (part : String) :=
    Text.includes part.toList n.toList
  if has "decimal" || has "numeric" then
    if e = .sqlite ∧ n = "numeric" then .float else .decimal
  else
    match temporal? e n with
    | some k => k
    | none =>
        if n = "bool" ∨ n = "boolean" then .boolean
        else if has "int" || has "serial" || has "tiny" then
          .integer
        else if has "float" || has "double" || n == "real" then
          .float
        else if n = "json" ∨ n = "jsonb" then .json
        else if n = "uuid" then .uuid
        else if has "blob" || has "binary" || n == "bytea" then
          .binary
        else if has "char" || has "text" || n == "name" then
          .text
        else .unknown

/- The class of a type name, in any case. -/
def ofTypeName
    (e : Engine)
    (name : String) : Category :=
  ofLowerName e (Text.lower name)

end Category

end Failover
