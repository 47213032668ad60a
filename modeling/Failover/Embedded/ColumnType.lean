import Failover.Calendar.Timestamp
import Failover.Calendar.Local
import Failover.Column.Category
import Failover.Embedded.Affinity

/-
  The types that the embedded engine reports for its columns,
  and the values that are read from columns of a class of
  types.  Where the class does not take a stored value, the
  class of the stored value decides.

  Key definitions include:
    * `ColumnType`, `ColumnType.name`
    * `ColumnType.ofDeclared`
    * `Stored.ofCategory?`
    * `Stored.valueIn`
-/

namespace Failover

------------------------------------------------------------
-- Reported types
------------------------------------------------------------

inductive ColumnType where
  | integer
  | boolean
  | date
  | time
  | dateTime
  | text
  | blob
  | real
  | unknown
deriving DecidableEq, Repr

namespace ColumnType

def name : ColumnType → String
  | .integer => "INTEGER"
  | .boolean => "BOOLEAN"
  | .date => "DATE"
  | .time => "TIME"
  | .dateTime => "DATETIME"
  | .text => "TEXT"
  | .blob => "BLOB"
  | .real => "REAL"
  | .unknown => "NULL"

/- The types that are told by their whole name. -/
def ofWholeName? (n : String) : Option ColumnType :=
  if n = "boolean" ∨ n = "bool" then some .boolean
  else if n = "date" then some .date
  else if n = "time" then some .time
  else if n = "datetime" ∨ n = "timestamp" then some .dateTime
  else none

/- The type that is reported for a declared one. -/
def ofDeclared (declared : String) : ColumnType :=
  let n := Text.fold (Text.trim declared)
  let has (part : String) :=
    Text.includes part.toList n.toList
  (ofWholeName? n).getD <|
    if has "int" then .integer
    else if has "char" || has "clob" || has "text" then .text
    else if has "blob" then .blob
    else if has "real" || has "floa" || has "doub" then .real
    else .unknown

def category (t : ColumnType) : Category :=
  .ofTypeName .sqlite t.name

end ColumnType

------------------------------------------------------------
-- Reading
------------------------------------------------------------

namespace Stored

def integer? : Stored → Option Int
  | .integer n => some n
  | _ => none

def real? : Stored → Option Floating
  | .real x => some x
  | _ => none

def text? : Stored → Option String
  | .text s => some s
  | _ => none

/- Bytes are also those of a text. -/
def bytes? : Stored → Option Bytes
  | .blob bs => some bs
  | .text s => some (Utf8.encode s)
  | _ => none

/- A local reading, seconds since 1970, or a Julian day. -/
def timestamp? : Stored → Option Timestamp
  | .text s => Timestamp.ofLocalText? s
  | .integer n => Timestamp.ofSeconds? n 0
  | .real x => Timestamp.ofJulianDay? x
  | _ => none

/- A text that is not JSON stays a text. -/
def jsonOrText (s : String) : Value :=
  match Json.ofText? s with
  | some j => .json j
  | none => .text s

/- The value that a class of types takes, if it does. -/
def ofCategory?
    (k : Category)
    (s : Stored) : Option Value :=
  match k with
  | .integer => s.integer?.map fun n => .int (Int64.ofInt n)
  | .boolean => s.integer?.map fun n => .bool (n != 0)
  | .float => s.real?.map .float
  | .decimal => s.real?.map .float
  | .binary => s.bytes?.map .bytes
  | .date => (s.text?.bind Date.ofText?).map .date
  | .time => (s.text?.bind Time.ofLocalText?).map .time
  | .timestamp => s.timestamp?.map .timestamp
  | .json => s.text?.map jsonOrText
  | _ => none

/- The value that is read from a column of a type. -/
def valueIn
    (t : ColumnType)
    (s : Stored) : Value :=
  (ofCategory? t.category s).getD s.value

end Stored

end Failover
