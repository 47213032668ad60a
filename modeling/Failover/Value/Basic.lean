import Failover.Calendar.Timestamp
import Failover.Json.Basic
import Failover.Uuid

/-
  Values that parameters carry into a database engine and
  that rows carry out of one, whatever the engine.

  Key definitions include:
    * `Value`
    * `Value.typeName`
    * `Value.isNull`
    * `Value.ofWord`, `Value.ofOption`
-/

namespace Failover

/-
  Unsigned words hold what does not fit a signed word, and
  exact numbers stay in the text of the database.
-/
inductive Value where
  | null
  | bool (b : Bool)
  | int (n : Int64)
  | uint (n : UInt64)
  | float (x : Floating)
  | decimal (s : String)
  | text (s : String)
  | bytes (bs : Bytes)
  | json (j : Json)
  | uuid (u : Uuid)
  | date (t : Date)
  | time (t : Time)
  | timestamp (t : Timestamp)
  | moment (t : Timestamp)
deriving Repr, Inhabited

namespace Value

/- The name of a value's type in messages. -/
def typeName : Value → String
  | .null => "null"
  | .bool _ => "bool"
  | .int _ => "int"
  | .uint _ => "uint"
  | .float _ => "float"
  | .decimal _ => "decimal"
  | .text _ => "text"
  | .bytes _ => "bytes"
  | .json _ => "json"
  | .uuid _ => "uuid"
  | .date _ => "date"
  | .time _ => "time"
  | .timestamp _ => "timestamp"
  | .moment _ => "timestamptz"

def isNull : Value → Bool
  | .null => true
  | _ => false

/-
  The value of an unsigned word: a signed word where it fits.
-/
def ofWord (n : UInt64) : Value :=
  if n.toNat < Int64.size / 2 then .int (Int64.ofNat n.toNat)
  else .uint n

/- The value of something that may be missing. -/
def ofOption
    {α : Type}
    (f : α → Value) : Option α → Value
  | some a => f a
  | none => .null

end Value

end Failover
