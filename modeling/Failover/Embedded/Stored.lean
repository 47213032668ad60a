import Failover.Binding.Engine

/-
  What the embedded engine stores.  Each value has a class
  of its own, whatever column it stands in; dates and times
  are texts.

  Key definitions include:
    * `Stored`
    * `Stored.className`
    * `Stored.ofReal`
    * `Stored.ofCarrier`, `NativeArgument.stored`
    * `Stored.value`
-/

namespace Failover

inductive Stored where
  | null
  | integer (n : Int)
  | real (x : Floating)
  | text (s : String)
  | blob (bs : Bytes)
deriving DecidableEq, Repr, Inhabited

namespace Stored

/- The name of a value's class. -/
def className : Stored → String
  | .null => "null"
  | .integer _ => "integer"
  | .real _ => "real"
  | .text _ => "text"
  | .blob _ => "blob"

------------------------------------------------------------
-- Storing
------------------------------------------------------------

/- No number at all is stored as NULL. -/
def ofReal : Floating → Stored
  | .nan => .null
  | x => .real x

/- How a native value is stored. -/
def ofCarrier : (t : Target) → t.Carrier → Stored
  | .integer _, n => .integer n
  | .double, x => ofReal x
  | .single, x => ofReal x
  | .bool, b => .integer (if b then 1 else 0)
  | .text, s => .text s
  | .bytes, bs => .blob bs
  | .uuid, u => .text u.write
  | .timestamp, t => .text t.write
  | .moment, t => .text t.writeUtc
  | .date, t => .text t.write
  | .time, t => .text t.write
  | .json, j => .text j.render
  | .value, v => .text v.toText
  | .optional _, none => .null
  | .optional t, some a => ofCarrier t a

end Stored

/- How a native argument is stored. -/
def NativeArgument.stored (a : NativeArgument) : Stored :=
  Stored.ofCarrier (.optional a.target) a.content

namespace Stored

------------------------------------------------------------
-- Reading back
------------------------------------------------------------

/- The value of a class, for a column of no known type. -/
def value : Stored → Value
  | .null => .null
  | .integer n => .int (Int64.ofInt n)
  | .real x => .float x
  | .text s => .text s
  | .blob bs => .bytes bs

end Stored

end Failover
