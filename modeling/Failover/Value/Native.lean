import Failover.Value.Conversion

/-
  The values of native types: what a whole number, a text or a
  time becomes when it is carried as a value.

  Key definitions include:
    * `IntegerType.toValue`
    * `Target.toValue`
-/

namespace Failover

/-
  A whole number of a type as a value.  Of all types only the
  greatest words hold what does not fit a signed word.
-/
def IntegerType.toValue (w : IntegerType) (n : Int) : Value :=
  match w with
  | .word64 => .ofWord (UInt64.ofNat n.toNat)
  | .wordSize => .ofWord (UInt64.ofNat n.toNat)
  | _ => .int (Int64.ofInt n)

/-
  What a type carries as a value.  A number of 32 bits is one
  of 64 bits too, and what is missing is NULL.
-/
def Target.toValue : (t : Target) → t.Carrier → Value
  | .integer w, n => w.toValue n
  | .double, x => .float x
  | .single, x => .float (Floating.Format.double.convert x)
  | .bool, b => .bool b
  | .text, s => .text s
  | .bytes, bs => .bytes bs
  | .uuid, u => .uuid u
  | .timestamp, t => .timestamp t
  | .moment, t => .moment t
  | .date, t => .date t
  | .time, t => .time t
  | .json, j => .json j
  | .value, v => v
  | .optional t, a => .ofOption t.toValue a

end Failover
