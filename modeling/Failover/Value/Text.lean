import Failover.Json.Printer
import Failover.Text.Base64
import Failover.Value.Basic

/-
  The JSON form and the plain text of a value.

  Key definitions include:
    * `Value.toJson`
    * `Value.toText`
-/

namespace Failover

namespace Value

/-
  The JSON form of a value.  Bytes are in base 64, and a
  floating number that JSON has no numeral for is its text.
-/
def toJson : Value → Json
  | .null => .null
  | .bool b => .bool b
  | .int n => .integer n.toInt
  | .uint n => .integer n.toNat
  | .float x =>
      if x.isFinite then .float x
      else .string (x.plain .double)
  | .decimal s => .string s
  | .text s => .string s
  | .bytes bs => .string (Base64.encode bs)
  | .json j => j
  | .uuid u => .string u.write
  | .date t => .string t.write
  | .time t => .string t.write
  | .timestamp t => .string t.write
  | .moment t => .string t.writeUtc

/-
  The plain text of a value.  Bytes that are well-formed text
  stand for it, and other bytes are in base 64.
-/
def toText : Value → String
  | .null => "NULL"
  | .bool b => if b then "true" else "false"
  | .int n => Decimal.render n.toInt
  | .uint n => Decimal.render n.toNat
  | .float x => x.plain .double
  | .decimal s => s
  | .text s => s
  | .bytes bs => (Utf8.decode? bs).getD (Base64.encode bs)
  | .json j => j.render
  | .uuid u => u.write
  | .date t => t.write
  | .time t => t.write
  | .timestamp t => t.write
  | .moment t => t.writeUtc

end Value

end Failover
