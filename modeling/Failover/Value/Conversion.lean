import Failover.Calendar.Reading
import Failover.Json.Reader
import Failover.Value.Text

/-
  Converting a value into the type that a caller asks for.
  NULL becomes the default of the type; numbers, truth values
  and text become each other where the value fits; all else
  is refused with a cause.

  Key definitions include:
    * `IntegerType`
    * `Target`, `Target.Carrier`
    * `ConversionError`, `ConversionError.message`
    * `Value.wideInteger?`
    * `Target.ofPresent`
    * `Target.convert`
-/

namespace Failover

------------------------------------------------------------
-- Targets
------------------------------------------------------------

/- The types of whole numbers; sizes have 64 bits. -/
inductive IntegerType where
  | int8
  | int16
  | int32
  | int64
  | intSize
  | word8
  | word16
  | word32
  | word64
  | wordSize
deriving DecidableEq, Repr

namespace IntegerType

def name : IntegerType → String
  | .int8 => "i8"
  | .int16 => "i16"
  | .int32 => "i32"
  | .int64 => "i64"
  | .intSize => "isize"
  | .word8 => "u8"
  | .word16 => "u16"
  | .word32 => "u32"
  | .word64 => "u64"
  | .wordSize => "usize"

/- The least number of a type. -/
def least : IntegerType → Int
  | .int8 => Int8.minValue.toInt
  | .int16 => Int16.minValue.toInt
  | .int32 => Int32.minValue.toInt
  | .int64 => Int64.minValue.toInt
  | .intSize => Int64.minValue.toInt
  | _ => 0

/- The greatest number of a type. -/
def greatest : IntegerType → Int
  | .int8 => Int8.maxValue.toInt
  | .int16 => Int16.maxValue.toInt
  | .int32 => Int32.maxValue.toInt
  | .int64 => Int64.maxValue.toInt
  | .intSize => Int64.maxValue.toInt
  | .word8 => UInt8.size - 1
  | .word16 => UInt16.size - 1
  | .word32 => UInt32.size - 1
  | .word64 => UInt64.size - 1
  | .wordSize => UInt64.size - 1

end IntegerType

/- The types that a caller may ask for. -/
inductive Target where
  | integer (w : IntegerType)
  | double
  | single
  | bool
  | text
  | bytes
  | uuid
  | timestamp
  | moment
  | date
  | time
  | json
  | value
  | optional (t : Target)
deriving DecidableEq, Repr

/- What a conversion to a type gives. -/
abbrev Target.Carrier : Target → Type
  | .integer _ => Int
  | .double => Floating
  | .single => Floating
  | .bool => Bool
  | .text => String
  | .bytes => Bytes
  | .uuid => Uuid
  | .timestamp => Timestamp
  | .moment => Timestamp
  | .date => Date
  | .time => Time
  | .json => Json
  | .value => Value
  | .optional t => Option t.Carrier

------------------------------------------------------------
-- Causes
------------------------------------------------------------

/- Why a value does not become a type. -/
inductive ConversionError where
  | mismatch (value : Value) (target : String)
  | outOfRange (number : Int) (target : String)
deriving Repr

def ConversionError.message : ConversionError → String
  | .mismatch v target =>
      "cannot convert " ++ v.typeName ++ " value '" ++
        v.toText ++ "' to " ++ target
  | .outOfRange n target =>
      "value " ++ Decimal.render n ++
        " is out of range for " ++ target

------------------------------------------------------------
-- Numbers
------------------------------------------------------------

namespace Value

/- The trimmed text of a textual value. -/
def trimmed? : Value → Option String
  | .text s => some (Text.trim s)
  | .decimal s => some (Text.trim s)
  | _ => none

/- The least and the greatest number of 128 bits. -/
def leastWide : Int := -0x80000000000000000000000000000000

def greatestWide : Int := 0x7fffffffffffffffffffffffffffffff

/-
  The whole number of 128 bits that is nearest to a floating
  number, a tie going away from zero.  What is out of range
  becomes an end of the range, and no number becomes zero.
-/
def wideOfFloating : Floating → Int
  | .nan => 0
  | .infinite negative =>
      if negative then leastWide else greatestWide
  | x => max leastWide (min greatestWide x.roundHalfAway)

/-
  The whole number that a text denotes: a whole numeral of
  128 bits, or else a floating number rounded.
-/
def wideOfText? (s : String) : Option Int :=
  match Decimal.integer? s.toList with
  | some n =>
      if leastWide ≤ n ∧ n ≤ greatestWide then some n
      else (Floating.ofText? .double s).map wideOfFloating
  | none =>
      (Floating.ofText? .double s).map wideOfFloating

/- The whole number that a value denotes. -/
def wideInteger? : Value → Option Int
  | .int n => some n.toInt
  | .uint n => some n.toNat
  | .bool b => some (if b then 1 else 0)
  | .float x =>
      if x.isFinite then some (wideOfFloating x) else none
  | v => v.trimmed?.bind wideOfText?

/- The floating number that a value denotes. -/
def double? : Value → Option Floating
  | .float x => some x
  | .int n => some (Floating.Format.double.ofInt n.toInt)
  | .uint n => some (Floating.Format.double.ofInt n.toNat)
  | .bool b =>
      some (Floating.Format.double.ofInt (if b then 1 else 0))
  | v => v.trimmed?.bind (Floating.ofText? .double)

/- The truth value of a word, in any ASCII case. -/
def boolOfText? (s : String) : Option Bool :=
  let w := Text.fold s
  if ["true", "t", "yes", "y", "1"].contains w then
    some true
  else if ["false", "f", "no", "n", "0"].contains w then
    some false
  else none

/- The truth value that a value denotes. -/
def bool? : Value → Option Bool
  | .bool b => some b
  | .int n => some (n != 0)
  | .uint n => some (n != 0)
  | .float x => some (!x.isZero)
  | v => v.trimmed?.bind boolOfText?

------------------------------------------------------------
-- Bytes and times
------------------------------------------------------------

def bytes? : Value → Option Bytes
  | .bytes bs => some bs
  | .text s => some (Utf8.encode s)
  | .uuid u => some u.bytes
  | _ => none

def uuid? : Value → Option Uuid
  | .uuid u => some u
  | .text s => Uuid.ofText? (Text.trim s)
  | .bytes bs => Uuid.ofBytes? bs
  | _ => none

/- The local reading; a date stands for its beginning. -/
def timestamp? : Value → Option Timestamp
  | .timestamp t => some t
  | .moment t => some t
  | .date t => some ⟨t, Time.midnight⟩
  | .text s => Timestamp.ofText? (Text.trim s)
  | _ => none

/- The moment; a reading without offset is in UTC. -/
def moment? : Value → Option Timestamp
  | .moment t => some t
  | .timestamp t => some t
  | .text s => Timestamp.utcOfText? (Text.trim s)
  | _ => none

def date? : Value → Option Date
  | .date t => some t
  | .timestamp t => some t.date
  | .moment t => some t.date
  | .text s => Date.ofText? (Text.trim s)
  | _ => none

def time? : Value → Option Time
  | .time t => some t
  | .timestamp t => some t.time
  | .text s => Time.ofText? (Text.trim s)
  | _ => none

/- A text that is JSON stands for its value. -/
def jsonOf : Value → Json
  | .text s => (Json.ofText? s).getD (.string s)
  | v => v.toJson

/- The value found, or the mismatch with a named type. -/
def require
    {α : Type}
    (v : Value)
    (target : String) :
    Option α → Except ConversionError α
  | some a => .ok a
  | none => .error (.mismatch v target)

/- The whole number of a type that a value denotes. -/
def integer
    (w : IntegerType)
    (v : Value) : Except ConversionError Int :=
  match v.wideInteger? with
  | none => .error (.mismatch v w.name)
  | some n =>
      if w.least ≤ n ∧ n ≤ w.greatest then .ok n
      else .error (.outOfRange n w.name)

end Value

------------------------------------------------------------
-- Conversion
------------------------------------------------------------

namespace Target

/- What NULL becomes: the default of the type. -/
def ofNull : (t : Target) → t.Carrier
  | .integer _ => (0 : Int)
  | .double => Floating.zero
  | .single => Floating.zero
  | .bool => false
  | .text => ""
  | .bytes => ([] : Bytes)
  | .uuid => Uuid.nil
  | .timestamp => Timestamp.epoch
  | .moment => Timestamp.epoch
  | .date => Date.epoch
  | .time => Time.midnight
  | .json => Json.null
  | .value => Value.null
  | .optional _ => none

/- What a value other than NULL becomes. -/
def ofPresent :
    (t : Target) → Value → Except ConversionError t.Carrier
  | .integer w, v => v.integer w
  | .double, v => v.require "f64" v.double?
  | .single, v =>
      (v.require "f64" v.double?).map
        Floating.Format.single.convert
  | .bool, v => v.require "bool" v.bool?
  | .text, v => .ok v.toText
  | .bytes, v => v.require "bytes" v.bytes?
  | .uuid, v => v.require "uuid" v.uuid?
  | .timestamp, v => v.require "timestamp" v.timestamp?
  | .moment, v => v.require "timestamptz" v.moment?
  | .date, v => v.require "date" v.date?
  | .time, v => v.require "time" v.time?
  | .json, v => .ok v.jsonOf
  | .value, v => .ok v
  | .optional t, v => (t.ofPresent v).map some

/- A value converted to a type. -/
def convert
    (t : Target)
    (v : Value) : Except ConversionError t.Carrier :=
  if v.isNull then .ok t.ofNull else t.ofPresent v

end Target

end Failover
