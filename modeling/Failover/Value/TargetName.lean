import Failover.Value.Conversion

/-
  The names of the types that a caller may ask for.  What may
  be missing has `opt:` in front.

  Key definitions include:
    * `Target.name`
    * `Target.ofName?`
-/

namespace Failover

def IntegerType.all : List IntegerType :=
  [.int8, .int16, .int32, .int64, .intSize, .word8, .word16,
    .word32, .word64, .wordSize]

namespace Target

def name : Target → String
  | .integer w => w.name
  | .double => "f64"
  | .single => "f32"
  | .bool => "bool"
  | .text => "string"
  | .bytes => "bytes"
  | .uuid => "uuid"
  | .timestamp => "timestamp"
  | .moment => "timestamptz"
  | .date => "date"
  | .time => "time"
  | .json => "json"
  | .value => "dbvalue"
  | .optional t => "opt:" ++ t.name

/- The types that are not optional. -/
def plain : List Target :=
  IntegerType.all.map .integer ++
    [.double, .single, .bool, .text, .bytes, .uuid, .timestamp,
      .moment, .date, .time, .json, .value]

def ofChars? : List Char → Option Target
  | 'o' :: 'p' :: 't' :: ':' :: r => (ofChars? r).map .optional
  | cs => plain.find? fun t => t.name == String.ofList cs

/- The type of a name. -/
def ofName? (s : String) : Option Target :=
  ofChars? s.toList

end Target

end Failover
