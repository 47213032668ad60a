import Failover.Value.Basic

/-
  The types that a parameter may be declared with, whatever
  the engine.

  Key definitions include:
    * `DeclaredType`
    * `DeclaredType.name`, `DeclaredType.ofName?`
    * `DeclaredType.infer`
    * `DeclaredType.isInteger`, `DeclaredType.isBinary`
-/

namespace Failover

inductive DeclaredType where
  | boolean
  | tinyInt
  | smallInt
  | int
  | bigInt
  | decimal
  | money
  | real
  | float
  | char
  | nChar
  | varChar
  | nVarChar
  | text
  | nText
  | binary
  | varBinary
  | image
  | date
  | time
  | dateTime
  | dateTime2
  | smallDateTime
  | dateTimeOffset
  | timestamp
  | guid
  | json
  | xml
  | variant
deriving DecidableEq, Repr, Inhabited

namespace DeclaredType

/- Every declared type. -/
def all : List DeclaredType :=
  [.boolean, .tinyInt, .smallInt, .int, .bigInt, .decimal,
    .money, .real, .float, .char, .nChar, .varChar,
    .nVarChar, .text, .nText, .binary, .varBinary, .image,
    .date, .time, .dateTime, .dateTime2, .smallDateTime,
    .dateTimeOffset, .timestamp, .guid, .json, .xml,
    .variant]

def name : DeclaredType → String
  | .boolean => "boolean"
  | .tinyInt => "tinyInt"
  | .smallInt => "smallInt"
  | .int => "int"
  | .bigInt => "bigInt"
  | .decimal => "decimal"
  | .money => "money"
  | .real => "real"
  | .float => "float"
  | .char => "char"
  | .nChar => "nChar"
  | .varChar => "varChar"
  | .nVarChar => "nVarChar"
  | .text => "text"
  | .nText => "nText"
  | .binary => "binary"
  | .varBinary => "varBinary"
  | .image => "image"
  | .date => "date"
  | .time => "time"
  | .dateTime => "dateTime"
  | .dateTime2 => "dateTime2"
  | .smallDateTime => "smallDateTime"
  | .dateTimeOffset => "dateTimeOffset"
  | .timestamp => "timestamp"
  | .guid => "guid"
  | .json => "json"
  | .xml => "xml"
  | .variant => "variant"

/- The type of a name. -/
def ofName? (s : String) : Option DeclaredType :=
  all.find? (·.name == s)

/- The type that is declared for a plain value. -/
def infer : Value → DeclaredType
  | .null => .varChar
  | .text _ => .varChar
  | .bool _ => .boolean
  | .int _ => .bigInt
  | .uint _ => .bigInt
  | .float _ => .float
  | .decimal _ => .decimal
  | .bytes _ => .varBinary
  | .json _ => .json
  | .uuid _ => .guid
  | .date _ => .date
  | .time _ => .time
  | .timestamp _ => .dateTime
  | .moment _ => .dateTimeOffset

/- Truth values count as whole numbers here. -/
def isInteger : DeclaredType → Bool
  | .boolean => true
  | .tinyInt => true
  | .smallInt => true
  | .int => true
  | .bigInt => true
  | _ => false

def isBinary : DeclaredType → Bool
  | .binary => true
  | .varBinary => true
  | .image => true
  | _ => false

end DeclaredType

end Failover
