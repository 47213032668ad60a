import Failover.Binding.MySql
import Failover.Binding.Postgres
import Failover.Binding.Sqlite
import Failover.Failure

/-
  Binding to any built-in engine, and the native values
  that arguments are sent as.

  Key definitions include:
    * `Engine.bind`
    * `Engine.bindFor`
    * `Engine.argumentTarget`
    * `NativeArgument`, `Argument.native`
    * `Engine.wireName`
-/

namespace Failover

namespace Engine

/- The bound form of a command. -/
def bind
    (e : Engine)
    (c : Command) : Except BindingError BoundCommand :=
  match e with
  | .postgres => Postgres.bind c
  | .mysql => MySql.bind c
  | .sqlite => Sqlite.bind c

/- The bound form of a command at a repository. -/
def bindFor
    (e : Engine)
    (repository : String)
    (c : Command) : Except Failure BoundCommand :=
  (e.bind c).mapError fun cause =>
    .commandBinding repository cause.message

------------------------------------------------------------
-- Arguments
------------------------------------------------------------

/-
  The native type of an argument.  MySQL takes a whole number
  past the signed range as an unsigned one.
-/
def argumentTarget
    (e : Engine)
    (a : Argument) : Target :=
  match a.type, e with
  | .boolean, _ => .bool
  | .tinyInt, .postgres => .integer .int16
  | .tinyInt, .mysql => .integer .int8
  | .smallInt, .postgres => .integer .int16
  | .smallInt, .mysql => .integer .int16
  | .int, .postgres => .integer .int32
  | .int, .mysql => .integer .int32
  | .bigInt, .mysql =>
      match a.value with
      | .uint n =>
          if n.toNat < Int64.size / 2 then .integer .int64
          else .integer .word64
      | _ => .integer .int64
  | .tinyInt, .sqlite => .integer .int64
  | .smallInt, .sqlite => .integer .int64
  | .int, .sqlite => .integer .int64
  | .bigInt, _ => .integer .int64
  | .real, .sqlite => .double
  | .real, _ => .single
  | .float, _ => .double
  | .binary, _ => .bytes
  | .varBinary, _ => .bytes
  | .image, _ => .bytes
  | .date, _ => .date
  | .time, _ => .time
  | .dateTime, _ => .timestamp
  | .dateTime2, _ => .timestamp
  | .smallDateTime, _ => .timestamp
  | .timestamp, _ => .timestamp
  | .dateTimeOffset, _ => .moment
  | .guid, .postgres => .uuid
  | .json, .postgres => .json
  | _, _ => .text

end Engine

/- A value of a native type, or NULL of that type. -/
structure NativeArgument where
  target : Target
  content : Option target.Carrier

/- The native value of an argument. -/
def Argument.native
    (e : Engine)
    (a : Argument) :
    Except ConversionError NativeArgument :=
  let t := e.argumentTarget a
  ((Target.optional t).convert a.value).map fun content =>
    ⟨t, content⟩

namespace Engine

/- The names of PostgreSQL's wire types. -/
def postgresWire : Target → String
  | .bool => "Bool"
  | .integer .int16 => "Int2"
  | .integer .int32 => "Int4"
  | .integer _ => "Int8"
  | .single => "Float4"
  | .double => "Float8"
  | .bytes => "Bytea"
  | .date => "Date"
  | .time => "Time"
  | .timestamp => "Timestamp"
  | .moment => "Timestamptz"
  | .uuid => "Uuid"
  | .json => "Jsonb"
  | _ => "Text"

/- The names of MySQL's wire types. -/
def mySqlWire : Target → String
  | .bool => "Tiny"
  | .integer .int8 => "Tiny"
  | .integer .int16 => "Short"
  | .integer .int32 => "Long"
  | .integer _ => "LongLong"
  | .single => "Float"
  | .double => "Double"
  | .bytes => "Blob"
  | .date => "Date"
  | .time => "Time"
  | .timestamp => "Datetime"
  | .moment => "Timestamp"
  | _ => "VarString"

/- The names of SQLite's wire types. -/
def sqliteWire : Target → String
  | .bool => "Int"
  | .integer _ => "Int64"
  | .double => "Double"
  | .bytes => "Blob"
  | _ => "Text"

/- The wire type of a native argument. -/
def wireName
    (e : Engine)
    (a : NativeArgument) : String :=
  match e with
  | .postgres => postgresWire a.target
  | .mysql => mySqlWire a.target
  | .sqlite =>
      if a.content.isNone then "Null"
      else sqliteWire a.target

end Engine

end Failover
