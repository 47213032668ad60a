import Failover.Command.DeclaredType
import Failover.Engine

/-
  The engines' own names for declared types.  A type without
  a closer match is a text of variable length.

  Key definitions include:
    * `DeclaredType.inPostgres`
    * `DeclaredType.inMySql`
    * `DeclaredType.inSqlite`
    * `DeclaredType.native`
-/

namespace Failover

namespace DeclaredType

def inPostgres : DeclaredType → String
  | .boolean => "boolean"
  | .tinyInt => "smallint"
  | .smallInt => "smallint"
  | .int => "integer"
  | .bigInt => "bigint"
  | .decimal => "numeric"
  | .money => "numeric"
  | .real => "real"
  | .float => "double precision"
  | .char => "bpchar"
  | .nChar => "bpchar"
  | .text => "text"
  | .nText => "text"
  | .binary => "bytea"
  | .varBinary => "bytea"
  | .image => "bytea"
  | .date => "date"
  | .time => "time"
  | .dateTime => "timestamp"
  | .dateTime2 => "timestamp"
  | .smallDateTime => "timestamp"
  | .timestamp => "timestamp"
  | .dateTimeOffset => "timestamptz"
  | .guid => "uuid"
  | .json => "jsonb"
  | .xml => "xml"
  | .varChar => "varchar"
  | .nVarChar => "varchar"
  | .variant => "varchar"

/- The targets of a cast in MySQL. -/
def inMySql : DeclaredType → String
  | .boolean => "SIGNED"
  | .tinyInt => "SIGNED"
  | .smallInt => "SIGNED"
  | .int => "SIGNED"
  | .bigInt => "SIGNED"
  | .decimal => "DECIMAL(65,30)"
  | .money => "DECIMAL(65,30)"
  | .real => "DOUBLE"
  | .float => "DOUBLE"
  | .binary => "BINARY"
  | .varBinary => "BINARY"
  | .image => "BINARY"
  | .date => "DATE"
  | .time => "TIME"
  | .dateTime => "DATETIME(6)"
  | .dateTime2 => "DATETIME(6)"
  | .smallDateTime => "DATETIME(6)"
  | .timestamp => "DATETIME(6)"
  | .dateTimeOffset => "DATETIME(6)"
  | .json => "JSON"
  | _ => "CHAR"

def inSqlite : DeclaredType → String
  | .boolean => "INTEGER"
  | .tinyInt => "INTEGER"
  | .smallInt => "INTEGER"
  | .int => "INTEGER"
  | .bigInt => "INTEGER"
  | .real => "REAL"
  | .float => "REAL"
  | .decimal => "NUMERIC"
  | .money => "NUMERIC"
  | .binary => "BLOB"
  | .varBinary => "BLOB"
  | .image => "BLOB"
  | _ => "TEXT"

/- The name of a type for an engine. -/
def native
    (e : Engine)
    (t : DeclaredType) : String :=
  match e with
  | .postgres => t.inPostgres
  | .mysql => t.inMySql
  | .sqlite => t.inSqlite

end DeclaredType

end Failover
