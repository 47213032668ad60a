import Failover.Config.Basic
import Failover.Text.Blank
import Failover.Url.Form
import Failover.Url.Parse

/-
  Repositories in one line: a name, an equals sign and a URL.
  Some options are taken from the query of the URL; the rest
  of the query stays for the driver.

  Key definitions include:
    * `Config.ShorthandError`
    * `Config.optionKeys`
    * `Config.splitQuery`
    * `Config.Repository.ofUrl`
    * `Config.Repository.ofLine`
    * `Config.Repository.ofShorthand`
-/

namespace Failover

namespace Config

/- Why a line is no repository. -/
inductive ShorthandError where
  | noName (line : String)
  | emptyName
  | url (cause : Url.ParseError)
  | pool (cause : Pool.Error)
  | sequence (text : String)
deriving DecidableEq, Repr

def ShorthandError.message : ShorthandError → String
  | .noName line =>
      "Expected 'name=connection_string', got '" ++ line ++ "'"
  | .emptyName => "Repository name cannot be empty"
  | .url cause => "Invalid URL: " ++ cause.message
  | .pool cause => cause.message
  | .sequence text => "Invalid sequence '" ++ text ++ "'"

------------------------------------------------------------
-- Options
------------------------------------------------------------

/- The keys of the options that a query may hold. -/
def optionKeys : List String :=
  ["max_connections", "min_connections", "idle_timeout",
    "acquire_timeout", "test_before_acquire", "schema",
    "engine", "sequence", "enabled"]

/- The pair is an option, in any ASCII case. -/
def isOption (p : String × String) : Bool :=
  optionKeys.contains (Text.fold p.1)

/- The options of a query and the pairs that stay. -/
def splitQuery
    (query : Option (List Char)) :
    List (String × String) × List (String × String) :=
  (Form.pairs (query.getD [])).partition isOption

/- The last option of a key counts. -/
def option?
    (options : List (String × String))
    (key : String) : Option String :=
  (options.reverse.find? fun p => Text.fold p.1 == key).map
    (·.2)

/- A whole number without a minus sign, up to a greatest. -/
def natural?
    (greatest : Nat)
    (s : String) : Option Nat :=
  let digits :=
    match s.toList with
    | '+' :: r => r
    | cs => cs
  (Decimal.natural? digits).bind fun n =>
    if n ≤ greatest then some n else none

/- A number of 32 bits with a sign. -/
def int32? (s : String) : Option Int :=
  (Decimal.integer? s.toList).bind fun n =>
    if Int32.minValue.toInt ≤ n ∧ n ≤ Int32.maxValue.toInt
    then some n else none

/- A truth value by its name. -/
def bool? (s : String) : Option Bool :=
  if Text.sameName s "true" then some true
  else if Text.sameName s "false" then some false
  else none

/- Options of a pool that cannot be read do not count. -/
def poolOfOptions
    (options : List (String × String)) : Pool :=
  let number (key : String) (greatest : Nat) :=
    (option? options key).bind (natural? greatest)
  { maxConnections := number "max_connections" (UInt32.size - 1)
    minConnections := number "min_connections" (UInt32.size - 1)
    idleTimeout := number "idle_timeout" (UInt64.size - 1)
    acquireTimeout := number "acquire_timeout" (UInt64.size - 1)
    testBeforeAcquire :=
      (option? options "test_before_acquire").bind bool? }

/- The place in the order, which has to be a number. -/
def sequenceOfOptions
    (options : List (String × String)) :
    Except ShorthandError Int :=
  match option? options "sequence" with
  | none => .ok 0
  | some s =>
      match int32? s with
      | some n => .ok n
      | none => .error (.sequence s)

------------------------------------------------------------
-- Lines
------------------------------------------------------------

/-
  The name and the URL of a line: the equals sign between
  them stands before the first colon.
-/
def splitLine
    (line : String) :
    Except ShorthandError (String × String) :=
  let beforeColon := line.toList.takeWhile (· != ':')
  let name := beforeColon.takeWhile (· != '=')
  if beforeColon.contains '=' then
    .ok (Text.trim (String.ofList name),
      String.ofList (line.toList.drop (name.length + 1)))
  else .error (.noName line)

/- The URL without its options. -/
def urlWithout
    (u : Url)
    (rest : List (String × String)) : Url :=
  u.withQuery
    (if rest.isEmpty then none else some (Form.write rest))

/- The repository of a name and a URL at a place in the order. -/
def Repository.ofUrl
    (name : String)
    (u : Url)
    (sequence : Int) : Repository :=
  let (options, rest) := splitQuery u.query
  { name
    engine := option? options "engine"
    connectionString := (urlWithout u rest).write
    schema :=
      match option? options "schema" with
      | some s => if s.isEmpty then none else some s
      | none => none
    enabled :=
      match option? options "enabled" with
      | some s => !Text.sameName s "false"
      | none => true
    sequence
    pool := poolOfOptions options }

/- The repository of a line whose URL is read by `read`. -/
def Repository.ofLine
    (read : String → Except Url.ParseError Url)
    (line : String) : Except ShorthandError Repository := do
  let (name, text) ← splitLine line
  if name.isEmpty then throw .emptyName
  let u ← (read text).mapError .url
  let options := (splitQuery u.query).1
  (poolOfOptions options).validate.mapError .pool
  let sequence ← sequenceOfOptions options
  return ofUrl name u sequence

/- The repository of a line. -/
def Repository.ofShorthand
    (line : String) : Except ShorthandError Repository :=
  ofLine Url.ofText line

end Config

end Failover
