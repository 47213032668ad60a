import Failover.Config.Basic
import Failover.Json.Printer
import Failover.Json.Reader

/-
  Configurations as JSON documents.  A record is an object
  with its fields as members, or an array of its fields in
  order; members that are not known do not count, and one
  that is known may occur once.

  Key definitions include:
    * `Config.Record`, `Config.Record.ofDocument?`
    * `Config.ofDocument?`
    * `Config.ofText?`
    * `Config.toJson`
-/

namespace Failover

namespace Config

open Json (Document)

------------------------------------------------------------
-- Plain values
------------------------------------------------------------

def readString? : Document → Option String
  | .string s => s
  | _ => none

def readBool? : Document → Option Bool
  | .bool b => some b
  | _ => none

/- A whole number within bounds, written as such. -/
def readInteger?
    (least greatest : Int) : Document → Option Int
  | .number n =>
      n.whole?.bind fun k =>
        if least ≤ k ∧ k ≤ greatest then some k else none
  | _ => none

/- A number of 32 bits without a sign. -/
def readWord32? (d : Document) : Option Nat :=
  (readInteger? 0 (UInt32.size - 1) d).map (·.toNat)

/- A number of 64 bits without a sign. -/
def readWord64? (d : Document) : Option Nat :=
  (readInteger? 0 (UInt64.size - 1) d).map (·.toNat)

/- A number of 32 bits with a sign. -/
def readInt32? (d : Document) : Option Int :=
  readInteger? Int32.minValue.toInt Int32.maxValue.toInt d

/- A value that may be null. -/
def readOptional?
    {α : Type}
    (f : Document → Option α) : Document → Option (Option α)
  | .null => some none
  | d => (f d).map some

def readList?
    {α : Type}
    (f : Document → Option α) : Document → Option (List α)
  | .array items => items.mapM f
  | _ => none

------------------------------------------------------------
-- Records
------------------------------------------------------------

/-
  The fields of a record that are there, by place.  In an
  array every field without a default has to be there.
-/
structure Record where
  fields : List (Option Document)
  isArray : Bool

namespace Record

/- The member of a name, if the name occurs at most once. -/
def member?
    (members : List (Option String × Document))
    (name : String) : Option (Option Document) :=
  match members.filter fun m => m.1 == some name with
  | [] => some none
  | [m] => some (some m.2)
  | _ => none

/- The record of some field names in a document. -/
def ofDocument?
    (names : List String) : Document → Option Record
  | .array items =>
      if names.length < items.length then none
      else some ⟨items.map some, true⟩
  | .object members =>
      if members.any fun m => m.1.isNone then none
      else
        (names.mapM (member? members)).map fun fields =>
          ⟨fields, false⟩
  | _ => none

def field?
    (r : Record)
    (i : Nat) : Option Document :=
  (r.fields[i]?).join

/- A field that has to be there. -/
def require?
    {α : Type}
    (r : Record)
    (i : Nat)
    (f : Document → Option α) : Option α :=
  (r.field? i).bind f

/- A field with a default. -/
def orDefault?
    {α : Type}
    (r : Record)
    (i : Nat)
    (f : Document → Option α)
    (default : α) : Option α :=
  match r.field? i with
  | some d => f d
  | none => some default

/- A field that an object may leave out. -/
def nullable?
    {α : Type}
    (r : Record)
    (i : Nat)
    (f : Document → Option α) : Option (Option α) :=
  match r.field? i with
  | some d => readOptional? f d
  | none => if r.isArray then none else some none

end Record

------------------------------------------------------------
-- Reading
------------------------------------------------------------

def readPool? (d : Document) : Option Pool := do
  let r ← Record.ofDocument?
    ["maxConnections", "minConnections", "idleTimeoutSecs",
      "acquireTimeoutSecs", "testBeforeAcquire"] d
  return {
    maxConnections := ← r.nullable? 0 readWord32?
    minConnections := ← r.nullable? 1 readWord32?
    idleTimeout := ← r.nullable? 2 readWord64?
    acquireTimeout := ← r.nullable? 3 readWord64?
    testBeforeAcquire := ← r.nullable? 4 readBool? }

def readRepository? (d : Document) : Option Repository := do
  let r ← Record.ofDocument?
    ["name", "engine", "connectionString", "schema",
      "enabled", "sequence", "pool"] d
  return {
    name := ← r.require? 0 readString?
    engine :=
      ← r.orDefault? 1 (readOptional? readString?) none
    connectionString := ← r.require? 2 readString?
    schema :=
      ← r.orDefault? 3 (readOptional? readString?) none
    enabled := ← r.orDefault? 4 readBool? true
    sequence := ← r.orDefault? 5 readInt32? 0
    pool := ← r.orDefault? 6 readPool? {} }

def readCluster? (d : Document) : Option Cluster := do
  let r ← Record.ofDocument?
    ["name", "databases", "sequence", "enabled",
      "fallbackPolicy"] d
  return {
    name := ← r.require? 0 readString?
    databases := ← r.require? 1 (readList? readString?)
    sequence := ← r.orDefault? 2 readInt32? 0
    enabled := ← r.orDefault? 3 readBool? true
    fallbackPolicy :=
      ← r.orDefault? 4 readString? "default" }

/- A kind by its name, or as the name of a single null. -/
def readPolicyKind? : Document → Option PolicyKind
  | .string (some s) =>
      PolicyKind.all.find? fun k => k.name == s
  | .object [(some s, .null)] =>
      PolicyKind.all.find? fun k => k.name == s
  | _ => none

def readPolicy? (d : Document) : Option Policy := do
  let r ← Record.ofDocument?
    ["name", "kind", "failureThreshold", "cooldownSecs",
      "maxAttempts"] d
  return {
    name := ← r.require? 0 readString?
    kind := ← r.orDefault? 1 readPolicyKind? .cooldown
    failureThreshold := ← r.orDefault? 2 readWord64? 1
    cooldown := ← r.orDefault? 3 readWord64? 30
    maxAttempts :=
      ← r.orDefault? 4 (readOptional? readWord64?) none }

def readLogging? (d : Document) : Option Logging := do
  let r ← Record.ofDocument? ["level", "json"] d
  return {
    level := ← r.orDefault? 0 readString? "info"
    json := ← r.orDefault? 1 readBool? false }

/- The configuration of a document. -/
def ofDocument? (d : Document) : Option Config := do
  let r ← Record.ofDocument?
    ["repositories", "clusters", "fallbackPolicies",
      "defaultTimeoutSecs", "logging"] d
  return {
    repositories :=
      ← r.orDefault? 0 (readList? readRepository?) []
    clusters := ← r.orDefault? 1 (readList? readCluster?) []
    policies := ← r.orDefault? 2 (readList? readPolicy?) []
    defaultTimeout := ← r.orDefault? 3 readWord64? 30
    logging := ← r.orDefault? 4 readLogging? {} }

/- The configuration of a text, whether valid or not. -/
def ofText? (s : String) : Option Config :=
  (Document.ofText? s).bind ofDocument?

/- The valid configuration of a text. -/
def read (s : String) : Except Error Config :=
  match ofText? s with
  | none => .error .invalidJson
  | some c => c.validate.map fun _ => c

------------------------------------------------------------
-- Writing
------------------------------------------------------------

def optionalJson
    {α : Type}
    (f : α → Json) : Option α → Json
  | some a => f a
  | none => .null

def natJson (n : Nat) : Json := .integer n

def Pool.toJson (p : Pool) : Json :=
  .object [
    ("maxConnections", optionalJson natJson p.maxConnections),
    ("minConnections", optionalJson natJson p.minConnections),
    ("idleTimeoutSecs", optionalJson natJson p.idleTimeout),
    ("acquireTimeoutSecs",
      optionalJson natJson p.acquireTimeout),
    ("testBeforeAcquire",
      optionalJson .bool p.testBeforeAcquire)]

def Repository.toJson (r : Repository) : Json :=
  .object [
    ("name", .string r.name),
    ("engine", optionalJson .string r.engine),
    ("connectionString", .string r.connectionString),
    ("schema", optionalJson .string r.schema),
    ("enabled", .bool r.enabled),
    ("sequence", .integer r.sequence),
    ("pool", r.pool.toJson)]

def Cluster.toJson (c : Cluster) : Json :=
  .object [
    ("name", .string c.name),
    ("databases", .array (c.databases.map .string)),
    ("sequence", .integer c.sequence),
    ("enabled", .bool c.enabled),
    ("fallbackPolicy", .string c.fallbackPolicy)]

def Policy.toJson (p : Policy) : Json :=
  .object [
    ("name", .string p.name),
    ("kind", .string p.kind.name),
    ("failureThreshold", natJson p.failureThreshold),
    ("cooldownSecs", natJson p.cooldown),
    ("maxAttempts", optionalJson natJson p.maxAttempts)]

def Logging.toJson (l : Logging) : Json :=
  .object [
    ("level", .string l.level), ("json", .bool l.json)]

/- A configuration with all its members. -/
def toJson (c : Config) : Json :=
  .object [
    ("repositories",
      .array (c.repositories.map Repository.toJson)),
    ("clusters", .array (c.clusters.map Cluster.toJson)),
    ("fallbackPolicies", .array (c.policies.map Policy.toJson)),
    ("defaultTimeoutSecs", natJson c.defaultTimeout),
    ("logging", c.logging.toJson)]

/- The JSON text of a configuration. -/
def write (c : Config) : String :=
  c.toJson.render

end Config

end Failover
