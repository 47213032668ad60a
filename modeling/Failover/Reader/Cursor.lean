import Failover.Outcome.Basic
import Failover.Value.Conversion

/-
  Cursors over the result sets of one outcome, row by row and
  set by set.  A failure of a set shows when its rows have
  been read, or when the set is left.

  Key definitions include:
    * `Cursor`, `Cursor.ofSets`
    * `Cursor.read`, `Cursor.nextResult`
    * `Cursor.row?`, `Cursor.value?`
    * `Cursor.get`, `Cursor.getChoice`
    * `Cursor.tryGet`, `Cursor.tryGetByName`
    * `Cursor.record`
-/

namespace Failover

/-
  Before the first row of a set there is no place.  The first
  failure that has shown stays.
-/
structure Cursor where
  sets : List ResultSet
  set : Nat
  place : Option Nat
  failure : Option Failure
deriving Repr, Inhabited

namespace Cursor

def ofSets (sets : List ResultSet) : Cursor :=
  ⟨sets, 0, none, none⟩

------------------------------------------------------------
-- Moving
------------------------------------------------------------

/- A move, with the failure that it brought to light. -/
structure Moved where
  hasMore : Bool
  shown : Option Failure
  cursor : Cursor
deriving Repr, Inhabited

def set? (c : Cursor) : Option ResultSet :=
  c.sets[c.set]?

/- A failure has shown and its set no longer has it. -/
def reveal
    (c : Cursor)
    (s : ResultSet)
    (f : Failure) : Cursor :=
  { c with
    sets := c.sets.set c.set { s with failure := none }
    failure := c.failure <|> some f }

/- To the next row of the set. -/
def read (c : Cursor) : Moved :=
  match c.set? with
  | none => ⟨false, none, c⟩
  | some s =>
      let next :=
        match c.place with
        | none => 0
        | some i => i + 1
      if next < s.rows.length then
        ⟨true, none, { c with place := some next }⟩
      else
        let atEnd := { c with place := some s.rows.length }
        match s.failure with
        | some f => ⟨false, some f, atEnd.reveal s f⟩
        | none => ⟨false, none, atEnd⟩

/- To the next set, unless this one has a failure unread. -/
def nextResult (c : Cursor) : Moved :=
  match c.set? with
  | none => ⟨false, none, c⟩
  | some s =>
      match s.failure with
      | some f =>
          ⟨false, some f,
            { c.reveal s f with set := c.sets.length }⟩
      | none =>
          let set := c.set + 1
          ⟨decide (set < c.sets.length), none,
            { c with set, place := none }⟩

------------------------------------------------------------
-- Looking
------------------------------------------------------------

def columns (c : Cursor) : List Column :=
  (c.set?.map (·.columns)).getD []

/- The row at the cursor, if there is one. -/
def row? (c : Cursor) : Option (List Value) := do
  let s ← c.set?
  s.rows[← c.place]?

def value?
    (c : Cursor)
    (i : Nat) : Option Value :=
  c.row?.bind fun row => row[i]?

/- The position of a column's name, in any ASCII case. -/
def index?
    (c : Cursor)
    (name : String) : Option Nat :=
  c.columns.findIdx? fun k => Text.sameName k.name name

/- A place without a value counts as NULL. -/
def isNull
    (c : Cursor)
    (i : Nat) : Bool :=
  match c.value? i with
  | none => true
  | some v => v.isNull

/-
  A value converted to a type; a default stands for NULL, no
  value, and a value that does not convert.
-/
def get
    (c : Cursor)
    (t : Target)
    (i : Nat)
    (default : t.Carrier) : t.Carrier :=
  match c.value? i with
  | none => default
  | some v =>
      if v.isNull then default
      else
        match t.convert v with
        | .ok a => a
        | .error _ => default

def getByName
    (c : Cursor)
    (t : Target)
    (name : String)
    (default : t.Carrier) : t.Carrier :=
  match c.index? name with
  | some i => c.get t i default
  | none => default

/- An enumeration is stored by its numbers. -/
def getChoice
    {α : Type}
    (c : Cursor)
    (ofNumber : Int → Option α)
    (i : Nat)
    (default : α) : α :=
  let number := c.get (.optional (.integer .int64)) i none
  (Option.bind number ofNumber).getD default

/- Why a field has no value of a type. -/
inductive FieldError where
  | noValue (index : Nat)
  | noField (name : String)
  | conversion (index : Nat) (cause : ConversionError)

def FieldError.message : FieldError → String
  | .noValue i => "no value at field " ++ Decimal.render i
  | .noField name => "no field named '" ++ name ++ "'"
  | .conversion i cause =>
      "field " ++ Decimal.render i ++ ": " ++ cause.message

/- A value converted to a type, or why there is none. -/
def tryGet
    (c : Cursor)
    (t : Target)
    (i : Nat) : Except FieldError t.Carrier :=
  match c.value? i with
  | none => .error (.noValue i)
  | some v => (t.convert v).mapError (.conversion i)

def tryGetByName
    (c : Cursor)
    (t : Target)
    (name : String) : Except FieldError t.Carrier :=
  match c.index? name with
  | none => .error (.noField name)
  | some i => c.tryGet t i

/-
  A field goes to its place by name and replaces one of the
  same name.
-/
def insertField
    (name : String)
    (v : Value) :
    List (String × Value) → List (String × Value)
  | [] => [(name, v)]
  | (n, w) :: r =>
      if name = n then (name, v) :: r
      else if name < n then (name, v) :: (n, w) :: r
      else (n, w) :: insertField name v r

/-
  The fields of the row in the order of their names.  Of one
  name the last column counts, and a place without a value
  has NULL.
-/
def record (c : Cursor) : List (String × Value) :=
  let row := c.row?.getD []
  let values := (List.range c.columns.length).map
    fun (i : Nat) => (row[i]?).getD .null
  ((c.columns.map (·.name)).zip values).foldl
    (fun fields f => insertField f.1 f.2 fields) []

end Cursor

end Failover
