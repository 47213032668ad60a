import Failover.Outcome.Basic

/-
  Outcomes as they arrive from an engine: rows, ends of
  statements, and at last perhaps a failure.  A set begins
  with its first row and ends with its statement, so that a
  statement without rows leaves no set.

  Key definitions include:
    * `StreamItem`
    * `Collector`
    * `Collector.row`, `Collector.done`
    * `Collector.fail`, `Collector.finish`
    * `Outcome.ofStream`
-/

namespace Failover

/- One thing that an engine sends. -/
inductive StreamItem where
  | row (columns : List Column) (values : List Value)
  | done (rowsAffected : UInt64)
  | failed (cause : Failure)
deriving Repr

/- The complete sets, and the one whose rows arrive. -/
structure Collector where
  sets : List ResultSet
  current : Option ResultSet
  rowsAffected : UInt64
deriving Repr, Inhabited

namespace Collector

def empty : Collector := ⟨[], none, 0⟩

/- A set has the columns of its first row. -/
def row
    (c : Collector)
    (columns : List Column)
    (values : List Value) : Collector :=
  let s := c.current.getD ⟨columns, [], none⟩
  { c with current := some { s with rows := s.rows ++ [values] } }

/- The sets with the one whose rows arrive. -/
def allSets (c : Collector) : List ResultSet :=
  c.sets ++ c.current.toList

/- A statement ends. -/
def done
    (c : Collector)
    (rowsAffected : UInt64) : Collector :=
  ⟨c.allSets, none, c.rowsAffected + rowsAffected⟩

/-
  A failure stands for all when nothing was produced before
  it.  Else it goes with the set whose rows arrive, or with
  an empty one.
-/
def fail
    (c : Collector)
    (cause : Failure) : Except Failure Collector :=
  if c.current.isNone && c.sets.isEmpty then .error cause
  else
    let s := c.current.getD .empty
    .ok { c with
      sets := c.sets ++ [{ s with failure := some cause }]
      current := none }

def finish (c : Collector) : Outcome :=
  ⟨c.allSets, c.rowsAffected, .empty⟩

/- Nothing is read behind a failure. -/
def collect
    (c : Collector) :
    List StreamItem → Except Failure Outcome
  | [] => .ok c.finish
  | .row columns values :: r =>
      (c.row columns values).collect r
  | .done n :: r => (c.done n).collect r
  | .failed cause :: _ => (c.fail cause).map finish

end Collector

/- The outcome of a stream. -/
def Outcome.ofStream
    (items : List StreamItem) : Except Failure Outcome :=
  Collector.empty.collect items

end Failover
