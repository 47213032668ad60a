import Mathlib.Algebra.GroupWithZero.Nat
import Failover.Outcome.Progress
import Failover.Outcome.Stream

/-
  What a stream delivers, apart from how it is collected: its
  rows by the statements that they belong to, the counts of
  the statements that ended, and a failure at the end.  The
  outcome of a stream holds all of it.

  Key definitions include:
    * `StreamItem.delivered`, `StreamItem.cause?`
    * `StreamItem.rows`, `StreamItem.statements`
    * `StreamItem.groups`, `StreamItem.affected`
    * `ResultSet.ofGroup`

  Main statements:
    * `StreamItem.flatten_groups`
    * `Collector.collect_between`
    * `Outcome.ofStream_eq`
-/

namespace Failover

/- A row with the columns that came with it. -/
abbrev StreamRow := List Column × List Value

------------------------------------------------------------
-- Streams
------------------------------------------------------------

namespace StreamItem

def failure? : StreamItem → Option Failure
  | .failed cause => some cause
  | _ => none

def row? : StreamItem → Option StreamRow
  | .row columns values => some (columns, values)
  | _ => none

/- A statement ends. -/
def isDone : StreamItem → Bool
  | .done _ => true
  | _ => false

/- The rows that a statement which ends has affected. -/
def count : StreamItem → Nat
  | .done n => n.toNat
  | _ => 0

variable (items : List StreamItem)

/- What comes before the first failure. -/
def delivered : List StreamItem :=
  items.takeWhile (·.failure?.isNone)

/- The failure with which a stream ends. -/
def cause? : Option Failure :=
  items.findSome? failure?

def rows : List StreamRow :=
  (delivered items).filterMap row?

/- The rows of each statement, the last of which goes on. -/
def statements : List (List StreamRow) :=
  ((delivered items).splitOnP isDone).map (·.filterMap row?)

/- The rows of the statements that have some. -/
def groups : List (List StreamRow) :=
  (statements items).filter (!·.isEmpty)

def affected : Nat :=
  ((delivered items).map count).sum

variable {items}

@[simp] theorem cause?_nil : cause? [] = none := rfl

@[simp] theorem cause?_row
    (columns : List Column)
    (values : List Value) :
    cause? (.row columns values :: items) = cause? items := rfl

@[simp] theorem cause?_done (n : UInt64) :
    cause? (.done n :: items) = cause? items := rfl

@[simp] theorem cause?_failed (f : Failure) :
    cause? (.failed f :: items) = some f := rfl

@[simp] theorem delivered_nil : delivered [] = [] := rfl

@[simp] theorem delivered_row
    (columns : List Column)
    (values : List Value) :
    delivered (.row columns values :: items) =
      .row columns values :: delivered items := rfl

@[simp] theorem delivered_done (n : UInt64) :
    delivered (.done n :: items) = .done n :: delivered items :=
  rfl

@[simp] theorem delivered_failed (f : Failure) :
    delivered (.failed f :: items) = [] := rfl

@[simp] theorem rows_row
    (columns : List Column)
    (values : List Value) :
    rows (.row columns values :: items) =
      (columns, values) :: rows items := rfl

@[simp] theorem rows_done (n : UInt64) :
    rows (.done n :: items) = rows items := rfl

@[simp] theorem statements_nil : statements [] = [[]] := rfl

@[simp] theorem statements_failed (f : Failure) :
    statements (.failed f :: items) = [[]] := rfl

/- The end of a statement begins another one. -/
@[simp] theorem statements_done (n : UInt64) :
    statements (.done n :: items) = [] :: statements items := by
  simp [statements, List.splitOnP_cons_eq_if_modifyHead, isDone]

/- A row belongs to the statement under way. -/
@[simp] theorem statements_row
    (columns : List Column)
    (values : List Value) :
    statements (.row columns values :: items) =
      (statements items).modifyHead ((columns, values) :: ·) := by
  simp only [statements, delivered_row,
    List.splitOnP_cons_eq_if_modifyHead, isDone,
    Bool.false_eq_true, if_false]
  cases (delivered items).splitOnP isDone <;> rfl

/- A stream has one statement under way at least. -/
theorem statements_ne_nil (items : List StreamItem) :
    statements items ≠ [] := by
  simp [statements, List.splitOnP_ne_nil]

@[simp] theorem affected_row
    (columns : List Column)
    (values : List Value) :
    affected (.row columns values :: items) = affected items := by
  simp [affected, count]

@[simp] theorem affected_done (n : UInt64) :
    affected (.done n :: items) = n.toNat + affected items :=
  List.sum_cons

/- The statements have every row once, in the same order. -/
theorem flatten_statements (items : List StreamItem) :
    (statements items).flatten = rows items := by
  induction items with
  | nil => rfl
  | cons x items ih =>
      cases x with
      | failed f => rfl
      | done n => simpa using ih
      | row columns values =>
          rw [statements_row, rows_row, ← ih]
          have hSome := statements_ne_nil items
          cases hAll : statements items with
          | nil => exact absurd hAll hSome
          | cons g gs => rfl

/- A statement without rows is nothing among the rows. -/
theorem flatten_groups (items : List StreamItem) :
    (groups items).flatten = rows items := by
  rw [groups, List.flatten_filter_not_isEmpty,
    flatten_statements]

end StreamItem

------------------------------------------------------------
-- Sets
------------------------------------------------------------

/- The set of some rows has the columns of the first one. -/
def ResultSet.ofGroup (g : List StreamRow) : ResultSet :=
  ⟨(g.head?.map (·.1)).getD [], g.map (·.2), none⟩

/- The set of a group in which a failure came up. -/
def ResultSet.failing
    (f : Failure)
    (g : List StreamRow) : ResultSet :=
  { ofGroup g with failure := some f }

/- The sets of the groups that have rows. -/
def ResultSet.ofGroups
    (gs : List (List StreamRow)) : List ResultSet :=
  (gs.filter (!·.isEmpty)).map ofGroup

/- The sets of groups of which the last one ends in a failure. -/
def ResultSet.ofBroken
    (f : Failure)
    (gs : List (List StreamRow)) : List ResultSet :=
  ofGroups gs.dropLast ++
    (gs.getLast?.map (failing f)).toList

namespace Collector

/-
  A collector that has some sets and the rows of a statement
  that goes on.
-/
def between
    (sets : List ResultSet)
    (g : List StreamRow)
    (rowsAffected : UInt64) : Collector :=
  ⟨sets, if g.isEmpty then none else some (.ofGroup g),
    rowsAffected⟩

variable (sets : List ResultSet) (g : List StreamRow) (n : UInt64)

/- A row goes to the set that is being collected. -/
theorem between_row
    (columns : List Column)
    (values : List Value) :
    (between sets g n).row columns values =
      between sets (g ++ [(columns, values)]) n := by
  cases g with
  | nil => rfl
  | cons r g => simp [between, row, ResultSet.ofGroup]

/- A set without rows is left out. -/
theorem between_allSets :
    (between sets g n).allSets = sets ++ ResultSet.ofGroups [g] := by
  cases g <;> rfl

/- The end of a statement closes its set. -/
theorem between_done (k : UInt64) :
    (between sets g n).done k =
      between (sets ++ ResultSet.ofGroups [g]) [] (n + k) := by
  rw [done, between_allSets]
  rfl

/- A failure stands alone only where nothing came before it. -/
theorem between_fail (f : Failure) :
    (between sets g n).fail f =
      if sets = [] ∧ g = [] then .error f
      else .ok ⟨sets ++ [.failing f g], none, n⟩ := by
  cases g with
  | nil => cases sets <;> rfl
  | cons r g => simp [between, fail, ResultSet.failing]

/- The sets of a first group and of those behind it. -/
theorem ofGroups_cons (gs : List (List StreamRow)) :
    ResultSet.ofGroups (g :: gs) =
      ResultSet.ofGroups [g] ++ ResultSet.ofGroups gs := by
  cases g <;> rfl

/- A failure belongs to the set of the last group of rows. -/
theorem ofBroken_cons
    {gs : List (List StreamRow)}
    (f : Failure)
    (hSome : gs ≠ []) :
    ResultSet.ofBroken f (g :: gs) =
      ResultSet.ofGroups [g] ++ ResultSet.ofBroken f gs := by
  unfold ResultSet.ofBroken
  rw [List.dropLast_cons_of_ne_nil hSome, ofGroups_cons,
    List.getLast?_cons_of_ne_nil hSome, List.append_assoc]

/- Groups without rows make no set. -/
theorem ofGroups_eq_nil (gs : List (List StreamRow)) :
    ResultSet.ofGroups gs = [] ↔ gs.flatten = [] := by
  simp [ResultSet.ofGroups, List.filter_eq_nil_iff]

/-
  What a collector makes of the rest of a stream.  The rows
  that it has are the first ones of the first statement.
-/
theorem collect_between (items : List StreamItem) :
    (between sets g n).collect items =
      let gs := (StreamItem.statements items).modifyHead (g ++ ·)
      let total := n + .ofNat (StreamItem.affected items)
      match StreamItem.cause? items with
      | none => .ok ⟨sets ++ ResultSet.ofGroups gs, total, .empty⟩
      | some f =>
          if sets = [] ∧ gs.flatten = [] then .error f
          else
            .ok ⟨sets ++ ResultSet.ofBroken f gs, total, .empty⟩ := by
  induction items generalizing sets g n with
  | nil =>
      rw [collect, finish, between_allSets]
      simp [between, StreamItem.affected]
  | cons x items ih =>
      cases x with
      | failed f =>
          rw [collect, between_fail]
          have hSets : ResultSet.ofBroken f [g] =
              [.failing f g] := rfl
          simp only [StreamItem.statements_failed,
            List.modifyHead_cons, List.append_nil, hSets,
            StreamItem.cause?_failed, List.flatten_singleton]
          split
          · rfl
          · simp [Except.map, finish, allSets,
              StreamItem.affected]
      | row columns values =>
          have hHead (gs : List (List StreamRow)) :
              gs.modifyHead (g ++ [(columns, values)] ++ ·) =
                (gs.modifyHead ((columns, values) :: ·)).modifyHead
                  (g ++ ·) := by
            cases gs <;> simp
          rw [collect, between_row, ih, hHead]
          simp only [StreamItem.statements_row,
            StreamItem.cause?_row, StreamItem.affected_row]
      | done k =>
          have hSome := StreamItem.statements_ne_nil items
          have hHead : (StreamItem.statements items).modifyHead
              ([] ++ ·) = StreamItem.statements items := by
            cases StreamItem.statements items <;> rfl
          have hTotal : n + k +
              .ofNat (StreamItem.affected items) =
                n + .ofNat (k.toNat +
                  StreamItem.affected items) := by
            rw [UInt64.ofNat_add, UInt64.ofNat_toNat,
              UInt64.add_assoc]
          rw [collect, between_done, ih, hHead, hTotal]
          simp only [StreamItem.statements_done,
            List.modifyHead_cons, List.append_nil,
            StreamItem.cause?_done, StreamItem.affected_done]
          rw [ofGroups_cons g (StreamItem.statements items)]
          cases StreamItem.cause? items with
          | none => simp
          | some f =>
              have hNone : sets ++ ResultSet.ofGroups [g] = [] ↔
                  sets = [] ∧ g = [] := by
                rw [List.append_eq_nil_iff, ofGroups_eq_nil,
                  List.flatten_singleton]
              simp only [hNone, ofBroken_cons g f hSome,
                List.flatten_cons, List.append_eq_nil_iff,
                and_assoc, List.append_assoc]

end Collector

namespace Outcome

/-
  The outcome of a stream.  There is none if the stream fails
  before the first row.
-/
theorem ofStream_eq (items : List StreamItem) :
    ofStream items =
      let gs := StreamItem.statements items
      let total := UInt64.ofNat (StreamItem.affected items)
      match StreamItem.cause? items with
      | none => .ok ⟨ResultSet.ofGroups gs, total, .empty⟩
      | some f =>
          if StreamItem.rows items = [] then .error f
          else .ok ⟨ResultSet.ofBroken f gs, total, .empty⟩ := by
  have hHead : (StreamItem.statements items).modifyHead
      ([] ++ ·) = StreamItem.statements items := by
    cases StreamItem.statements items <;> rfl
  have hAll := Collector.collect_between [] [] 0 items
  rw [hHead, UInt64.zero_add] at hAll
  simp only [List.nil_append, true_and,
    StreamItem.flatten_statements] at hAll
  exact hAll

/- Sets of complete statements have no failure. -/
theorem takeFrom_ofGroups (gs : List (List StreamRow)) :
    (takeFrom (ResultSet.ofGroups gs)).1 = none := by
  unfold ResultSet.ofGroups
  induction gs.filter (!·.isEmpty) with
  | nil => rfl
  | cons g gs ih => exact ih

/- The first failure of a broken stream is its own. -/
theorem takeFrom_ofBroken
    {gs : List (List StreamRow)}
    (f : Failure)
    (hSome : gs ≠ []) :
    (takeFrom (ResultSet.ofBroken f gs)).1 = some f := by
  unfold ResultSet.ofBroken ResultSet.ofGroups
  rw [List.getLast?_eq_some_getLast hSome]
  induction gs.dropLast.filter (!·.isEmpty) with
  | nil => rfl
  | cons g gs ih => exact ih

section
variable {items : List StreamItem} {o : Outcome}

/- A stream fails as a whole if it fails before any row. -/
theorem ofStream_error_iff
    {f : Failure} :
    ofStream items = .error f ↔
      StreamItem.cause? items = some f ∧
        StreamItem.rows items = [] := by
  rw [ofStream_eq]
  simp only
  cases StreamItem.cause? items with
  | none => simp
  | some f' =>
      by_cases hRows : StreamItem.rows items = []
      · simp [hRows]
      · simp [hRows]

/-
  An outcome is that of a stream that has ended well, or of
  one that has failed behind its first row.
-/
theorem ofStream_cases
    (h : ofStream items = .ok o) :
    let gs := StreamItem.statements items
    let total := UInt64.ofNat (StreamItem.affected items)
    (StreamItem.cause? items = none ∧
      o = ⟨ResultSet.ofGroups gs, total, .empty⟩) ∨
    ∃ f, StreamItem.cause? items = some f ∧
      o = ⟨ResultSet.ofBroken f gs, total, .empty⟩ := by
  intro gs total
  rw [ofStream_eq] at h
  simp only at h
  split at h
  · next hCause =>
    cases h
    exact .inl ⟨hCause, rfl⟩
  · next f hCause =>
    split at h
    · cases h
    · cases h
      exact .inr ⟨f, hCause, rfl⟩

/- The failure of a stream is that of its outcome. -/
theorem ofStream_failure?
    (h : ofStream items = .ok o) :
    o.failure? = StreamItem.cause? items := by
  rcases ofStream_cases h with ⟨hCause, rfl⟩ | ⟨f, hCause, rfl⟩
  · rw [hCause]
    exact takeFrom_ofGroups _
  · rw [hCause]
    exact takeFrom_ofBroken f (StreamItem.statements_ne_nil items)

/- The counts of the statements add up, in 64 bits. -/
theorem ofStream_rowsAffected
    (h : ofStream items = .ok o) :
    o.rowsAffected = .ofNat (StreamItem.affected items) := by
  rcases ofStream_cases h with ⟨-, rfl⟩ | ⟨f, -, rfl⟩ <;> rfl

/- Rows, and no output values, are what streams are made of. -/
theorem ofStream_outputs
    (h : ofStream items = .ok o) : o.outputs = .empty := by
  rcases ofStream_cases h with ⟨-, rfl⟩ | ⟨f, -, rfl⟩ <;> rfl

end

end Outcome

end Failover
