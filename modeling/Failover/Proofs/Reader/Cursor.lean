import Failover.Reader.Cursor

/-
  What a cursor passes on its way: the rows of a set, its end,
  and the sets behind it.  A failure that has shown stays.

  Key definitions include:
    * `Cursor.left`, `Cursor.ahead`
    * `Cursor.atEnd`, `Cursor.leave`

  Main statements:
    * `Cursor.left_read`, `Cursor.ahead_nextResult`
    * `Cursor.nextResult_atEnd`
    * `Cursor.failure_read`, `Cursor.failure_nextResult`
-/

namespace Failover

namespace Cursor

variable {c : Cursor} {s : ResultSet}

/- The place of the row that is read next. -/
def next (c : Cursor) : Nat :=
  match c.place with
  | none => 0
  | some i => i + 1

/- The rows of the set that were not yet read. -/
def left (c : Cursor) : Nat :=
  (c.set?.map (·.rows.length)).getD 0 - c.next

/- The sets from the present one on. -/
def ahead (c : Cursor) : Nat :=
  c.sets.length - c.set

/- The cursor when all rows of its set have been read. -/
def atEnd
    (c : Cursor)
    (s : ResultSet) : Cursor :=
  let c' := { c with place := some s.rows.length }
  match s.failure with
  | some f => c'.reveal s f
  | none => c'

/- A cursor behind the last set reads nothing and stays. -/
theorem read_none
    (hSet : c.set? = none) : c.read = ⟨false, none, c⟩ := by
  rw [read, hSet]

/- A cursor behind the last set finds no other set and stays. -/
theorem nextResult_none
    (hSet : c.set? = none) : c.nextResult = ⟨false, none, c⟩ := by
  rw [nextResult, hSet]

/- A row that is left is the next one. -/
theorem read_row
    (hSet : c.set? = some s)
    (hRow : c.next < s.rows.length) :
    c.read = ⟨true, none, { c with place := some c.next }⟩ := by
  rw [read, hSet]
  exact if_pos hRow

/- Reading at the end of a set shows the failure of the set. -/
theorem read_end
    (hSet : c.set? = some s)
    (hEnd : ¬ c.next < s.rows.length) :
    c.read = ⟨false, s.failure, c.atEnd s⟩ := by
  rw [read, hSet]
  refine (if_neg hEnd).trans ?_
  unfold atEnd
  cases s.failure <;> rfl

/- A row that is read is no longer left. -/
theorem left_read
    (hMore : c.read.hasMore = true) :
    c.read.cursor.left < c.left := by
  cases hSet : c.set? with
  | none =>
      rw [read_none hSet] at hMore
      cases hMore
  | some s =>
      by_cases hRow : c.next < s.rows.length
      · have hSame : { c with place := some c.next }.set? =
            some s := hSet
        rw [read_row hSet hRow, left, left, hSet, hSame]
        simp only [Option.map_some, Option.getD_some]
        change s.rows.length - (c.next + 1) < _
        omega
      · rw [read_end hSet hRow] at hMore
        cases hMore

/- The end of a set is no step ahead. -/
theorem ahead_atEnd (c : Cursor) : (c.atEnd s).ahead = c.ahead := by
  unfold atEnd
  cases s.failure with
  | none => rfl
  | some f => simp [ahead, reveal]

/- The failure of the set has shown, and it has none left. -/
theorem set?_atEnd
    (hSet : c.set? = some s) :
    (c.atEnd s).set? = some { s with failure := none } := by
  unfold atEnd
  cases hFailure : s.failure with
  | none =>
      rcases s with ⟨columns, rows, failure⟩
      cases hFailure
      exact hSet
  | some f =>
      have hIndex : c.set < c.sets.length :=
        (List.getElem?_eq_some_iff.mp hSet).1
      exact List.getElem?_set_self hIndex

/- The cursor before the first row of the next set. -/
def leave
    (c : Cursor)
    (s : ResultSet) : Cursor :=
  { c.atEnd s with set := c.set + 1, place := none }

/- The end of a set leaves the number of sets as it is. -/
theorem length_atEnd (c : Cursor) :
    (c.atEnd s).sets.length = c.sets.length := by
  unfold atEnd
  cases s.failure with
  | none => rfl
  | some f => exact List.length_set

/- The first failure is kept. -/
theorem failure_atEnd (c : Cursor) :
    (c.atEnd s).failure = (c.failure <|> s.failure) := by
  unfold atEnd
  cases s.failure with
  | none => cases c.failure <;> rfl
  | some f => rfl

/- Leaving a set takes its failure along. -/
theorem failure_leave (c : Cursor) :
    (c.leave s).failure = (c.failure <|> s.failure) :=
  c.failure_atEnd

/- The sets behind it stay. -/
theorem drop_leave (c : Cursor) :
    (c.leave s).sets.drop (c.set + 1) =
      c.sets.drop (c.set + 1) := by
  unfold leave atEnd
  cases s.failure with
  | none => rfl
  | some f => exact List.drop_set_of_lt (Nat.lt_succ_self _)

/- Leaving a set is a step ahead. -/
theorem ahead_leave
    (hSet : c.set? = some s) :
    (c.leave s).ahead < c.ahead := by
  have hIndex : c.set < c.sets.length :=
    (List.getElem?_eq_some_iff.mp hSet).1
  change (c.atEnd s).sets.length - (c.set + 1) <
    c.sets.length - c.set
  rw [length_atEnd]
  omega

/- A set that was read to its end is left for the next one. -/
theorem nextResult_atEnd
    (hSet : c.set? = some s) :
    (c.atEnd s).nextResult.hasMore =
        decide (c.set + 1 < c.sets.length) ∧
      (c.atEnd s).nextResult.cursor = c.leave s := by
  have hThis : (c.atEnd s).set = c.set := by
    unfold atEnd
    cases s.failure <;> rfl
  unfold nextResult leave
  rw [set?_atEnd hSet, ← hThis, ← length_atEnd (s := s) c]
  exact ⟨rfl, rfl⟩

/- Reading is none. -/
theorem ahead_read (c : Cursor) :
    c.read.cursor.ahead = c.ahead := by
  cases hSet : c.set? with
  | none => rw [read_none hSet]
  | some s =>
      by_cases hRow : c.next < s.rows.length
      · rw [read_row hSet hRow]
        rfl
      · rw [read_end hSet hRow, ahead_atEnd]

/- A set that is left is no longer ahead. -/
theorem ahead_nextResult
    (hMore : c.nextResult.hasMore = true) :
    c.nextResult.cursor.ahead < c.ahead := by
  unfold nextResult at hMore ⊢
  split at hMore
  · cases hMore
  · next s hSet =>
    split at hMore
    · cases hMore
    · have hNext : c.set + 1 < c.sets.length := by
        simpa using hMore
      change c.sets.length - (c.set + 1) < c.sets.length - c.set
      omega

------------------------------------------------------------
-- Failures
------------------------------------------------------------

/- A failure that shows stays, unless one has shown before. -/
theorem failure_read (c : Cursor) :
    c.read.cursor.failure = (c.failure <|> c.read.shown) := by
  cases hSet : c.set? with
  | none => simp [read_none hSet]
  | some s =>
      by_cases hRow : c.next < s.rows.length
      · simp [read_row hSet hRow]
      · rw [read_end hSet hRow, failure_atEnd]

/- The failure of a cursor is the first one that showed. -/
theorem failure_nextResult (c : Cursor) :
    c.nextResult.cursor.failure =
      (c.failure <|> c.nextResult.shown) := by
  unfold nextResult
  split
  · simp
  · split
    · rfl
    · simp

/- Reading a row shows no failure. -/
theorem shown_read
    (hMore : c.read.hasMore = true) : c.read.shown = none := by
  cases hSet : c.set? with
  | none => rw [read_none hSet]
  | some s =>
      by_cases hRow : c.next < s.rows.length
      · rw [read_row hSet hRow]
      · rw [read_end hSet hRow] at hMore
        cases hMore

end Cursor

end Failover
