import Failover.Proofs.Common
import Failover.Outcome.Basic
import Failover.Proofs.Command.Outputs
import Mathlib.Data.List.FinRange

/-
  Which column each output parameter reads.  A parameter reads
  the column of its name and, without one, the column at its
  own position.  Two parameters read one column exactly if a
  parameter that has no column of its name stands at the
  position of a column that is named like another one.

  Key definitions include:
    * `ResultSet.Begins`
    * `ResultSet.source`, `ResultSet.readings`
    * `ResultSet.IsAssignment`, `ResultSet.ReadsApart`
    * `ResultSet.Collides`

  Main statements:
    * `ResultSet.outputs_eq`, `ResultSet.outputs_entries`
    * `ResultSet.source_injective_iff`
    * `ResultSet.readsApart_iff`
-/

namespace Failover

namespace ResultSet

open Function (Injective)

------------------------------------------------------------
-- Assignments
------------------------------------------------------------

/- The set has some columns and some values in its first row. -/
structure Begins
    (s : ResultSet)
    (columns : List Column)
    (values : Fin columns.length → Value) : Prop where
  columns : s.columns = columns
  first : s.rows.head? = some (List.ofFn values)

/-
  Each parameter has a column to itself, that of its name if
  there is one, and gets the value of that column, whatever
  the values in the row are.
-/
structure IsAssignment
    (columns : List Column)
    (names : List String)
    (f : Fin names.length → Fin columns.length) : Prop where
  injective : Injective f
  named : ∀ i j,
    Text.sameName columns[j].name names[i] = true → f i = j
  values : ∀ values s, Begins s columns values →
    (s.outputs names).entries =
      List.ofFn fun i => (names[i], values (f i))

/- The parameters read different columns. -/
def ReadsApart
    (columns : List Column)
    (names : List String) : Prop :=
  ∃ f, IsAssignment columns names f

/-
  A parameter that no column is named like stands at the
  position of a column that is named like a parameter.
-/
def Collides
    (columns : List Column)
    (names : List String) : Prop :=
  ∃ i j : Fin names.length, ∃ hColumn : i < columns.length,
    (∀ c ∈ columns, Text.sameName c.name names[i] = false) ∧
    Text.sameName columns[i].name names[j] = true

instance
    (columns : List Column)
    (names : List String) :
    Decidable (Collides columns names) := by
  unfold Collides
  infer_instance

------------------------------------------------------------
-- Columns of names
------------------------------------------------------------

section Names

variable {columns : List Column} {name : String}

/-
  A column is found by its name if columns are told apart by
  name.
-/
theorem findIdx?_name
    {j : Nat}
    (hColumns : AreDistinct (columns.map (·.name)))
    (hColumn : j < columns.length)
    (hName : Text.sameName columns[j].name name = true) :
    columns.findIdx? (fun c => Text.sameName c.name name) =
      some j := by
  rw [List.findIdx?_eq_some_iff_getElem]
  refine ⟨hColumn, hName, fun k hBefore => ?_⟩
  intro hOther
  have hApart := List.pairwise_iff_getElem.mp hColumns k j
    (by rw [List.length_map]; omega)
    (by rw [List.length_map]; exact hColumn) hBefore
  rw [List.getElem_map, List.getElem_map] at hApart
  rw [Text.sameName_comm] at hName
  rw [Text.sameName_trans hOther hName] at hApart
  cases hApart

/- A name that is found is that of the column. -/
theorem sameName_of_findIdx?
    {j : Nat}
    (hFound :
      columns.findIdx? (fun c => Text.sameName c.name name) =
        some j) :
    ∃ hColumn : j < columns.length,
      Text.sameName columns[j].name name = true := by
  rw [List.findIdx?_eq_some_iff_getElem] at hFound
  exact ⟨hFound.choose, hFound.choose_spec.1⟩

end Names

------------------------------------------------------------
-- Sources
------------------------------------------------------------

section Sources

variable {columns : List Column} {names : List String}

/- The column that a parameter reads. -/
def source
    (columns : List Column)
    (names : List String)
    (i : Fin names.length) : Nat :=
  (columns.findIdx? fun c =>
    Text.sameName c.name names[i]).getD i

theorem source_lt
    (hLength : names.length ≤ columns.length)
    (i : Fin names.length) :
    source columns names i < columns.length := by
  unfold source
  cases hFound : columns.findIdx? fun c =>
      Text.sameName c.name names[i] with
  | none => exact lt_of_lt_of_le i.isLt hLength
  | some j => exact (sameName_of_findIdx? hFound).choose

/- A parameter reads the column of its name. -/
theorem source_named
    (hColumns : AreDistinct (columns.map (·.name)))
    {i : Fin names.length}
    {j : Fin columns.length}
    (hName :
      Text.sameName columns[j].name names[i] = true) :
    source columns names i = j := by
  unfold source
  rw [findIdx?_name hColumns j.isLt hName]
  rfl

/- A parameter without such a column reads its own position. -/
theorem source_unnamed
    {i : Fin names.length}
    (hNone :
      ∀ c ∈ columns, Text.sameName c.name names[i] = false) :
    source columns names i = i := by
  unfold source
  rw [List.findIdx?_eq_none_iff.mpr hNone]
  rfl

/-
  A parameter reads the column of its name, or the one at its
  position if none has its name.
-/
theorem source_cases
    (columns : List Column)
    (i : Fin names.length) :
    (∃ hColumn : source columns names i < columns.length,
      Text.sameName
        columns[source columns names i].name names[i] = true) ∨
    (∀ c ∈ columns, Text.sameName c.name names[i] = false) := by
  cases hFound : columns.findIdx? fun c =>
      Text.sameName c.name names[i] with
  | none =>
      right
      exact List.findIdx?_eq_none_iff.mp hFound
  | some j =>
      left
      have hSource : source columns names i = j := by
        rw [source, hFound]
        rfl
      rw [hSource]
      exact sameName_of_findIdx? hFound

/- A column is read twice only if parameters collide. -/
theorem source_injective
    (hNames : AreDistinct names)
    (hApart : ¬ Collides columns names) :
    Injective (source columns names) := by
  -- One of the two has a column of its name, and the other
  -- one, which has none, stands at the position of it.
  have hMixed {i j : Fin names.length}
      (hRead : source columns names i = source columns names j)
      (hNamed : ∃ hColumn : source columns names i < columns.length,
        Text.sameName
          columns[source columns names i].name names[i] = true)
      (hNone :
        ∀ c ∈ columns, Text.sameName c.name names[j] = false) :
      Collides columns names := by
    rcases hNamed with ⟨hColumn, hName⟩
    rw [source_unnamed hNone] at hRead
    simp only [hRead] at hColumn hName
    exact ⟨j, i, hColumn, hNone, hName⟩
  intro i j hRead
  rcases source_cases columns i with hFirst | hFirst
  · rcases source_cases columns j with hSecond | hSecond
    · rcases hFirst with ⟨hColumn, hFirst⟩
      rcases hSecond with ⟨hColumn', hSecond⟩
      simp only [← hRead] at hSecond
      rw [Text.sameName_comm] at hFirst
      have hSame := Text.sameName_trans hFirst hSecond
      by_contra hOther
      rcases Nat.lt_or_gt_of_ne
          (fun hPlace => hOther (Fin.ext hPlace)) with
        hBefore | hAfter
      · have hDiffer := List.pairwise_iff_getElem.mp hNames
          i j i.isLt j.isLt hBefore
        exact absurd hSame (by simpa using hDiffer)
      · have hDiffer := List.pairwise_iff_getElem.mp hNames
          j i j.isLt i.isLt hAfter
        rw [Text.sameName_comm] at hSame
        exact absurd hSame (by simpa using hDiffer)
    · exact absurd (hMixed hRead hFirst hSecond) hApart
  · rcases source_cases columns j with hSecond | hSecond
    · exact absurd (hMixed hRead.symm hSecond hFirst) hApart
    · rw [source_unnamed hFirst, source_unnamed hSecond]
        at hRead
      exact Fin.ext hRead

/- Parameters that collide read one column. -/
theorem Collides.not_injective
    (hColumns : AreDistinct (columns.map (·.name)))
    (h : Collides columns names) :
    ¬ Injective (source columns names) := by
  rcases h with ⟨i, j, hColumn, hNone, hName⟩
  intro hInjective
  have hRead : source columns names i = source columns names j := by
    rw [source_unnamed hNone,
      source_named hColumns (j := ⟨i, hColumn⟩) hName]
  have hSame := hInjective hRead
  subst hSame
  have hOther := hNone columns[i] (List.getElem_mem hColumn)
  rw [hName] at hOther
  cases hOther

end Sources

------------------------------------------------------------
-- Output values
------------------------------------------------------------

section Outputs

variable {columns : List Column} {names : List String}
variable {s : ResultSet}

/-
  What parameters find in a row, each in the column that it
  reads.  One finds nothing if the row ends before.
-/
def readings
    (columns : List Column)
    (names : List String)
    (row : List Value) : List (String × Value) :=
  (List.finRange names.length).filterMap fun i =>
    row[source columns names i]?.map (names[i], ·)

/-
  The output values are set one after the other, for each name
  that finds a value.
-/
theorem outputsFrom_eq_foldl
    (s : ResultSet)
    (row : List Value)
    (names : List String)
    (position : Nat)
    (o : OutputValues) :
    s.outputsFrom row position o names =
      ((names.zipIdx position).filterMap fun e =>
        (s.outputAt? row e.1 e.2).map (e.1, ·)).foldl
          (fun o e => o.insert e.1 e.2) o := by
  induction names generalizing position o with
  | nil => rfl
  | cons name rest ih =>
      rw [outputsFrom, List.zipIdx_cons, List.filterMap_cons, ih]
      cases s.outputAt? row name position <;> rfl

/- The output values of a row are those that names find. -/
theorem outputsFrom_eq
    (s : ResultSet)
    (row : List Value)
    (names : List String) :
    s.outputsFrom row 0 .empty names =
      .ofEntries (readings s.columns names row) := by
  rw [outputsFrom_eq_foldl, zipIdx_eq_finRange,
    List.filterMap_map]
  rfl

theorem outputs_eq
    (s : ResultSet)
    (names : List String) :
    s.outputs names =
      s.rows.head?.elim .empty fun row =>
        .ofEntries (readings s.columns names row) := by
  unfold outputs
  cases s.rows with
  | nil => rfl
  | cons row rest => exact outputsFrom_eq s row names

/-
  Each parameter finds a value in a row that has as many
  columns as there are parameters.
-/
theorem readings_ofFn
    (values : Fin columns.length → Value)
    (hLength : names.length ≤ columns.length) :
    readings columns names (List.ofFn values) =
      List.ofFn fun i => (names[i],
        values ⟨source columns names i, source_lt hLength i⟩) := by
  have hEach (i : Fin names.length) :
      (List.ofFn values)[source columns names i]? =
        some (values
          ⟨source columns names i, source_lt hLength i⟩) := by
    rw [List.getElem?_ofFn, dif_pos (source_lt hLength i)]
  simp only [readings, hEach, Option.map_some,
    List.filterMap_eq_map']
  exact List.ofFn_eq_map.symm

/- Every parameter gets the value of the column it reads. -/
theorem outputs_entries
    {values : Fin columns.length → Value}
    (hNames : AreDistinct names)
    (hLength : names.length ≤ columns.length)
    (hBegins : Begins s columns values) :
    (s.outputs names).entries =
      List.ofFn fun i => (names[i],
        values ⟨source columns names i, source_lt hLength i⟩) := by
  have hKeys : (readings columns names (List.ofFn values)).map
      (·.1) = names := by
    rw [readings_ofFn values hLength, List.map_ofFn]
    exact List.ofFn_getElem
  rw [outputs_eq, hBegins.first, hBegins.columns,
    Option.elim_some, OutputValues.ofEntries_eq (by rwa [hKeys]),
    readings_ofFn values hLength]

/- Values that tell all columns apart. -/
def marks (n : Nat) (j : Fin n) : Value :=
  .text (String.ofList (List.replicate j '*'))

theorem marks_injective (n : Nat) : Injective (marks n) := by
  intro i j hSame
  have hText := Value.text.inj hSame
  have hLength := congrArg (fun t => t.toList.length) hText
  simp only [String.toList_ofList,
    List.length_replicate] at hLength
  exact Fin.ext hLength

/- An assignment is that of the columns that are read. -/
theorem IsAssignment.eq_source
    {f : Fin names.length → Fin columns.length}
    (hNames : AreDistinct names)
    (hLength : names.length ≤ columns.length)
    (h : IsAssignment columns names f)
    (i : Fin names.length) :
    f i = ⟨source columns names i, source_lt hLength i⟩ := by
  let values := marks columns.length
  have hBegins :
      Begins ⟨columns, [List.ofFn values], none⟩ columns values :=
    ⟨rfl, rfl⟩
  have hEntries := h.values values _ hBegins
  rw [outputs_entries hNames hLength hBegins,
    List.ofFn_inj] at hEntries
  have hThis := congrArg Prod.snd (congrFun hEntries i)
  exact (marks_injective _ hThis).symm

end Outputs

------------------------------------------------------------
-- Collisions
------------------------------------------------------------

theorem Collides.not_readsApart
    {columns : List Column}
    {names : List String}
    (hColumns : AreDistinct (columns.map (·.name)))
    (hNames : AreDistinct names)
    (hLength : names.length ≤ columns.length)
    (h : Collides columns names) :
    ¬ ReadsApart columns names := by
  rintro ⟨f, hAssignment⟩
  apply h.not_injective hColumns
  intro i j hRead
  apply hAssignment.injective
  rw [hAssignment.eq_source hNames hLength,
    hAssignment.eq_source hNames hLength]
  exact Fin.ext hRead

/-
  Every parameter gets the value of the column that it reads.
  These columns are different ones if and only if no
  parameters collide.
-/
theorem readsApart_iff
    {columns : List Column}
    {names : List String}
    (hColumns : AreDistinct (columns.map (·.name)))
    (hNames : AreDistinct names)
    (hLength : names.length ≤ columns.length) :
    (∀ values s, Begins s columns values →
      (s.outputs names).entries =
        List.ofFn fun i => (names[i],
          values ⟨source columns names i,
            source_lt hLength i⟩)) ∧
    (ReadsApart columns names ↔ ¬ Collides columns names) := by
  have hValues (values : Fin columns.length → Value)
      (s : ResultSet)
      (hBegins : Begins s columns values) :=
    outputs_entries hNames hLength hBegins
  refine ⟨hValues, ?_, ?_⟩
  · intro hReads hCollides
    exact hCollides.not_readsApart hColumns hNames hLength hReads
  · intro hApart
    refine ⟨fun i => ⟨source columns names i,
      source_lt hLength i⟩, ?_, ?_, hValues⟩
    · intro i j hRead
      exact source_injective hNames hApart
        (congrArg Fin.val hRead)
    · intro i j hName
      exact Fin.ext (source_named hColumns hName)

/-
  A parameter has a column of its name, and another one reads
  its own position.
-/
theorem total_and_label_read_apart :
    AreDistinct ["total", "col2"] ∧
    AreDistinct ["TOTAL", "label"] ∧
    ReadsApart [⟨"total", "INT4"⟩, ⟨"col2", "TEXT"⟩]
      ["TOTAL", "label"] := by
  have hColumns : AreDistinct
      (List.map Column.name
        [⟨"total", "INT4"⟩, ⟨"col2", "TEXT"⟩]) := by
    unfold AreDistinct
    decide
  have hNames : AreDistinct ["TOTAL", "label"] := by
    unfold AreDistinct
    decide
  refine ⟨hColumns, hNames, ?_⟩
  exact (readsApart_iff hColumns hNames (by decide)).2.mpr
    (by decide)

/-
  Of the columns `a` and `b` the parameters `b` and `c` both
  read the second one: the one by its name, the other by its
  position.  The first value is lost.
-/
theorem second_column_is_read_twice :
    AreDistinct ["a", "b"] ∧
    AreDistinct ["b", "c"] ∧
    ¬ ReadsApart [⟨"a", "INT"⟩, ⟨"b", "INT"⟩] ["b", "c"] ∧
    (outputs ⟨[⟨"a", "INT"⟩, ⟨"b", "INT"⟩],
        [[.int 1, .int 2]], none⟩ ["b", "c"]).entries =
      [("b", .int 2), ("c", .int 2)] := by
  have hColumns : AreDistinct ["a", "b"] := by
    unfold AreDistinct
    decide
  have hNames : AreDistinct ["b", "c"] := by
    unfold AreDistinct
    decide
  refine ⟨hColumns, hNames, ?_, rfl⟩
  have hCollides :
      Collides [⟨"a", "INT"⟩, ⟨"b", "INT"⟩] ["b", "c"] := by
    decide
  exact hCollides.not_readsApart hColumns hNames (by decide)

end ResultSet

end Failover
