import Failover.Proofs.Binding.Current
import Failover.Proofs.Command.Outputs

/-
  Which output parameters a bound command reports.  They are
  all those of the command, in their order, unless only a
  table is named: two engines then take no notice of them,
  while SQLite has none in any command.

  Key definitions include:
    * `Command.outputNames`
    * `Engine.IgnoresOutputs`
    * `Provider.CapturesOutputs`

  Main statements:
    * `Engine.bind_captures`
    * `Provider.capturesOutputs_iff`
-/

namespace Failover

------------------------------------------------------------
-- Output parameters
------------------------------------------------------------

/- The names of parameters that the engine reports back. -/
def outputNames (ps : List Parameter) : List String :=
  (ps.filter (·.direction.isOutput)).map (·.name)

def Command.outputNames (c : Command) : List String :=
  Failover.outputNames c.parameters

/-
  A command without an output among its parameters has no
  output names.
-/
theorem outputNames_of_find?
    {ps : List Parameter}
    (h : ps.find? (·.direction.isOutput) = none) :
    outputNames ps = [] := by
  rw [outputNames, filter_of_find? h, List.map_nil]

/- Names of their own are told apart among outputs as well. -/
theorem Command.IsNamed.outputNames_distinct
    {c : Command}
    (h : c.IsNamed) : AreDistinct c.outputNames :=
  h.distinct.sublist (List.filter_sublist.map _)

------------------------------------------------------------
-- Procedures of PostgreSQL
------------------------------------------------------------

namespace Postgres

/- The parameter is the return value of a function. -/
def isResult (p : Parameter) : Bool :=
  p.direction == .returnValue

/- The parameter has a column in the row of a procedure. -/
def isWritten (p : Parameter) : Bool :=
  p.direction.isOutput && !isResult p

/- A call has the outputs of the parameters up to here. -/
structure Call.Covers
    (k : Call)
    (ps : List Parameter) : Prop where
  outputs : k.outputs = (ps.filter isWritten).map (·.name)
  result :
    k.returnValue.toList = (ps.filter isResult).map (·.name)

namespace Call

theorem covers_empty : Call.empty.Covers [] := ⟨rfl, rfl⟩

/- A parameter more is covered by a call that takes it. -/
theorem Covers.add
    {k l : Call}
    {ps : List Parameter}
    {p : Parameter}
    (h : k.Covers ps)
    (hAdd : k.add p = .ok l) : l.Covers (ps ++ [p]) := by
  rcases h with ⟨hOutputs, hResult⟩
  unfold Call.add at hAdd
  cases hDirection : p.direction with
  | input =>
      rw [hDirection] at hAdd
      cases hAdd
      constructor <;>
        simp [hOutputs, hResult, isWritten, isResult,
          Direction.isOutput, hDirection]
  | inputOutput =>
      rw [hDirection] at hAdd
      cases hAdd
      constructor <;>
        simp [hOutputs, hResult, isWritten, isResult,
          Direction.isOutput, hDirection]
  | output =>
      rw [hDirection] at hAdd
      cases hAdd
      constructor <;>
        simp [hOutputs, hResult, isWritten, isResult,
          Direction.isOutput, hDirection]
  | returnValue =>
      rw [hDirection] at hAdd
      simp only at hAdd
      split at hAdd
      · cases hAdd
      · next hFirst =>
        rw [Bool.not_eq_true, Option.isSome_eq_false_iff,
          Option.isNone_iff_eq_none] at hFirst
        rw [hFirst, Option.toList_none] at hResult
        cases hAdd
        constructor <;>
          simp [hOutputs, ← hResult, isWritten, isResult,
            Direction.isOutput, hDirection]

/-
  Parameters that are added one after the other are all
  covered.
-/
theorem Covers.addAll
    {k l : Call}
    {ps qs : List Parameter}
    (h : k.Covers ps)
    (hAdd : qs.foldlM Call.add k = .ok l) :
    l.Covers (ps ++ qs) :=
  addAll_keeps (fun _ _ _ _ hBefore hAdd => hBefore.add hAdd) h
    hAdd

/- Every output is written, or the return value. -/
theorem outputNames_of_written
    {ps : List Parameter}
    (h : ps.filter isResult = []) :
    outputNames ps = (ps.filter isWritten).map (·.name) := by
  refine congrArg (List.map _) (List.filter_congr fun p hMem => ?_)
  have hNot := List.filter_eq_nil_iff.mp h p hMem
  simp [isWritten, hNot]

/-
  Where no parameter is written, the output names are those
  of returned values.
-/
theorem outputNames_of_result
    {ps : List Parameter}
    (h : ps.filter isWritten = []) :
    outputNames ps = (ps.filter isResult).map (·.name) := by
  refine congrArg (List.map _) (List.filter_congr fun p hMem => ?_)
  have hNot := List.filter_eq_nil_iff.mp h p hMem
  unfold isWritten isResult at hNot
  unfold isResult
  generalize p.direction = direction at hNot ⊢
  cases direction with
  | input => rfl
  | output => exact absurd rfl hNot
  | inputOutput => exact absurd rfl hNot
  | returnValue => rfl

/- A finished call reports whatever it covers. -/
theorem Covers.finish
    {k : Call}
    {ps : List Parameter}
    {name : String}
    {b : BoundCommand}
    (h : k.Covers ps)
    (hFinish : k.finish name = .ok b) :
    b.outputs.names = outputNames ps := by
  rcases h with ⟨hOutputs, hResult⟩
  unfold Call.finish at hFinish
  simp only at hFinish
  split at hFinish
  · next result hSome =>
    split at hFinish
    · cases hFinish
    · next hNone =>
      rw [Bool.not_eq_true, Bool.not_eq_false',
        List.isEmpty_iff, hOutputs, List.map_eq_nil_iff]
        at hNone
      cases hFinish
      rw [outputNames_of_result hNone, ← hResult, hSome]
      rfl
  · next hNone =>
    rw [hNone, Option.toList_none, eq_comm, List.map_eq_nil_iff]
      at hResult
    cases hFinish
    rw [outputNames_of_written hResult, ← hOutputs]
    cases k.outputs <;> rfl

end Call

theorem bindProcedure_captures
    {c : Command}
    {b : BoundCommand}
    (h : bindProcedure c = .ok b) :
    b.outputs.names = c.outputNames := by
  rcases bind_eq_ok_iff.mp h with ⟨name, -, hName⟩
  rcases bind_eq_ok_iff.mp hName with ⟨call, hCall, hFinish⟩
  exact (Call.covers_empty.addAll hCall).finish hFinish

/- A bound text captures the outputs of its command in order. -/
theorem bindText_captures
    {c : Command}
    {b : BoundCommand}
    (h : bindText c = .ok b) :
    b.outputs.names = c.outputNames := by
  unfold bindText at h
  split at h
  · cases h
  · next hNone =>
    cases h
    exact (outputNames_of_find? hNone).symm

end Postgres

------------------------------------------------------------
-- Session variables of MySQL
------------------------------------------------------------

namespace MySql

/- The plan of the outputs captures them all in order. -/
theorem outputPlan_captures
    {c : Command}
    {setup : List Statement}
    {outputs : OutputCapture}
    (h : outputPlan c = .ok (setup, outputs)) :
    outputs.names = c.outputNames := by
  unfold outputPlan at h
  simp only at h
  split at h
  · next hEmpty =>
    cases h
    rw [Command.outputNames, outputNames,
      List.isEmpty_iff.mp hEmpty]
    rfl
  · rcases bind_eq_ok_iff.mp h with ⟨pairs, -, hPlan⟩
    cases hPlan
    rfl

theorem bindText_captures
    {c : Command}
    {b : BoundCommand}
    (h : bindText c = .ok b) :
    b.outputs.names = c.outputNames := by
  rcases bind_eq_ok_iff.mp h with ⟨⟨setup, outputs⟩, hPlan, hRest⟩
  cases hRest
  exact outputPlan_captures hPlan

theorem bindProcedure_captures
    {c : Command}
    {b : BoundCommand}
    (h : bindProcedure c = .ok b) :
    b.outputs.names = c.outputNames := by
  rcases bind_eq_ok_iff.mp h with ⟨name, -, hName⟩
  rcases bind_eq_ok_iff.mp hName with ⟨⟨setup, outputs⟩, hPlan, hRest⟩
  rcases bind_eq_ok_iff.mp hRest with ⟨items, -, hItems⟩
  cases hItems
  exact outputPlan_captures hPlan

end MySql

------------------------------------------------------------
-- Any engine
------------------------------------------------------------

/-
  Only commands without outputs are bound here, and nothing
  is captured.
-/
theorem Sqlite.bind_captures
    {c : Command}
    {b : BoundCommand}
    (h : bind c = .ok b) :
    b.outputs.names = [] ∧ c.outputNames = [] := by
  unfold bind at h
  split at h
  · cases h
  · next hNone =>
    refine ⟨?_, outputNames_of_find? hNone⟩
    split at h
    · cases h
      rfl
    · cases h
      rfl
    · cases h

/-
  Outputs of a command that names a table.  PostgreSQL and
  MySQL read the table without looking at them.
-/
structure Engine.IgnoresOutputs
    (e : Engine)
    (c : Command) : Prop where
  engine : e ≠ .sqlite
  kind : c.kind = .table
  outputs : c.outputNames ≠ []

/- A command with ignored outputs is bound all the same. -/
theorem Engine.IgnoresOutputs.bind
    {e : Engine}
    {c : Command}
    (h : e.IgnoresOutputs c) :
    ∃ b, e.bind c = .ok b ∧ b.outputs.names = [] := by
  rcases h with ⟨hEngine, hKind, -⟩
  cases e with
  | sqlite => exact absurd rfl hEngine
  | postgres =>
      refine ⟨.single (.ofTable '"' c), ?_, rfl⟩
      unfold Engine.bind Postgres.bind
      rw [hKind]
  | mysql =>
      refine ⟨.single (.ofTable '`' c), ?_, rfl⟩
      unfold Engine.bind MySql.bind
      rw [hKind]

/- All other bound commands report their outputs in order. -/
theorem Engine.bind_captures
    {e : Engine}
    {c : Command}
    {b : BoundCommand}
    (hBound : e.bind c = .ok b)
    (hMinds : ¬ e.IgnoresOutputs c) :
    b.outputs.names = c.outputNames := by
  have hTable (hEngine : e ≠ .sqlite) (hKind : c.kind = .table) :
      c.outputNames = [] := by
    by_contra hOutputs
    exact hMinds ⟨hEngine, hKind, hOutputs⟩
  cases e with
  | sqlite =>
      rcases Sqlite.bind_captures hBound with ⟨hNone, hEmpty⟩
      rw [hNone, hEmpty]
  | postgres =>
      change Postgres.bind c = .ok b at hBound
      unfold Postgres.bind at hBound
      split at hBound
      · exact Postgres.bindText_captures hBound
      · next hKind =>
        rw [hTable (by decide) hKind]
        cases hBound
        rfl
      · exact Postgres.bindProcedure_captures hBound
  | mysql =>
      change MySql.bind c = .ok b at hBound
      unfold MySql.bind at hBound
      split at hBound
      · exact MySql.bindText_captures hBound
      · next hKind =>
        rw [hTable (by decide) hKind]
        cases hBound
        rfl
      · exact MySql.bindProcedure_captures hBound

------------------------------------------------------------
-- Providers
------------------------------------------------------------

namespace Provider

/-
  The command is refused because it cannot be bound, or its
  bound form reports its outputs, each of them once and in
  the order of their declaration.
-/
def CapturesOutputs
    (p : Provider)
    (repository : String)
    (c : Command) : Prop :=
  (∃ m, p.bind c = .error (.commandBinding repository m)) ∨
    ∃ b, p.bind c = .ok b ∧ b.outputs.names = c.outputNames

/-
  A built-in provider loses the outputs of a command exactly
  if its engine ignores them.  It then binds the command as
  though it had none.
-/
theorem capturesOutputs_iff
    (e : Engine)
    (s : Settings)
    (c : Command) :
    ((ofEngine e s).CapturesOutputs s.repository c ↔
        ¬ e.IgnoresOutputs c) ∧
      (e.IgnoresOutputs c →
        ∃ b, (ofEngine e s).bind c = .ok b ∧
          b.outputs.names = []) ∧
      (c.IsNamed → AreDistinct c.outputNames) := by
  have hIgnored (h : e.IgnoresOutputs c) :
      ∃ b, (ofEngine e s).bind c = .ok b ∧
        b.outputs.names = [] := by
    rcases h.bind with ⟨b, hBound, hNames⟩
    exact ⟨b, ofEngine_bind_iff.mpr hBound, hNames⟩
  refine ⟨⟨?_, ?_⟩, hIgnored, (·.outputNames_distinct)⟩
  · rintro hCaptures h
    rcases hIgnored h with ⟨b, hBound, hNone⟩
    rcases hCaptures with ⟨m, hRefused⟩ | ⟨b', hBound', hNames⟩
    · rw [hBound] at hRefused
      cases hRefused
    · rw [hBound] at hBound'
      cases hBound'
      exact h.outputs (hNames.symm.trans hNone)
  · intro hMinds
    cases hBound : e.bind c with
    | error cause =>
        refine .inl ⟨cause.message, ?_⟩
        change (e.bind c).mapError _ = _
        rw [hBound]
        rfl
    | ok b =>
        exact .inr ⟨b, ofEngine_bind_iff.mpr hBound,
          e.bind_captures hBound hMinds⟩

/- A table with a total that is to be reported back. -/
def totalled : Command :=
  { Command.ofText .table "orders" with
    parameters := [⟨"total", .output, .int, none, .null⟩] }

/- The total is an output of its own, and no one has it. -/
theorem table_loses_total :
    let p := ofEngine .postgres ⟨"a", "", none, {}⟩
    totalled.outputNames = ["total"] ∧
      (∃ b, p.bind totalled = .ok b ∧ b.outputs.names = []) ∧
      ¬ p.CapturesOutputs "a" totalled := by
  intro p
  refine ⟨rfl, ⟨_, rfl, rfl⟩, ?_⟩
  rintro (⟨m, hRefused⟩ | ⟨b, hBound, hNames⟩)
  · cases hRefused
  · cases hBound
    cases hNames

end Provider

end Failover
