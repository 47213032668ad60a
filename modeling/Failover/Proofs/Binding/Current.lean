import Failover.Proofs.Binding.Values
import Failover.Proofs.Command.Outputs
import Failover.Proofs.Outcome.Failures

/-
  Commands whose output parameters have taken other values
  since they were bound.  They would be bound differently if a
  parameter that sends its value has taken another one, unless
  only a table is named.

  Key definitions include:
    * `Engine.Shows`
    * `Engine.quote`
    * `Command.SendsAs`

  Main statements:
    * `Engine.exists_shows`
    * `Engine.bind_later_iff`
-/

namespace Failover

open List (Forall₂)

------------------------------------------------------------
-- The same bound form
------------------------------------------------------------

/- Statements that are alike with the same arguments. -/
theorem Statement.Alike.eq
    {s t : Statement}
    (h : s.Alike Eq t) : s = t := by
  rcases s with ⟨sql, arguments⟩
  rcases t with ⟨sql', arguments'⟩
  rcases h with ⟨hSql, hArguments⟩
  rw [List.forall₂_eq_eq_eq] at hArguments
  cases hSql
  cases hArguments
  rfl

/- Captures with equal arguments are equal. -/
theorem OutputCapture.Alike.eq
    {k l : OutputCapture}
    (h : k.Alike Eq l) : k = l := by
  cases h with
  | none => rfl
  | mainRow => rfl
  | readback _ hStatement => rw [hStatement.eq]

/-
  Two bound commands with equal arguments in the same places
  are equal.
-/
theorem BoundCommand.Alike.eq
    {b d : BoundCommand}
    (h : b.Alike Eq d) : b = d := by
  rcases b with ⟨setup, main, outputs⟩
  rcases d with ⟨setup', main', outputs'⟩
  rcases h with ⟨hSetup, hMain, hOutputs⟩
  have hSame : Forall₂ Eq setup setup' :=
    hSetup.imp fun _ _ hStatement => hStatement.eq
  rw [List.forall₂_eq_eq_eq] at hSame
  cases hSame
  cases hMain.eq
  cases hOutputs.eq
  rfl

/- Commands that send the same are bound in the same way. -/
theorem Engine.bind_congr
    {c d : Command}
    (e : Engine)
    (h : c.Alike Eq d) : e.bind c = e.bind d := by
  have hAgrees := e.bind_alike h
  generalize e.bind c = x, e.bind d = y at hAgrees ⊢
  cases hAgrees with
  | ok hAlike => rw [hAlike.eq]
  | error cause => rfl

------------------------------------------------------------
-- Arguments in bound forms
------------------------------------------------------------

/-
  The arguments of parameters of some directions can be read
  off the bound form of a command of some kind.
-/
def Engine.Shows
    (e : Engine)
    (kind : CommandKind)
    (test : Direction → Bool)
    (shown : BoundCommand → List Argument) : Prop :=
  ∀ c b, c.kind = kind → e.bind c = .ok b →
    (c.parameters.filter (test ·.direction)).map (·.argument) =
      shown b

/- A search that finds nothing leaves nothing to filter. -/
theorem filter_of_find?
    {ps : List Parameter}
    {f : Parameter → Bool}
    (h : ps.find? f = none) : ps.filter f = [] :=
  List.filter_eq_nil_iff.mpr (List.find?_eq_none.mp h)

/- The embedded engine sends no outputs. -/
theorem Sqlite.shows
    (kind : CommandKind) :
    Engine.sqlite.Shows kind Direction.isOutput fun _ => [] := by
  intro c b _ hBound
  change Sqlite.bind c = .ok b at hBound
  unfold bind at hBound
  split at hBound
  · cases hBound
  · next hNone => rw [filter_of_find? hNone, List.map_nil]

namespace Postgres

/- A text of the first engine sends none either. -/
theorem shows_text :
    Engine.postgres.Shows .text Direction.isOutput fun _ => [] := by
  intro c b hKind hBound
  change Postgres.bind c = .ok b at hBound
  unfold bind bindText at hBound
  rw [hKind] at hBound
  simp only at hBound
  split at hBound
  · cases hBound
  · next hNone => rw [filter_of_find? hNone, List.map_nil]

/-
  A parameter adds its value to the arguments of a call if it
  sends one.
-/
theorem Call.add_arguments
    {k l : Call}
    {p : Parameter}
    (h : k.add p = .ok l) :
    l.arguments = k.arguments ++
      ([p].filter (·.direction.sendsValue)).map (·.argument) := by
  unfold Call.add at h
  cases hDirection : p.direction with
  | input =>
      rw [hDirection] at h
      cases h
      simp [hDirection, Direction.sendsValue]
  | inputOutput =>
      rw [hDirection] at h
      cases h
      simp [hDirection, Direction.sendsValue]
  | output =>
      rw [hDirection] at h
      cases h
      simp [hDirection, Direction.sendsValue]
  | returnValue =>
      rw [hDirection] at h
      simp only at h
      split at h
      · cases h
      · cases h
        simp [hDirection, Direction.sendsValue]

/-
  What holds of a call and the parameters that it was given,
  and still holds with one more, holds when all are given.
-/
theorem Call.addAll_keeps
    {P : Call → List Parameter → Prop}
    (hStep : ∀ k l ps p, P k ps → k.add p = .ok l →
      P l (ps ++ [p]))
    {k l : Call}
    {ps qs : List Parameter}
    (hStart : P k ps)
    (hAdd : qs.foldlM Call.add k = .ok l) : P l (ps ++ qs) := by
  induction qs generalizing k ps with
  | nil =>
      cases hAdd
      rwa [List.append_nil]
  | cons q qs ih =>
      rw [List.foldlM_cons] at hAdd
      rcases bind_eq_ok_iff.mp hAdd with ⟨k', hFirst, hRest⟩
      have hAll := ih (hStep k k' ps q hStart hFirst) hRest
      rwa [List.append_assoc] at hAll

/- A call has the values of those that send one. -/
theorem Call.addAll_arguments
    {ps : List Parameter}
    {k l : Call}
    (h : ps.foldlM Call.add k = .ok l) :
    l.arguments = k.arguments ++
      (ps.filter (·.direction.sendsValue)).map (·.argument) := by
  let P (l : Call) (ps : List Parameter) : Prop :=
    l.arguments = k.arguments ++
      (ps.filter (·.direction.sendsValue)).map (·.argument)
  have hStart : P k [] := (List.append_nil _).symm
  have hStep (j l : Call) (ps : List Parameter) (p : Parameter)
      (hBefore : P j ps)
      (hAdd : j.add p = .ok l) : P l (ps ++ [p]) := by
    change l.arguments = _
    rw [Call.add_arguments hAdd, hBefore, List.append_assoc,
      ← List.map_append, ← List.filter_append]
  exact Call.addAll_keeps hStep hStart h

/- The text of a call is made without touching its arguments. -/
theorem Call.finish_arguments
    {k : Call}
    {name : String}
    {b : BoundCommand}
    (h : k.finish name = .ok b) :
    b.main.arguments = k.arguments := by
  unfold Call.finish at h
  simp only at h
  split at h
  · split at h
    · cases h
    · cases h
      rfl
  · cases h
    rfl

/- A call of the first engine sends its inputs and outputs. -/
theorem shows_procedure :
    Engine.postgres.Shows .procedure Direction.sendsValue
      fun b => b.main.arguments := by
  intro c b hKind hBound
  change Postgres.bind c = .ok b at hBound
  unfold bind bindProcedure at hBound
  rw [hKind] at hBound
  rcases bind_eq_ok_iff.mp hBound with ⟨name, -, hName⟩
  rcases bind_eq_ok_iff.mp hName with ⟨call, hCall, hFinish⟩
  exact ((Call.finish_arguments hFinish).trans
    (Call.addAll_arguments hCall)).symm

end Postgres

namespace MySql

/- Each output comes with a variable of its own. -/
theorem outputVariables_fst
    {ps : List Parameter}
    {xs : List (Parameter × String)}
    (h : (ps.mapM fun p => do return (p, ← outputVariable p)) =
      .ok xs) : xs.map (·.1) = ps := by
  induction ps generalizing xs with
  | nil =>
      cases h
      rfl
  | cons p ps ih =>
      rw [List.mapM_cons] at h
      rcases bind_eq_ok_iff.mp h with ⟨x, hFirst, hNext⟩
      rcases bind_eq_ok_iff.mp hFirst with ⟨v, -, hPair⟩
      rcases bind_eq_ok_iff.mp hNext with ⟨ys, hRest, hAll⟩
      cases hPair
      cases hAll
      rw [List.map_cons, ih hRest]

/- Variables are set to the values that go both ways. -/
theorem initialise_arguments (xs : List (Parameter × String)) :
    (xs.map fun x => initialise x.1 x.2).flatMap (·.arguments) =
      ((xs.map (·.1)).filter (·.direction == .inputOutput)).map
        (·.argument) := by
  induction xs with
  | nil => rfl
  | cons x xs ih =>
      rw [List.map_cons, List.flatMap_cons, ih, List.map_cons]
      unfold initialise
      cases hDirection : x.1.direction <;> simp [hDirection]

/- These are all the values of the setup. -/
theorem outputPlan_arguments
    {c : Command}
    {setup : List Statement}
    {outputs : OutputCapture}
    (h : outputPlan c = .ok (setup, outputs)) :
    (c.parameters.filter (·.direction == .inputOutput)).map
        (·.argument) =
      setup.flatMap (·.arguments) := by
  have hAmong :
      c.parameters.filter (·.direction == .inputOutput) =
        (c.parameters.filter (·.direction.isOutput)).filter
          (·.direction == .inputOutput) := by
    rw [List.filter_filter]
    refine List.filter_congr fun p _ => ?_
    cases p.direction <;> rfl
  rw [hAmong]
  unfold outputPlan at h
  simp only at h
  split at h
  · next hEmpty =>
    cases h
    rw [List.isEmpty_iff.mp hEmpty]
    rfl
  · rcases bind_eq_ok_iff.mp h with ⟨pairs, hPairs, hPlan⟩
    cases hPlan
    rw [initialise_arguments, outputVariables_fst hPairs]

/- A text of the second engine sets its variables first. -/
theorem shows_text :
    Engine.mysql.Shows .text (· == .inputOutput)
      fun b => b.setup.flatMap (·.arguments) := by
  intro c b hKind hBound
  change MySql.bind c = .ok b at hBound
  unfold bind bindText at hBound
  rw [hKind] at hBound
  rcases bind_eq_ok_iff.mp hBound with ⟨⟨setup, outputs⟩, hPlan, hRest⟩
  cases hRest
  exact outputPlan_arguments hPlan

/- A call of the second engine sends what goes both ways. -/
theorem shows_procedure :
    Engine.mysql.Shows .procedure (· == .inputOutput)
      fun b => b.setup.flatMap (·.arguments) := by
  intro c b hKind hBound
  change MySql.bind c = .ok b at hBound
  unfold bind bindProcedure at hBound
  rw [hKind] at hBound
  rcases bind_eq_ok_iff.mp hBound with ⟨name, -, hName⟩
  rcases bind_eq_ok_iff.mp hName with ⟨⟨setup, outputs⟩, hPlan, hRest⟩
  rcases bind_eq_ok_iff.mp hRest with ⟨items, -, hItems⟩
  cases hItems
  exact outputPlan_arguments hPlan

end MySql

/-
  The bound form of a command shows the values that go both
  ways.
-/
theorem Engine.exists_shows
    (e : Engine)
    {kind : CommandKind}
    (hKind : kind ≠ .table) :
    ∃ test shown, test .inputOutput = true ∧
      e.Shows kind test shown := by
  cases e with
  | sqlite => exact ⟨_, _, rfl, Sqlite.shows kind⟩
  | postgres =>
      cases kind with
      | text => exact ⟨_, _, rfl, Postgres.shows_text⟩
      | procedure => exact ⟨_, _, rfl, Postgres.shows_procedure⟩
      | table => exact absurd rfl hKind
  | mysql =>
      cases kind with
      | text => exact ⟨_, _, rfl, MySql.shows_text⟩
      | procedure => exact ⟨_, _, rfl, MySql.shows_procedure⟩
      | table => exact absurd rfl hKind

------------------------------------------------------------
-- Later values
------------------------------------------------------------

/- What is sent and comes back has the same values in both. -/
def Command.SendsAs (c d : Command) : Prop :=
  Forall₂
    (fun p q => p.direction = .inputOutput → p.value = q.value)
    c.parameters d.parameters

/- The quotes that names stand between. -/
def Engine.quote : Engine → Char
  | .mysql => '`'
  | .postgres | .sqlite => '"'

/-
  A bound command of a table is the text that names the table,
  and no more.
-/
theorem Engine.bind_table
    {e : Engine}
    {c : Command}
    {b : BoundCommand}
    (hKind : c.kind = .table)
    (hBound : e.bind c = .ok b) :
    b = .single (.ofTable e.quote c) := by
  cases e with
  | postgres =>
      change Postgres.bind c = .ok b at hBound
      unfold Postgres.bind at hBound
      rw [hKind] at hBound
      cases hBound
      rfl
  | mysql =>
      change MySql.bind c = .ok b at hBound
      unfold MySql.bind at hBound
      rw [hKind] at hBound
      cases hBound
      rfl
  | sqlite =>
      change Sqlite.bind c = .ok b at hBound
      unfold Sqlite.bind at hBound
      rw [hKind] at hBound
      split at hBound
      · cases hBound
      · cases hBound
        rfl

theorem Engine.exists_quote (e : Engine) :
    ∃ quote, ∀ c b, c.kind = .table → e.bind c = .ok b →
      b = .single (.ofTable quote c) :=
  ⟨e.quote, fun _ _ => bind_table⟩

section
variable {c d : Command} (hLater : c.IsLater d)
include hLater

/- Later values have no part in the form of a command. -/
theorem Command.IsLater.sameForm : c.SameForm d := by
  refine ⟨hLater.text, hLater.kind, ?_⟩
  exact hLater.parameters.imp fun p q h =>
    ⟨h.name, h.direction, h.type, fun _ => trivial⟩

/- A later command that sends the same is bound the same. -/
theorem Command.IsLater.alike
    (hSends : c.SendsAs d) : c.Alike Eq d := by
  refine ⟨hLater.text, hLater.kind, ?_⟩
  have hBoth := hLater.parameters
  unfold SendsAs at hSends
  generalize c.parameters = ps, d.parameters = qs at hBoth hSends ⊢
  induction hBoth with
  | nil => exact .nil
  | @cons p q ps qs hFirst hRest ih =>
      cases hSends with
      | cons hSent hSents =>
          refine .cons ?_ (ih hSents)
          refine ⟨hFirst.name, hFirst.direction, hFirst.type,
            fun hValue => ?_⟩
          have hSame : p.value = q.value := by
            rcases p.direction.sendsValue_iff.mp hValue with
              hInput | hBack
            · exact hFirst.value (hFirst.direction.symm.trans hInput)
            · exact hSent hBack
          unfold Parameter.argument
          rw [hSame, hFirst.type]

/- Equal arguments of some parameters are equal values. -/
theorem Command.IsLater.sendsAs
    {test : Direction → Bool}
    (hTest : test .inputOutput = true)
    (hShown :
      (c.parameters.filter (test ·.direction)).map (·.argument) =
        (d.parameters.filter (test ·.direction)).map
          (·.argument)) :
    c.SendsAs d := by
  have hBoth := hLater.parameters
  unfold SendsAs
  generalize c.parameters = ps, d.parameters = qs at hBoth hShown ⊢
  induction hBoth with
  | nil => exact .nil
  | @cons p q ps qs hFirst hRest ih =>
      rw [List.filter_cons, List.filter_cons, hFirst.direction]
        at hShown
      cases hSeen : test q.direction with
      | false =>
          rw [hSeen] at hShown
          refine .cons (fun hBack => ?_) (ih hShown)
          rw [hFirst.direction] at hBack
          rw [hBack, hTest] at hSeen
          cases hSeen
      | true =>
          rw [hSeen, if_pos rfl, if_pos rfl, List.map_cons,
            List.map_cons, List.cons.injEq] at hShown
          refine .cons (fun _ => ?_) (ih hShown.2)
          exact congrArg Argument.value hShown.1

/-
  Whether a command is bound as it was before output values
  came: it is one of a table, or what it sends of them is what
  it sent then.
-/
theorem Engine.bind_later_iff
    {e : Engine}
    {b : BoundCommand}
    (hBound : e.bind d = .ok b) :
    e.bind c = .ok b ↔ c.kind = .table ∨ c.SendsAs d := by
  constructor
  · intro hSame
    by_cases hKind : c.kind = .table
    · exact .inl hKind
    · rcases e.exists_shows hKind with
        ⟨test, shown, hTest, hShows⟩
      refine .inr (hLater.sendsAs hTest ?_)
      rw [hShows c b rfl hSame,
        hShows d b hLater.kind.symm hBound]
  · rintro (hTable | hSends)
    · have hAgrees := e.bind_alike hLater.sameForm
      rw [hBound] at hAgrees
      rcases e.exists_quote with ⟨quote, hQuote⟩
      generalize hThis : e.bind c = x at hAgrees ⊢
      cases hAgrees with
      | ok hAlike =>
          have hNow := hQuote c _ hTable hThis
          have hThen := hQuote d b (hLater.kind ▸ hTable) hBound
          rw [hNow, hThen]
          unfold Statement.ofTable
          rw [hLater.text]
    · rw [e.bind_congr (hLater.alike hSends), hBound]

end

end Failover
