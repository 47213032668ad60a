import Failover.Proofs.Outcome.Failures
import Failover.Proofs.Sql.Replacement
import Failover.Provider.Basic

/-
  How the text of a command is bound where the engine has
  rules of its own for strings and comments.  As long as the
  text needs none of them it is bound as the engine reads it.

  Key definitions include:
    * `Postgres.rules`, `MySql.rules`
    * `Command.substitution`
    * `Statement.ofReading`
    * `Statement.IsScanned`

  Main statements:
    * `Statement.ofText_eq`
    * `Provider.text_is_scanned`
-/

namespace Failover

------------------------------------------------------------
-- The rules of the engines
------------------------------------------------------------

/- Comments of PostgreSQL nest. -/
def Postgres.rules : Sql.Rules :=
  { lexis := Postgres.lexis
    nestedComments := true
    hashComments := false }

/- A number sign opens a comment of MySQL. -/
def MySql.rules : Sql.Rules :=
  { lexis := MySql.lexis
    nestedComments := false
    hashComments := true }

------------------------------------------------------------
-- Statements of a reading
------------------------------------------------------------

/- The references of a command's text are those to inputs. -/
def Command.substitution
    (c : Command)
    (numbered : Bool)
    (placeholder : Nat → Nat → String) : Sql.Substitution :=
  { numbered
    index? := fun name =>
      c.parameters.findIdx? (·.isInputNamed name)
    placeholder }

def Postgres.substitution (c : Command) : Sql.Substitution :=
  c.substitution true fun position i =>
    Postgres.placeholder position
      (Postgres.typeAt c.parameters i)

def MySql.substitution (c : Command) : Sql.Substitution :=
  c.substitution false fun _ _ => "?"

/-
  The statement for a reading of a text.  A text without a
  reference takes its inputs in the order of declaration.
-/
def Statement.ofReading
    (w : Sql.Substitution)
    (ps : List Parameter)
    (ts : List Sql.Token) : Statement :=
  let known := ts.filterMap w.target?
  let order :=
    if known = [] then inputIndices ps else w.arguments known
  ⟨String.ofList (w.replaced ts),
    order.filterMap fun i => ps[i]?.map (·.argument)⟩

/- A text is bound as it is scanned. -/
theorem Statement.ofText_eq
    (lex : Sql.Lexis)
    (numbered : Bool)
    (placeholder : Nat → Nat → String)
    (c : Command) :
    Statement.ofText lex numbered placeholder c =
      .ofReading (c.substitution numbered placeholder)
        c.parameters (Sql.tokens lex c.text.toList) := by
  unfold ofText
  simp only [Sql.substitute_eq, List.length_eq_zero_iff]
  rfl

------------------------------------------------------------
-- Strings and comments
------------------------------------------------------------

/-
  The statement that is made of a text by the shared rules,
  for an engine that has others as well.  However the engine
  may read a text, what is opaque to it is spared up to the
  first token that is not one of the shared rules.  Without a
  token of the other rules the statement is that of the
  engine's reading, in which opaque text stays as it is and
  has no argument.
-/
structure Statement.IsScanned
    (rules : Sql.Rules)
    (w : Sql.Substitution)
    (c : Command)
    (s : Statement) : Prop where
  scanned :
    s = .ofReading w c.parameters
      (Sql.tokens rules.lexis c.text.toList)
  spares :
    ∀ ts place, ts.flatMap Sql.Token.chars = c.text.toList →
      w.Spoils rules.lexis ts place →
      ∃ before t after, ts = before ++ t :: after ∧
        (before.flatMap Sql.Token.chars).length ≤ place ∧
        ¬ Sql.Begins rules.lexis t
          (after.flatMap Sql.Token.chars)
  spoils :
    ∀ place,
      w.Spoils rules.lexis (rules.tokens c.text.toList) place →
      ∃ t n, Sql.IsAt (rules.tokens c.text.toList) t n ∧
        n ≤ place ∧ ¬ t.IsShared
  same :
    Sql.tokens rules.lexis c.text.toList =
        rules.tokens c.text.toList ↔
      ∀ t ∈ rules.tokens c.text.toList, t.IsShared
  read :
    (∀ t ∈ rules.tokens c.text.toList, t.IsShared) →
      s = .ofReading w c.parameters
          (rules.tokens c.text.toList) ∧
        ∀ t ∈ rules.tokens c.text.toList, t.IsOpaque →
          w.target? t = none ∧
            ∀ before, w.written before t = t.chars

theorem Statement.isScanned
    {rules : Sql.Rules}
    {w : Sql.Substitution}
    {c : Command}
    {s : Statement}
    (h :
      s = .ofReading w c.parameters
        (Sql.tokens rules.lexis c.text.toList)) :
    s.IsScanned rules w c := by
  refine ⟨h, fun _ _ _ hSpoils => hSpoils.not_begins,
    fun _ => Sql.Rules.not_isShared_of_spoils,
    rules.tokens_eq_iff _, fun hShared => ⟨?_, ?_⟩⟩
  · rw [h, (rules.tokens_eq_iff _).mpr hShared]
  · exact fun t _ => w.spares_opaque

theorem Postgres.bindText_isScanned
    {c : Command}
    {b : BoundCommand}
    (h : Postgres.bindText c = .ok b) :
    b.main.IsScanned Postgres.rules (Postgres.substitution c)
      c := by
  unfold bindText at h
  split at h
  · cases h
  · cases h
    exact Statement.isScanned (Statement.ofText_eq ..)

theorem MySql.bindText_isScanned
    {c : Command}
    {b : BoundCommand}
    (h : MySql.bindText c = .ok b) :
    b.main.IsScanned MySql.rules (MySql.substitution c) c := by
  rcases bind_eq_ok_iff.mp h with ⟨⟨setup, outputs⟩, -, hRest⟩
  cases hRest
  exact Statement.isScanned (Statement.ofText_eq ..)

namespace Provider

/-
  Text that is a string or a comment for the engine is never
  rewritten, as long as it takes no rule beyond the shared
  ones to read it.
-/
theorem text_is_scanned
    (s : Settings)
    (c : Command) :
    (∀ b, c.kind = .text →
      (ofEngine .postgres s).bind c = .ok b →
      b.main.IsScanned Postgres.rules
        (Postgres.substitution c) c) ∧
    (∀ b, c.kind = .text →
      (ofEngine .mysql s).bind c = .ok b →
      b.main.IsScanned MySql.rules
        (MySql.substitution c) c) := by
  constructor
  · intro b hKind hBound
    have hText : Postgres.bind c = .ok b :=
      ofEngine_bind_iff.mp hBound
    rw [Postgres.bind, hKind] at hText
    exact Postgres.bindText_isScanned hText
  · intro b hKind hBound
    have hText : MySql.bind c = .ok b :=
      ofEngine_bind_iff.mp hBound
    rw [MySql.bind, hKind] at hText
    exact MySql.bindText_isScanned hText

/- A query for two numbers. -/
def selecting (text : String) : Command :=
  { Command.ofText .text text with
    parameters :=
      [⟨"a", .input, .int, none, .int 1⟩,
        ⟨"b", .input, .int, none, .int 2⟩] }

/-
  A reference is replaced in a string with a digit in its tag,
  behind a comment in a comment, and behind a number sign.
-/
theorem strings_are_rewritten :
    let tagged := selecting "SELECT @b, $t1$ @a $t1$"
    let nested := selecting "SELECT @b /* /* */ @a */"
    let hashed := selecting "SELECT @b # @a"
    (∃ b, (ofEngine .postgres ⟨"a", "", none, {}⟩).bind tagged =
        .ok b ∧
      b.main.sql = "SELECT $1, $t1$ $2 $t1$" ∧
      b.main.arguments.length = 2) ∧
    (Postgres.substitution tagged).Spoils Postgres.lexis
      (Postgres.rules.tokens tagged.text.toList) 16 ∧
    (∃ b, (ofEngine .postgres ⟨"a", "", none, {}⟩).bind nested =
        .ok b ∧
      b.main.sql = "SELECT $1 /* /* */ $2 */" ∧
      b.main.arguments.length = 2) ∧
    (Postgres.substitution nested).Spoils Postgres.lexis
      (Postgres.rules.tokens nested.text.toList) 19 ∧
    (∃ b, (ofEngine .mysql ⟨"a", "", none, {}⟩).bind hashed =
        .ok b ∧
      b.main.sql = "SELECT ? # ?" ∧
      b.main.arguments.length = 2) ∧
    (MySql.substitution hashed).Spoils MySql.lexis
      (MySql.rules.tokens hashed.text.toList) 12 := by
  intro tagged nested hashed
  refine ⟨⟨_, rfl, by decide +kernel, by decide +kernel⟩, ?_,
    ⟨_, rfl, by decide +kernel, by decide +kernel⟩, ?_,
    ⟨_, rfl, by decide +kernel, by decide +kernel⟩, ?_⟩
  · refine ⟨.reference ['a'], .body "$t1$ @a $t1$".toList, 11,
      Sql.isAt_of_getElem? 15 ?_ ?_, ?_,
      Sql.isAt_of_getElem? 10 ?_ ?_, trivial, ?_, ?_⟩ <;>
      decide +kernel
  · refine ⟨.reference ['a'],
      .comment "/* /* */ @a */".toList, 10,
      Sql.isAt_of_getElem? 11 ?_ ?_, ?_,
      Sql.isAt_of_getElem? 9 ?_ ?_, trivial, ?_, ?_⟩ <;>
      decide +kernel
  · refine ⟨.reference ['a'], .comment "# @a".toList, 10,
      Sql.isAt_of_getElem? 11 ?_ ?_, ?_,
      Sql.isAt_of_getElem? 9 ?_ ?_, trivial, ?_, ?_⟩ <;>
      decide +kernel

end Provider

end Failover
