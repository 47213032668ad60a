import Failover.Proofs.Binding.Procedure

/-
  Session variables of MySQL.  An output travels in a variable
  of its own name, without the white space around that.  It is
  set before the command, passed by a call and read back.  The
  names of parameters have no at signs in front, but there may
  be white space behind a sign that was left out, and only then
  may two outputs share a variable.

  Key definitions include:
    * `Command.IsBuilt`
    * `IsIndented`, `Sql.IsWord`
    * `MySql.variableOf`
    * `MySql.Initialises`, `MySql.Tracks`

  Main statements:
    * `MySql.outputPlan_tracks`
    * `Command.IsBuilt.variables_shared_iff`
    * `Provider.outputs_are_tracked`
-/

namespace Failover

open List (Forall₂)

------------------------------------------------------------
-- Names of parameters
------------------------------------------------------------

/- White space comes first in a name. -/
def IsIndented (name : String) : Prop :=
  ∃ c ∈ name.toList.head?, Text.isBlank c = true

/- The last character of a name is no white space. -/
def IsClosed (name : String) : Prop :=
  ∀ c ∈ name.toList.getLast?, Text.isBlank c = false

/- A trimmed text does not end in what is trimmed. -/
theorem trimBoth_getLast?
    {p : Char → Bool}
    {cs : List Char}
    {c : Char}
    (h : c ∈ (Text.trimBoth p cs).getLast?) : p c = false := by
  rw [Text.trimBoth, List.getLast?_reverse] at h
  have hHead := List.head?_dropWhile_not p
    (cs.dropWhile p).reverse
  rw [Option.mem_def.mp h] at hHead
  simpa using hHead

/- Trimming brings in no character. -/
theorem mem_of_mem_trimBoth
    {p : Char → Bool}
    {cs : List Char}
    {c : Char}
    (h : c ∈ Text.trimBoth p cs) : c ∈ cs := by
  rw [Text.trimBoth, List.mem_reverse] at h
  have hOnce := (List.dropWhile_sublist p).mem h
  rw [List.mem_reverse] at hOnce
  exact (List.dropWhile_sublist p).mem hOnce

/-
  Leaving out the at signs in front does not touch the end of
  a name.
-/
theorem isClosed_normalName (raw : String) :
    IsClosed (Parameter.normalName raw) := by
  intro c hLast
  rw [Parameter.normalName, bareName, String.toList_ofList] at hLast
  rcases List.dropWhile_suffix (· == '@')
    (l := (Text.trim raw).toList) with ⟨signs, hSplit⟩
  have hWhole : c ∈ (Text.trim raw).toList.getLast? := by
    rw [← hSplit, List.getLast?_append, Option.mem_def.mp hLast]
    rfl
  rw [Text.trim, String.toList_ofList] at hWhole
  exact trimBoth_getLast? hWhole

/-
  A name without white space at its ends is as it is after
  trimming.
-/
theorem trim_of_not_isIndented
    {name : String}
    (hFirst : ¬ IsIndented name)
    (hLast : IsClosed name) : Text.trim name = name := by
  have hHead : ∀ c ∈ name.toList.head?,
      Text.isBlank c = false := by
    intro c hMem
    by_contra hBlank
    exact hFirst ⟨c, hMem, by simpa using hBlank⟩
  rw [Text.trim, Text.trimBoth_eq_self _ _ hHead hLast,
    String.ofList_toList]

namespace Command

/- The parameters that an engine reports back. -/
def outputParameters (c : Command) : List Parameter :=
  c.parameters.filter (·.direction.isOutput)

/-
  A command that is no table, with parameters that were added
  one by one.
-/
inductive IsBuilt : Command → Prop where
  | ofText
      (text : String)
      {kind : CommandKind}
      (hKind : kind ≠ .table) : IsBuilt (.ofText kind text)
  | add
      {c : Command}
      {p : Parameter}
      {raw : String}
      (hBuilt : IsBuilt c)
      (hName : p.name = Parameter.normalName raw) :
      IsBuilt (c.add p)

/- A normal name has no at sign in front. -/
theorem bareName_added
    {p : Parameter}
    {raw : String}
    (hName : p.name = Parameter.normalName raw) :
    bareName p.name = p.name := by
  rw [hName]
  exact bareName_bareName _

namespace IsBuilt

variable {c : Command}

/- A built command is no table. -/
theorem kind (h : c.IsBuilt) : c.kind ≠ .table := by
  induction h with
  | ofText text hKind => exact hKind
  | add hBuilt hName ih => exact ih

/-
  The parameters of a command that was built are told apart by
  name.
-/
theorem isNamed (h : c.IsBuilt) : c.IsNamed := by
  induction h with
  | ofText text hKind => exact isNamed_ofText _ text
  | add hBuilt hName ih => exact ih.add_of_bare (bareName_added hName)

/- No name in a command that was built ends in white space. -/
theorem isClosed
    (h : c.IsBuilt) : ∀ n ∈ c.names, IsClosed n := by
  induction h with
  | ofText text hKind => exact nofun
  | @add c p raw hBuilt hName ih =>
      have hAdded :=
        insertParameter_distinct (bareName_added hName)
          hBuilt.isNamed.distinct
      intro n hMem
      rcases hAdded.2 n hMem with rfl | hThere
      · rw [hName]
        exact isClosed_normalName raw
      · exact ih n hThere

end IsBuilt

end Command

------------------------------------------------------------
-- Variables
------------------------------------------------------------

/- Some ASCII letters, digits and underscores. -/
def Sql.IsWord (s : String) : Prop :=
  s ≠ "" ∧ ∀ c ∈ s.toList, Text.isWordChar c = true

/- A routine has a name. -/
theorem Sql.IsRoutine.ne_empty
    {name : String}
    (h : IsRoutine name) : name ≠ "" := by
  rcases h with ⟨parts, hSome, hName, hParts⟩
  rintro rfl
  cases parts with
  | nil => exact hSome rfl
  | cons part rest =>
      have hPart := (hParts part List.mem_cons_self).1
      cases rest with
      | nil => exact hPart (by simpa using hName.symm)
      | cons next rest =>
          change [] = part ++ '.' :: _ at hName
          simp at hName

namespace MySql

/- The variable of a parameter. -/
def variableOf (p : Parameter) : String :=
  "@" ++ Text.trim p.name

/- Variables are the same if the trimmed names are. -/
theorem sameName_variableOf (p q : Parameter) :
    Text.sameName (variableOf p) (variableOf q) =
      Text.sameName (Text.trim p.name) (Text.trim q.name) := by
  unfold variableOf Text.sameName
  simp [String.toList_append]

/- A variable is an at sign and a word. -/
theorem eq_of_sessionVariable
    {name v : String}
    (h : sessionVariable name = .ok v) :
    v = "@" ++ Text.trim name ∧ Sql.IsWord (Text.trim name) := by
  unfold sessionVariable at h
  split at h
  · cases h
  · next hDots =>
    cases hRoutine : BindingError.requireRoutine name with
    | error cause =>
        rw [hRoutine] at h
        cases h
    | ok routine =>
        rw [hRoutine] at h
        cases h
        rcases Sql.isRoutine_of_requireRoutine hRoutine with
          ⟨rfl, hName⟩
        refine ⟨rfl, hName.ne_empty, fun c hMem => ?_⟩
        rcases hName.chars hMem with rfl | hWord
        · rw [Text.trim, String.toList_ofList] at hMem
          simp [mem_of_mem_trimBoth hMem] at hDots
        · exact hWord

/- The variable of an output is made of its trimmed name. -/
theorem eq_of_outputVariable
    {p : Parameter}
    {v : String}
    (h : outputVariable p = .ok v) :
    p.direction ≠ .returnValue ∧ v = variableOf p ∧
      Sql.IsWord (Text.trim p.name) := by
  rcases sessionVariable_of_outputVariable h with
    ⟨hPassed, hVariable⟩
  exact ⟨hPassed, eq_of_sessionVariable hVariable⟩

/- The statement sets a variable to the value that is sent. -/
inductive Initialises
    (p : Parameter)
    (v : String) : Statement → Prop where
  | value (hDirection : p.direction = .inputOutput) :
      Initialises p v ⟨"SET " ++ v ++ " = ?", [p.argument]⟩
  | null (hDirection : p.direction = .output) :
      Initialises p v ⟨"SET " ++ v ++ " = NULL", []⟩

/- A variable is set to the value, or to nothing. -/
theorem initialise_initialises
    {p : Parameter}
    (v : String)
    (hOutput : p.direction.isOutput = true)
    (hPassed : p.direction ≠ .returnValue) :
    Initialises p v (initialise p v) := by
  unfold initialise
  cases hDirection : p.direction with
  | input =>
      rw [hDirection] at hOutput
      cases hOutput
  | output => exact .null hDirection
  | inputOutput => exact .value hDirection
  | returnValue => exact absurd hDirection hPassed

/- The column has the value of a variable under a name. -/
def Reads
    (p : Parameter)
    (v : String)
    (column : String) : Prop :=
  column = "CAST(" ++ v ++ " AS " ++ p.type.inMySql ++ ") AS " ++
    Sql.quoteIdentifier '`' p.name

/- What stands for a parameter in a call. -/
def Passes
    (p : Parameter)
    (v : String)
    (item : String) : Prop :=
  item = if p.direction = .input then "?" else v

/-
  The statements around a command follow its outputs, one for
  one.
-/
structure TracksOutputs
    (outs : List Parameter)
    (setup : List Statement)
    (capture : OutputCapture) : Prop where
  word : ∀ p ∈ outs, Sql.IsWord (Text.trim p.name)
  setup :
    Forall₂ (fun p s => Initialises p (variableOf p) s) outs setup
  unread : outs = [] → capture = .none
  readback : outs ≠ [] →
    ∃ columns,
      capture =
        .readback ⟨"SELECT " ++ ", ".intercalate columns, []⟩
          (outs.map (·.name)) ∧
      Forall₂ (fun p x => Reads p (variableOf p) x) outs columns

/- The plan sets a variable for each output and reads it. -/
theorem outputPlan_tracks
    {c : Command}
    {setup : List Statement}
    {capture : OutputCapture}
    (h : outputPlan c = .ok (setup, capture)) :
    TracksOutputs c.outputParameters setup capture := by
  have hOutput : ∀ p ∈ c.outputParameters,
      p.direction.isOutput = true :=
    fun p hMem => (List.mem_filter.mp hMem).2
  unfold outputPlan at h
  simp only at h
  unfold Command.outputParameters at hOutput ⊢
  generalize c.parameters.filter (·.direction.isOutput) = outs
    at h hOutput ⊢
  split at h
  · next hEmpty =>
    cases h
    rw [List.isEmpty_iff.mp hEmpty]
    refine ⟨?_, .nil, fun _ => rfl, fun hNot => absurd rfl hNot⟩
    exact fun p hMem => absurd hMem List.not_mem_nil
  · next hSome =>
    rcases bind_eq_ok_iff.mp h with ⟨pairs, hPairs, hPlan⟩
    cases hPlan
    have hFirst := outputVariables_fst hPairs
    have hPair : ∀ x ∈ pairs, x.1.direction ≠ .returnValue ∧
        x.2 = variableOf x.1 ∧ Sql.IsWord (Text.trim x.1.name) :=
      fun x hMem =>
        eq_of_outputVariable (outputVariables_snd hPairs x hMem)
    subst hFirst
    refine ⟨?_, ?_, ?_, ?_⟩
    · intro p hMem
      rcases List.mem_map.mp hMem with ⟨x, hX, rfl⟩
      exact (hPair x hX).2.2
    · rw [List.forall₂_map_left_iff, List.forall₂_map_right_iff,
        List.forall₂_same]
      intro x hX
      rcases hPair x hX with ⟨hPassed, hVariable, -⟩
      rw [hVariable]
      exact initialise_initialises _
        (hOutput _ (List.mem_map_of_mem hX)) hPassed
    · intro hNone
      rw [hNone] at hSome
      exact absurd rfl hSome
    · intro _
      refine ⟨_, rfl, ?_⟩
      rw [List.forall₂_map_left_iff, List.forall₂_map_right_iff,
        List.forall₂_same]
      intro x hX
      rw [(hPair x hX).2.1]
      rfl

------------------------------------------------------------
-- Calls
------------------------------------------------------------

/- Each item of a call passes the parameter at its place. -/
theorem callItems_pass
    {ps : List Parameter}
    {items : List String}
    (h : ps.mapM callItem = .ok items) :
    Forall₂ (fun p x => Passes p (variableOf p) x) ps items := by
  induction ps generalizing items with
  | nil =>
      cases h
      exact .nil
  | cons p ps ih =>
      rw [List.mapM_cons] at h
      rcases bind_eq_ok_iff.mp h with ⟨item, hItem, hNext⟩
      rcases bind_eq_ok_iff.mp hNext with ⟨rest, hRest, hAll⟩
      cases hAll
      refine .cons ?_ (ih hRest)
      unfold callItem at hItem
      unfold Passes
      split at hItem
      · next hInput =>
        cases hItem
        rw [if_pos hInput]
      · next hOther =>
        rw [if_neg hOther]
        exact (eq_of_sessionVariable hItem).1

/-
  What a bound command makes of its outputs.  Two of them have
  the same variable, in any ASCII case, exactly if one of the
  names is indented and there is no other difference.
-/
structure Tracks
    (c : Command)
    (b : BoundCommand) : Prop where
  outputs : TracksOutputs c.outputParameters b.setup b.outputs
  call : c.kind = .procedure →
    ∃ routine items,
      b.main.sql = callText none routine items ∧
      Forall₂ (fun p x => Passes p (variableOf p) x)
        c.parameters items
  shared :
    ∀ (i j : Nat) p q, i < j →
      c.outputParameters[i]? = some p →
      c.outputParameters[j]? = some q →
        (Text.sameName (variableOf p) (variableOf q) = true ↔
          (IsIndented p.name ∨ IsIndented q.name) ∧
            Text.sameName (Text.trim p.name) (Text.trim q.name) =
              true)

end MySql

section
variable {c : Command} {i j : Nat} {p q : Parameter}

/- Names that are not indented differ as they are used. -/
theorem Command.IsBuilt.names_apart
    (h : c.IsBuilt)
    (hOrder : i < j)
    (hFirst : c.outputParameters[i]? = some p)
    (hSecond : c.outputParameters[j]? = some q)
    (hPlainFirst : ¬ IsIndented p.name)
    (hPlainSecond : ¬ IsIndented q.name) :
    Text.sameName (Text.trim p.name) (Text.trim q.name) =
      false := by
  have hClosed {r : Parameter} {k : Nat}
      (hThis : c.outputParameters[k]? = some r) :
      IsClosed r.name := by
    have hMem := (List.mem_filter.mp (List.mem_of_getElem? hThis)).1
    exact h.isClosed _ (List.mem_map_of_mem hMem)
  rw [trim_of_not_isIndented hPlainFirst (hClosed hFirst),
    trim_of_not_isIndented hPlainSecond (hClosed hSecond)]
  have hDistinct : AreDistinct (c.outputParameters.map (·.name)) :=
    h.isNamed.outputNames_distinct
  rw [AreDistinct, List.pairwise_map, List.pairwise_iff_getElem]
    at hDistinct
  rcases List.getElem?_eq_some_iff.mp hFirst with ⟨hI, rfl⟩
  rcases List.getElem?_eq_some_iff.mp hSecond with ⟨hJ, rfl⟩
  exact hDistinct i j hI hJ hOrder

/-
  Two outputs share a variable exactly if white space is all
  that tells their names apart.
-/
theorem Command.IsBuilt.variables_shared_iff
    (h : c.IsBuilt)
    (hOrder : i < j)
    (hFirst : c.outputParameters[i]? = some p)
    (hSecond : c.outputParameters[j]? = some q) :
    Text.sameName (MySql.variableOf p) (MySql.variableOf q) =
        true ↔
      (IsIndented p.name ∨ IsIndented q.name) ∧
        Text.sameName (Text.trim p.name) (Text.trim q.name) =
          true := by
  rw [MySql.sameName_variableOf]
  refine ⟨fun hSame => ⟨?_, hSame⟩, And.right⟩
  by_contra hPlain
  rcases not_or.mp hPlain with ⟨hPlainFirst, hPlainSecond⟩
  have hApart := h.names_apart hOrder hFirst hSecond hPlainFirst
    hPlainSecond
  rw [hSame] at hApart
  cases hApart

end

namespace MySql

variable {c : Command} {b : BoundCommand}

/-
  A text that is bound keeps its outputs in step with their
  variables.
-/
theorem bindText_tracks
    (h : bindText c = .ok b) :
    TracksOutputs c.outputParameters b.setup b.outputs := by
  rcases bind_eq_ok_iff.mp h with ⟨⟨setup, capture⟩, hPlan, hBound⟩
  cases hBound
  exact outputPlan_tracks hPlan

/-
  A call that is bound keeps its outputs in step and passes
  each parameter by its variable.
-/
theorem bindProcedure_tracks
    (h : bindProcedure c = .ok b) :
    TracksOutputs c.outputParameters b.setup b.outputs ∧
    ∃ routine items,
      b.main.sql = callText none routine items ∧
      Forall₂ (fun p x => Passes p (variableOf p) x)
        c.parameters items := by
  rcases bind_eq_ok_iff.mp h with ⟨routine, -, hRest⟩
  rcases bind_eq_ok_iff.mp hRest with ⟨⟨setup, capture⟩, hPlan, hItems⟩
  rcases bind_eq_ok_iff.mp hItems with ⟨items, hListed, hBound⟩
  cases hBound
  refine ⟨outputPlan_tracks hPlan, routine, items, ?_,
    callItems_pass hListed⟩
  unfold callText
  simp only [String.append_assoc]

end MySql

------------------------------------------------------------
-- Providers
------------------------------------------------------------

namespace Provider

/-
  Whatever command is bound, its outputs are in step with
  their variables.
-/
theorem outputs_are_tracked
    {s : Settings}
    {c : Command}
    {b : BoundCommand}
    (hBuilt : c.IsBuilt)
    (hBound : (ofEngine .mysql s).bind c = .ok b) :
    MySql.Tracks c b := by
  have hEngine : MySql.bind c = .ok b := ofEngine_bind_iff.mp hBound
  unfold MySql.bind at hEngine
  split at hEngine
  · next hKind =>
    refine ⟨MySql.bindText_tracks hEngine, ?_, ?_⟩
    · intro hCall
      rw [hKind] at hCall
      cases hCall
    · exact fun i j p q => hBuilt.variables_shared_iff
  · next hKind => exact absurd hKind hBuilt.kind
  · rcases MySql.bindProcedure_tracks hEngine with
      ⟨hOutputs, hCall⟩
    exact ⟨hOutputs, fun _ => hCall,
      fun i j p q => hBuilt.variables_shared_iff⟩

/- Outputs with an at sign and with a value to send. -/
def calculation : Command :=
  ((Command.ofText .procedure "calc").add
    (.make "@x" .output .int .null)).add
      (.make "y" .inputOutput .int (.int 7))

def calculationInMySql : BoundCommand where
  setup :=
    [⟨"SET @x = NULL", []⟩, ⟨"SET @y = ?", [⟨.int 7, .int⟩]⟩]
  main := ⟨"CALL calc(@x, @y)", []⟩
  outputs :=
    .readback
      ⟨"SELECT CAST(@x AS SIGNED) AS `x`, " ++
        "CAST(@y AS SIGNED) AS `y`", []⟩
      ["x", "y"]

theorem calculation_is_tracked :
    calculation.IsBuilt ∧
      (ofEngine .mysql ⟨"a", "", none, {}⟩).bind calculation =
        .ok calculationInMySql ∧
      MySql.Tracks calculation calculationInMySql := by
  have hBuilt : calculation.IsBuilt :=
    .add (.add (.ofText "calc" (by decide)) rfl) rfl
  have hBound :
      (ofEngine .mysql ⟨"a", "", none, {}⟩).bind calculation =
        .ok calculationInMySql := rfl
  exact ⟨hBuilt, hBound, outputs_are_tracked hBuilt hBound⟩

/- Two outputs, one with white space behind its at sign. -/
def twins : Command :=
  ((Command.ofText .procedure "calc").add
    (.make "x" .output .int .null)).add
      (.make "@ x" .output .int .null)

def twinsInMySql : BoundCommand where
  setup := [⟨"SET @x = NULL", []⟩, ⟨"SET @x = NULL", []⟩]
  main := ⟨"CALL calc(@x, @x)", []⟩
  outputs :=
    .readback
      ⟨"SELECT CAST(@x AS SIGNED) AS `x`, " ++
        "CAST(@x AS SIGNED) AS `x`", []⟩
      ["x", " x"]

/-
  Two outputs with names of their own that share one variable,
  since names are trimmed once more.
-/
theorem twins_share_variable :
    twins.IsBuilt ∧
      (ofEngine .mysql ⟨"a", "", none, {}⟩).bind twins =
        .ok twinsInMySql ∧
      AreDistinct twins.outputNames ∧
      ¬ AreDistinct
        (twins.outputParameters.map MySql.variableOf) := by
  have hBuilt : twins.IsBuilt :=
    .add (.add (.ofText "calc" (by decide)) rfl) rfl
  refine ⟨hBuilt, rfl, hBuilt.isNamed.outputNames_distinct, ?_⟩
  intro hDistinct
  have hOne :
      twins.outputParameters.map MySql.variableOf = ["@x", "@x"] :=
    rfl
  rw [hOne] at hDistinct
  cases (List.pairwise_cons.mp hDistinct).1 "@x" (by simp)

end Provider

end Failover
