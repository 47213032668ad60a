import Failover.Proofs.Binding.Captured
import Failover.Proofs.Number.Digits
import Failover.Proofs.Sql.Quoted

/-
  Calls of procedures.  A call lists one entry for each
  parameter but a return value, in the order of declaration.
  The entries that send a value are in step with the arguments
  of the statement, whatever stands between them.

  Key definitions include:
    * `Sql.IsRoutine`
    * `CallStyle`, `CallStyle.IsEntry`, `CallStyle.Lists`
    * `Postgres.callStyle`, `MySql.callStyle`

  Main statements:
    * `CallStyle.Lists.concat`
    * `Postgres.Call.addAll_lists`
    * `MySql.bindProcedure_lists`
    * `Provider.procedures_keep_parameters`
-/

namespace Failover

------------------------------------------------------------
-- Names of routines
------------------------------------------------------------

namespace Sql

/-
  A name of one or more parts with single dots between, each
  of them made of some ASCII letters, digits and underscores.
-/
def IsRoutine (name : String) : Prop :=
  ∃ parts : List (List Char),
    parts ≠ [] ∧ name.toList = ['.'].intercalate parts ∧
    ∀ part ∈ parts,
      part ≠ [] ∧ ∀ c ∈ part, Text.isWordChar c = true

/-
  A name of a routine that is accepted is used without the
  white space around it.
-/
theorem isRoutine_of_requireRoutine
    {text name : String}
    (h : BindingError.requireRoutine text = .ok name) :
    name = Text.trim text ∧ IsRoutine name := by
  unfold BindingError.requireRoutine routineName at h
  simp only at h
  split at h
  · cases h
  · split at h
    · next hValid =>
      cases h
      refine ⟨rfl, ?_⟩
      unfold isRoutineName at hValid
      rw [Text.splitOn_eq_list_splitOn,
        List.all_eq_true] at hValid
      refine ⟨_, List.splitOn_ne_nil '.' _,
        (List.intercalate_splitOn '.').symm, ?_⟩
      intro part hMem
      have hPart := hValid part hMem
      rw [Bool.and_eq_true, List.all_eq_true,
        Bool.not_eq_true', List.isEmpty_eq_false_iff] at hPart
      exact hPart
    · cases h

/- Parts with dots between them have no other characters. -/
theorem mem_intercalate_dot
    {parts : List (List Char)}
    {c : Char}
    (h : c ∈ ['.'].intercalate parts) :
    c = '.' ∨ ∃ part ∈ parts, c ∈ part := by
  induction parts with
  | nil => cases h
  | cons part rest ih =>
      cases rest with
      | nil => exact .inr ⟨part, by simp, by simpa using h⟩
      | cons next rest =>
          change c ∈ part ++ '.' :: ['.'].intercalate _ at h
          rw [List.mem_append, List.mem_cons] at h
          rcases h with hHere | rfl | hLater
          · exact .inr ⟨part, List.mem_cons_self, hHere⟩
          · exact .inl rfl
          · rcases ih hLater with hDot | ⟨other, hMem, hC⟩
            · exact .inl hDot
            · exact .inr
                ⟨other, List.mem_cons_of_mem _ hMem, hC⟩

/- The name of a routine has no commas. -/
theorem IsRoutine.chars
    {name : String}
    {c : Char}
    (h : IsRoutine name)
    (hMem : c ∈ name.toList) :
    c = '.' ∨ Text.isWordChar c = true := by
  rcases h with ⟨parts, -, hName, hParts⟩
  rw [hName] at hMem
  rcases mem_intercalate_dot hMem with hDot | ⟨part, hPart, hC⟩
  · exact .inl hDot
  · exact .inr ((hParts part hPart).2 c hC)

end Sql

------------------------------------------------------------
-- Lists of entries
------------------------------------------------------------

/- The parameters that a call lists. -/
def passed (ps : List Parameter) : List Parameter :=
  ps.filter (·.direction != .returnValue)

/-
  Whatever is no returned value is one more parameter of the
  call.
-/
theorem passed_concat
    {ps : List Parameter}
    {p : Parameter}
    (h : p.direction ≠ .returnValue) :
    passed (ps ++ [p]) = passed ps ++ [p] := by
  unfold passed
  simp [List.filter_append, h]

/- A returned value is no parameter of the call. -/
theorem passed_concat_result
    {ps : List Parameter}
    {p : Parameter}
    (h : p.direction = .returnValue) :
    passed (ps ++ [p]) = passed ps := by
  unfold passed
  simp [List.filter_append, h]

/- A text that is one entry between commas. -/
def IsSingle (item : String) : Prop :=
  item ≠ "" ∧ ',' ∉ item.toList

/- A text without commas makes one item no longer. -/
theorem IsSingle.append
    {item rest : String}
    (h : IsSingle item)
    (hRest : ',' ∉ rest.toList) : IsSingle (item ++ rest) := by
  constructor
  · intro hEmpty
    exact h.1 (String.append_eq_empty_iff.mp hEmpty).1
  · rw [String.toList_append, List.mem_append]
    exact not_or.mpr ⟨h.2, hRest⟩

/-
  How an engine writes the entries of a call: which parameters
  are sent with it, the text that stands for the one of a
  given number, counted from one, and what stands for others.
-/
structure CallStyle where
  sends : Parameter → Bool
  sent : Nat → Parameter → String
  IsUnsent : Parameter → String → Prop

namespace CallStyle

section
variable (s : CallStyle)

/- How many parameters are sent. -/
def sentAmong (ps : List Parameter) : Nat :=
  ps.countP s.sends

/- The text stands for a parameter that comes after others. -/
def IsEntry
    (before : List Parameter)
    (p : Parameter)
    (item : String) : Prop :=
  if s.sends p then
    item = s.sent (s.sentAmong before + 1) p
  else s.IsUnsent p item

/-
  The entries and the arguments of parameters.  Each parameter
  has its entry at its own place, and if it is sent, its
  argument is the one of the number in the entry.
-/
structure Lists
    (ps : List Parameter)
    (items : List String)
    (arguments : List Argument) : Prop where
  length : items.length = ps.length
  single : ∀ item ∈ items, IsSingle item
  sentInOrder :
    arguments = (ps.filter s.sends).map (·.argument)
  entry : ∀ before p after, ps = before ++ p :: after →
    ∃ item, items[before.length]? = some item ∧
      s.IsEntry before p item
  argument : ∀ before p after, ps = before ++ p :: after →
    s.sends p = true →
      arguments[s.sentAmong before]? = some p.argument

end

variable {s : CallStyle}

/- A sent parameter has a place for its value. -/
theorem isEntry_sent
    {before : List Parameter}
    {p : Parameter}
    (hSends : s.sends p = true) :
    s.IsEntry before p (s.sent (s.sentAmong before + 1) p) := by
  unfold IsEntry
  rw [if_pos hSends]

/- The item of a parameter that is not sent is its entry. -/
theorem isEntry_unsent
    {before : List Parameter}
    {p : Parameter}
    {item : String}
    (hSends : s.sends p = false)
    (hItem : s.IsUnsent p item) : s.IsEntry before p item := by
  unfold IsEntry
  rwa [hSends, if_neg Bool.false_ne_true]

/- The arguments are numbered as their parameters are. -/
theorem argument_at
    {before after : List Parameter}
    {p : Parameter}
    (hSends : s.sends p = true) :
    (((before ++ p :: after).filter s.sends).map
      (·.argument))[s.sentAmong before]? = some p.argument := by
  unfold sentAmong
  rw [List.filter_append, List.filter_cons_of_pos hSends,
    List.map_append, List.map_cons,
    List.countP_eq_length_filter,
    List.getElem?_append_right (by rw [List.length_map]),
    List.length_map, Nat.sub_self, List.getElem?_cons_zero]

/- A call without parameters lists nothing. -/
theorem lists_nil : s.Lists [] [] [] where
  length := rfl
  single := fun _ hMem => absurd hMem List.not_mem_nil
  sentInOrder := rfl
  entry := fun before p after hSplit => by
    simp at hSplit
  argument := fun before p after hSplit => by
    simp at hSplit

/- A list is split at its last element, or before it. -/
theorem split_concat
    {ps before after : List Parameter}
    {p q : Parameter}
    (h : ps ++ [p] = before ++ q :: after) :
    (ps = before ∧ p = q) ∨
      ∃ others, ps = before ++ q :: others := by
  rcases List.eq_nil_or_concat after with
    rfl | ⟨others, last, rfl⟩
  · rcases List.append_inj' h rfl with ⟨hBefore, hLast⟩
    cases hLast
    exact .inl ⟨hBefore, rfl⟩
  · rw [List.concat_eq_append, ← List.cons_append,
      ← List.append_assoc] at h
    exact .inr ⟨others, (List.append_inj' h rfl).1⟩

/- A parameter that comes last only adds to the lists. -/
theorem Lists.concat
    {ps : List Parameter}
    {items : List String}
    {arguments : List Argument}
    {p : Parameter}
    {item : String}
    (h : s.Lists ps items arguments)
    (hSingle : IsSingle item)
    (hItem : s.IsEntry ps p item) :
    s.Lists (ps ++ [p]) (items ++ [item])
      (arguments ++
        ([p].filter s.sends).map (·.argument)) := by
  have hArguments :
      arguments ++ ([p].filter s.sends).map (·.argument) =
        ((ps ++ [p]).filter s.sends).map (·.argument) := by
    rw [List.filter_append, List.map_append, ← h.sentInOrder]
  refine ⟨?_, ?_, hArguments, ?_, ?_⟩
  · rw [List.length_append, List.length_append, h.length]
    rfl
  · intro other hOther
    rcases List.mem_append.mp hOther with hOld | hNew
    · exact h.single other hOld
    · rwa [List.mem_singleton.mp hNew]
  · intro before q after hSplit
    rcases split_concat hSplit with
      ⟨rfl, rfl⟩ | ⟨others, hOthers⟩
    · rw [← h.length]
      exact ⟨item, List.getElem?_concat_length, hItem⟩
    · rcases h.entry before q others hOthers with
        ⟨old, hOld, hEntry⟩
      have hWithin := (List.getElem?_eq_some_iff.mp hOld).1
      refine ⟨old, ?_, hEntry⟩
      rw [List.getElem?_append_left hWithin, hOld]
  · intro before q after hSplit hSends
    rw [hArguments, hSplit]
    exact argument_at hSends

end CallStyle

------------------------------------------------------------
-- Texts of calls
------------------------------------------------------------

/-
  The text that calls a routine, as a procedure or for the
  sake of a result.
-/
def callText
    (result : Option String)
    (routine : String)
    (items : List String) : String :=
  let call := routine ++ "(" ++ ", ".intercalate items ++ ")"
  match result with
  | none => "CALL " ++ call
  | some name =>
      "SELECT " ++ call ++ " AS " ++
        Sql.quoteIdentifier '"' name

/- The name of the return value. -/
def Command.result? (c : Command) : Option String :=
  (c.parameters.find? Postgres.isResult).map (·.name)

------------------------------------------------------------
-- PostgreSQL
------------------------------------------------------------

namespace Postgres

/- Values are cast to the types that the engine knows. -/
def callStyle : CallStyle where
  sends p := p.direction.sendsValue
  sent n p :=
    "CAST($" ++ Decimal.render n ++ " AS " ++
      p.type.inPostgres ++ ")"
  IsUnsent p item := item = "NULL::" ++ p.type.inPostgres

/- No type of the engine is written with a comma. -/
theorem comma_notMem_inPostgres
    (t : DeclaredType) : ',' ∉ t.inPostgres.toList := by
  cases t <;> decide

/- A number is written without a comma. -/
theorem comma_notMem_render
    (n : Nat) : ',' ∉ (Decimal.render n).toList := by
  have hNatural : ¬ (n : Int) < 0 := by omega
  rw [Decimal.render_toList, if_neg hNatural]
  intro hMem
  exact absurd (Decimal.isDigit_of_mem_digits hMem) (by decide)

/- A sent value is one item of the call. -/
theorem isSingle_sent
    (n : Nat)
    (p : Parameter) : IsSingle (callStyle.sent n p) := by
  have hOpen : IsSingle "CAST($" := ⟨by decide, by decide⟩
  have hNumber := hOpen.append (comma_notMem_render n)
  have hAs : IsSingle ("CAST($" ++ Decimal.render n ++ " AS ") :=
    hNumber.append (by decide)
  have hType := hAs.append (comma_notMem_inPostgres p.type)
  exact hType.append (by decide)

/- A missing value is one item of the call. -/
theorem isSingle_null
    (t : DeclaredType) :
    IsSingle ("NULL::" ++ t.inPostgres) := by
  have hNull : IsSingle "NULL::" := ⟨by decide, by decide⟩
  exact hNull.append (comma_notMem_inPostgres t)

namespace Call

variable {k l : Call} {ps : List Parameter} {p : Parameter}

/- A return value is not listed. -/
theorem add_result
    (hAdd : k.add p = .ok l)
    (hResult : p.direction = .returnValue) :
    l.items = k.items ∧ l.arguments = k.arguments := by
  unfold add at hAdd
  rw [hResult] at hAdd
  simp only at hAdd
  split at hAdd
  · cases hAdd
  · cases hAdd
    exact ⟨rfl, rfl⟩

/-
  A parameter that is no returned value adds one entry behind
  the others.
-/
theorem add_item
    (hList : callStyle.Lists (passed ps) k.items k.arguments)
    (hAdd : k.add p = .ok l)
    (hPassed : p.direction ≠ .returnValue) :
    ∃ item, l.items = k.items ++ [item] ∧ IsSingle item ∧
      callStyle.IsEntry (passed ps) p item := by
  -- The next number counts on from the arguments so far.
  have hNumber :
      k.arguments.length = callStyle.sentAmong (passed ps) := by
    unfold CallStyle.sentAmong
    rw [hList.sentInOrder, List.length_map,
      List.countP_eq_length_filter]
  unfold add at hAdd
  rw [hNumber] at hAdd
  cases hDirection : p.direction with
  | input =>
      rw [hDirection] at hAdd
      cases hAdd
      refine ⟨_, rfl, isSingle_sent _ p, ?_⟩
      exact CallStyle.isEntry_sent
        (congrArg Direction.sendsValue hDirection)
  | inputOutput =>
      rw [hDirection] at hAdd
      cases hAdd
      refine ⟨_, rfl, isSingle_sent _ p, ?_⟩
      exact CallStyle.isEntry_sent
        (congrArg Direction.sendsValue hDirection)
  | output =>
      rw [hDirection] at hAdd
      cases hAdd
      refine ⟨_, rfl, isSingle_null p.type, ?_⟩
      exact CallStyle.isEntry_unsent
        (congrArg Direction.sendsValue hDirection) rfl
  | returnValue => exact absurd hDirection hPassed

/-
  A parameter more keeps the items of a call in step with its
  arguments.
-/
theorem add_lists
    (hList : callStyle.Lists (passed ps) k.items k.arguments)
    (hAdd : k.add p = .ok l) :
    callStyle.Lists (passed (ps ++ [p])) l.items
      l.arguments := by
  by_cases hResult : p.direction = .returnValue
  · rcases add_result hAdd hResult with ⟨hItems, hArguments⟩
    rwa [hItems, hArguments, passed_concat_result hResult]
  · rcases add_item hList hAdd hResult with
      ⟨item, hItems, hSingle, hEntry⟩
    rw [hItems, add_arguments hAdd, passed_concat hResult]
    exact hList.concat hSingle hEntry

/-
  The items of a whole call stay in step with its arguments,
  by induction on the parameters that are added.
-/
theorem addAll_lists
    {qs : List Parameter}
    (hList : callStyle.Lists (passed ps) k.items k.arguments)
    (hAdd : qs.foldlM Call.add k = .ok l) :
    callStyle.Lists (passed (ps ++ qs)) l.items
      l.arguments := by
  let P (l : Call) (ps : List Parameter) : Prop :=
    callStyle.Lists (passed ps) l.items l.arguments
  have hStep (j l : Call) (ps : List Parameter) (p : Parameter)
      (hBefore : P j ps)
      (hAdd : j.add p = .ok l) : P l (ps ++ [p]) :=
    add_lists hBefore hAdd
  exact addAll_keeps hStep hList hAdd

/- The text of a call has its items in their order. -/
theorem finish_sql
    {name : String}
    {b : BoundCommand}
    (h : k.finish name = .ok b) :
    b.main.sql = callText k.returnValue name k.items := by
  unfold finish at h
  unfold callText
  simp only at h
  split at h
  · next hSome =>
    rw [hSome]
    split at h
    · cases h
    · cases h
      have hClose : ") AS " = ")" ++ " AS " := rfl
      simp only [hClose, String.append_assoc]
  · next hNone =>
    rw [hNone]
    cases h
    simp only [String.append_assoc]

/- The return value of a call is the first one declared. -/
theorem Covers.returnValue_eq
    (h : k.Covers ps) :
    k.returnValue = (ps.find? isResult).map (·.name) := by
  rw [← List.head?_filter, ← List.head?_map, ← h.result,
    Option.head?_toList]

end Call

/- A call has one item for each parameter that is passed. -/
theorem bindProcedure_lists
    {c : Command}
    {b : BoundCommand}
    (h : bindProcedure c = .ok b) :
    ∃ routine items,
      (routine = Text.trim c.text ∧ Sql.IsRoutine routine) ∧
      b.main.sql = callText c.result? routine items ∧
      callStyle.Lists (passed c.parameters) items
        b.main.arguments := by
  rcases bind_eq_ok_iff.mp h with ⟨routine, hRoutine, hRest⟩
  rcases bind_eq_ok_iff.mp hRest with ⟨call, hCall, hFinish⟩
  refine ⟨routine, call.items,
    Sql.isRoutine_of_requireRoutine hRoutine, ?_, ?_⟩
  · rw [Call.finish_sql hFinish,
      (Call.covers_empty.addAll hCall).returnValue_eq]
    rfl
  · rw [Call.finish_arguments hFinish]
    have hNone :
        callStyle.Lists (passed []) Call.empty.items
          Call.empty.arguments := CallStyle.lists_nil
    exact Call.addAll_lists hNone hCall

end Postgres

------------------------------------------------------------
-- MySQL
------------------------------------------------------------

namespace MySql

/-
  Inputs are sent as they are.  All others travel in session
  variables, which statements set before the call.
-/
def callStyle (setup : List Statement) : CallStyle where
  sends p := p.direction == .input
  sent _ _ := "?"
  IsUnsent p item :=
    sessionVariable p.name = .ok item ∧
      initialise p item ∈ setup

/- A session variable is one item. -/
theorem isSingle_sessionVariable
    {name v : String}
    (h : sessionVariable name = .ok v) : IsSingle v := by
  unfold sessionVariable at h
  split at h
  · cases h
  · cases hRoutine : BindingError.requireRoutine name with
    | error cause =>
        rw [hRoutine] at h
        cases h
    | ok routine =>
        rw [hRoutine] at h
        cases h
        have hChars :=
          (Sql.isRoutine_of_requireRoutine hRoutine).2
        have hAt : IsSingle "@" := ⟨by decide, by decide⟩
        exact hAt.append fun hComma =>
          absurd (hChars.chars hComma) (by decide)

/- Every direction but that of inputs gives an output. -/
theorem isOutput_of_ne_input
    {d : Direction}
    (h : d ≠ .input) : d.isOutput = true := by
  cases d with
  | input => exact absurd rfl h
  | output | inputOutput | returnValue => rfl

/- Every variable is that of the parameter it comes with. -/
theorem outputVariables_snd
    {ps : List Parameter}
    {xs : List (Parameter × String)}
    (h : (ps.mapM fun p => do return (p, ← outputVariable p)) =
      .ok xs) : ∀ x ∈ xs, outputVariable x.1 = .ok x.2 := by
  induction ps generalizing xs with
  | nil =>
      cases h
      exact fun x hMem => absurd hMem List.not_mem_nil
  | cons p ps ih =>
      rw [List.mapM_cons] at h
      rcases bind_eq_ok_iff.mp h with ⟨x, hFirst, hNext⟩
      rcases bind_eq_ok_iff.mp hFirst with ⟨v, hVariable, hPair⟩
      rcases bind_eq_ok_iff.mp hNext with ⟨ys, hRest, hAll⟩
      cases hPair
      cases hAll
      exact List.forall_mem_cons.mpr ⟨hVariable, ih hRest⟩

/-
  The output variable of a parameter is its session variable,
  and the parameter is no returned value.
-/
theorem sessionVariable_of_outputVariable
    {p : Parameter}
    {v : String}
    (h : outputVariable p = .ok v) :
    p.direction ≠ .returnValue ∧
      sessionVariable p.name = .ok v := by
  unfold outputVariable at h
  split at h
  · cases h
  · next hOther => exact ⟨hOther, h⟩

/- Each output has a variable that is set before the command. -/
theorem outputPlan_initialises
    {c : Command}
    {setup : List Statement}
    {outputs : OutputCapture}
    {p : Parameter}
    (h : outputPlan c = .ok (setup, outputs))
    (hMem : p ∈ c.parameters)
    (hOutput : p.direction.isOutput = true) :
    p.direction ≠ .returnValue ∧
      ∃ v, sessionVariable p.name = .ok v ∧
        initialise p v ∈ setup := by
  have hAmong :
      p ∈ c.parameters.filter (·.direction.isOutput) :=
    List.mem_filter.mpr ⟨hMem, hOutput⟩
  unfold outputPlan at h
  simp only at h
  split at h
  · next hEmpty =>
    rw [List.isEmpty_iff.mp hEmpty] at hAmong
    cases hAmong
  · rcases bind_eq_ok_iff.mp h with ⟨pairs, hPairs, hPlan⟩
    cases hPlan
    rw [← outputVariables_fst hPairs] at hAmong
    rcases List.mem_map.mp hAmong with ⟨pair, hPair, rfl⟩
    rcases sessionVariable_of_outputVariable
      (outputVariables_snd hPairs pair hPair) with
      ⟨hPassed, hVariable⟩
    exact ⟨hPassed, pair.2, hVariable,
      List.mem_map.mpr ⟨pair, hPair, rfl⟩⟩

section
variable {setup : List Statement} {p : Parameter}

/-
  The item of a parameter is its entry if the variable of an
  output has been set.
-/
theorem callItem_entry
    (before : List Parameter)
    {item : String}
    (hSets : p.direction ≠ .input →
      ∃ v, sessionVariable p.name = .ok v ∧
        initialise p v ∈ setup)
    (h : callItem p = .ok item) :
    IsSingle item ∧
      (callStyle setup).IsEntry before p item := by
  unfold callItem at h
  by_cases hInput : p.direction = .input
  · rw [hInput] at h
    cases h
    refine ⟨⟨by decide, by decide⟩, ?_⟩
    exact CallStyle.isEntry_sent (beq_iff_eq.mpr hInput)
  · have hVariable : sessionVariable p.name = .ok item := by
      split at h
      · next hThis => exact absurd hThis hInput
      · exact h
    rcases hSets hInput with ⟨v, hSame, hSet⟩
    rw [hVariable] at hSame
    cases hSame
    refine ⟨isSingle_sessionVariable hVariable, ?_⟩
    exact CallStyle.isEntry_unsent
      (beq_eq_false_iff_ne.mpr hInput) ⟨hVariable, hSet⟩

/- Items are variables that were set, or places of values. -/
theorem callItems_lists
    {ps : List Parameter}
    {items : List String}
    (hSets : ∀ p ∈ ps, p.direction ≠ .input →
      ∃ v, sessionVariable p.name = .ok v ∧
        initialise p v ∈ setup)
    (h : ps.mapM callItem = .ok items) :
    (callStyle setup).Lists ps items
      ((ps.filter (·.direction == .input)).map
        (·.argument)) := by
  induction ps using List.reverseRecOn generalizing items with
  | nil =>
      cases h
      exact CallStyle.lists_nil
  | append_singleton ps p ih =>
      rw [List.mapM_append, List.mapM_cons, List.mapM_nil] at h
      rcases bind_eq_ok_iff.mp h with ⟨old, hOld, hNext⟩
      rcases bind_eq_ok_iff.mp hNext with ⟨new, hNew, hAll⟩
      rcases bind_eq_ok_iff.mp hNew with ⟨item, hItem, hLast⟩
      cases hLast
      cases hAll
      have hSetsOld := (List.forall_mem_append.mp hSets).1
      have hList := ih hSetsOld hOld
      have hSet :=
        hSets p (List.mem_append_right _ List.mem_cons_self)
      rcases callItem_entry ps hSet hItem with
        ⟨hSingle, hEntry⟩
      rw [List.filter_append, List.map_append]
      exact hList.concat hSingle hEntry

end

/- A call has one item for each parameter that is passed. -/
theorem bindProcedure_lists
    {c : Command}
    {b : BoundCommand}
    (h : bindProcedure c = .ok b) :
    ∃ routine items,
      (routine = Text.trim c.text ∧ Sql.IsRoutine routine) ∧
      b.main.sql = callText c.result? routine items ∧
      (callStyle b.setup).Lists (passed c.parameters) items
        b.main.arguments := by
  rcases bind_eq_ok_iff.mp h with ⟨routine, hRoutine, hRest⟩
  rcases bind_eq_ok_iff.mp hRest with ⟨⟨setup, outputs⟩, hPlan, hItems⟩
  rcases bind_eq_ok_iff.mp hItems with ⟨items, hListed, hBound⟩
  cases hBound
  have hDirection {p : Parameter} (hMem : p ∈ c.parameters) :
      p.direction ≠ .returnValue := fun hResult =>
    (outputPlan_initialises hPlan hMem
      (congrArg Direction.isOutput hResult)).1 hResult
  have hPassed : passed c.parameters = c.parameters :=
    List.filter_eq_self.mpr fun p hMem =>
      bne_iff_ne.mpr (hDirection hMem)
  have hNone : c.result? = none := by
    unfold Command.result?
    rw [Option.map_eq_none_iff, List.find?_eq_none]
    exact fun p hMem hResult =>
      hDirection hMem (beq_iff_eq.mp hResult)
  refine ⟨routine, items,
    Sql.isRoutine_of_requireRoutine hRoutine, ?_, ?_⟩
  · rw [hNone]
    unfold callText
    simp only [String.append_assoc]
  · rw [hPassed]
    exact callItems_lists
      (fun p hMem hOther =>
        (outputPlan_initialises hPlan hMem
          (isOutput_of_ne_input hOther)).2)
      hListed

end MySql

------------------------------------------------------------
-- Providers
------------------------------------------------------------

namespace Provider

/-
  A bound command calls the routine that its text names, with
  one entry for each parameter but a return value.  The values
  that PostgreSQL is sent are cast by number, and its outputs
  are typed NULLs.  MySQL is sent the inputs alone, and all
  else stands in variables.
-/
def KeepsParameters
    (e : Engine)
    (c : Command)
    (b : BoundCommand) : Prop :=
  ∃ routine items,
    (routine = Text.trim c.text ∧ Sql.IsRoutine routine) ∧
    b.main.sql = callText c.result? routine items ∧
    match e with
    | .postgres =>
        Postgres.callStyle.Lists (passed c.parameters) items
          b.main.arguments
    | .mysql =>
        (MySql.callStyle b.setup).Lists (passed c.parameters)
          items b.main.arguments
    | .sqlite => False

/- What a call lists stays in step with what it sends. -/
theorem procedures_keep_parameters
    {e : Engine}
    {s : Settings}
    {c : Command}
    {b : BoundCommand}
    (hKind : c.kind = .procedure)
    (hBound : (ofEngine e s).bind c = .ok b) :
    KeepsParameters e c b := by
  have hEngine := ofEngine_bind_iff.mp hBound
  cases e with
  | postgres =>
      change Postgres.bind c = .ok b at hEngine
      unfold Postgres.bind at hEngine
      rw [hKind] at hEngine
      exact Postgres.bindProcedure_lists hEngine
  | mysql =>
      change MySql.bind c = .ok b at hEngine
      unfold MySql.bind at hEngine
      rw [hKind] at hEngine
      exact MySql.bindProcedure_lists hEngine
  | sqlite =>
      change Sqlite.bind c = .ok b at hEngine
      unfold Sqlite.bind at hEngine
      rw [hKind] at hEngine
      split at hEngine
      · cases hEngine
      · cases hEngine

/- An output stands between the values that are sent. -/
def transfer : Command :=
  { Command.ofText .procedure " pay.transfer " with
    parameters :=
      [⟨"amount", .input, .decimal, none, .int 5⟩,
        ⟨"fee", .output, .money, none, .null⟩,
        ⟨"balance", .inputOutput, .int, none, .int 7⟩,
        ⟨"note", .input, .text, none, .null⟩] }

def transferInPostgres : BoundCommand where
  setup := []
  main :=
    { sql :=
        "CALL pay.transfer(CAST($1 AS numeric), " ++
          "NULL::numeric, CAST($2 AS integer), " ++
          "CAST($3 AS text))"
      arguments :=
        [⟨.int 5, .decimal⟩, ⟨.int 7, .int⟩, ⟨.null, .text⟩] }
  outputs := .mainRow ["fee", "balance"]

def transferInMySql : BoundCommand where
  setup :=
    [⟨"SET @fee = NULL", []⟩,
      ⟨"SET @balance = ?", [⟨.int 7, .int⟩]⟩]
  main :=
    { sql := "CALL pay.transfer(?, @fee, @balance, ?)"
      arguments := [⟨.int 5, .decimal⟩, ⟨.null, .text⟩] }
  outputs :=
    .readback
      ⟨"SELECT CAST(@fee AS DECIMAL(65,30)) AS `fee`, " ++
        "CAST(@balance AS SIGNED) AS `balance`", []⟩
      ["fee", "balance"]

/-
  A call with two values and an output, on the two engines
  that have calls.
-/
theorem transfer_keeps_parameters :
    let s : Settings := ⟨"a", "", none, {}⟩
    transfer.kind = .procedure ∧
    ((ofEngine .postgres s).bind transfer =
        .ok transferInPostgres ∧
      KeepsParameters .postgres transfer transferInPostgres) ∧
    (ofEngine .mysql s).bind transfer = .ok transferInMySql ∧
      KeepsParameters .mysql transfer transferInMySql := by
  intro s
  have hPostgres :
      (ofEngine .postgres s).bind transfer =
        .ok transferInPostgres := rfl
  have hMySql :
      (ofEngine .mysql s).bind transfer =
        .ok transferInMySql := rfl
  refine ⟨rfl, ⟨hPostgres, ?_⟩, hMySql, ?_⟩
  · exact procedures_keep_parameters rfl hPostgres
  · exact procedures_keep_parameters rfl hMySql

end Provider

end Failover
