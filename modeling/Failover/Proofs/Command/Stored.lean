import Failover.Proofs.Command.Ordered
import Mathlib.Data.Set.Defs

/-
  The values that a command takes over.  Output values are
  found under the names that they were inserted under, up to
  case, and an output takes the last one under its name.  What
  was inserted under a name with an at sign in front is not
  found again, and no output takes it.

  Key definitions include:
    * `Parameter.Takes`
    * `Command.StoresLast`

  Main statements:
    * `OutputValues.get?_ofEntries`
    * `Command.takes_storeInto`
    * `Command.IsNamed.storesLast_iff_unsigned`
    * `Command.parameters_form_map`
-/

namespace Failover

open Text (HasSign IsSpelling sameName)

------------------------------------------------------------
-- Output values
------------------------------------------------------------

namespace OutputValues

/- A value is found under its name, and hides no other one. -/
theorem get?_insert
    (o : OutputValues)
    (name : String)
    (v : Value)
    (n : String) :
    (o.insert name v).get? n =
      if sameName name (bareName n) then some v
      else o.get? n := by
  have hInsert (es : List (String × Value)) :
      ((insertInto name v es).find? fun e =>
        sameName e.1 (bareName n)).map (·.2) =
      if sameName name (bareName n) then some v
      else (es.find? fun e =>
        sameName e.1 (bareName n)).map (·.2) := by
    induction es with
    | nil =>
        rw [insertInto, List.find?_cons]
        cases sameName name (bareName n) <;> rfl
    | cons e rest ih =>
        unfold insertInto
        split
        · next hSame =>
          have hTogether :=
            Text.sameName_congr hSame (bareName n)
          rw [List.find?_cons, List.find?_cons, hTogether]
          cases sameName name (bareName n) <;> rfl
        · next hOther =>
          rw [Bool.not_eq_true] at hOther
          rw [List.find?_cons, List.find?_cons]
          cases hAsked : sameName e.1 (bareName n) with
          | false => exact ih
          | true =>
              have hNot : sameName name (bareName n) = false := by
                rw [Text.sameName_comm]
                exact sameName_apart hAsked hOther
              rw [hNot]
              rfl
  exact hInsert o.entries

/- The value that was inserted last under a name is found. -/
theorem get?_ofEntries
    (es : List (String × Value))
    (n : String) :
    (ofEntries es).get? n =
      (es.reverse.find? fun e =>
        sameName e.1 (bareName n)).map (·.2) := by
  induction es using List.reverseRecOn with
  | nil => rfl
  | append_singleton es e ih =>
      have hInsert :
          ofEntries (es ++ [e]) = (ofEntries es).insert e.1 e.2 := by
        unfold ofEntries
        rw [List.foldl_append]
        rfl
      rw [hInsert, get?_insert, ih, List.reverse_concat,
        List.find?_cons]
      cases sameName e.1 (bareName n) <;> rfl

end OutputValues

------------------------------------------------------------
-- Stored values
------------------------------------------------------------

open List (Forall₂)

theorem Direction.isOutput_eq_false_iff {d : Direction} :
    d.isOutput = false ↔ d = .input := by
  cases d <;> decide

/-
  A parameter after some values came in under some names, given
  which of these are its own: an output has the last value that
  came in under its name and otherwise the one that it had, and
  an input is as it was.
-/
inductive Parameter.Takes
    (isFor : String → String → Prop)
    (es : List (String × Value))
    (q : Parameter) : Parameter → Prop
  | input (hInput : q.direction = .input) : Takes isFor es q q
  | last
      {s : String}
      {v : Value}
      (hOutput : q.direction.isOutput = true)
      (hLast : IsLast (isFor ·.1 q.name) es (s, v)) :
      Takes isFor es q { q with value := v }
  | missing
      (hOutput : q.direction.isOutput = true)
      (hNone : ∀ e ∈ es, ¬ isFor e.1 q.name) :
      Takes isFor es q q

/-
  Some values are inserted one after the other and then stored
  in a command: each parameter takes what is for it, and
  nothing else is changed.
-/
structure Command.StoresLast
    (isFor : String → String → Prop)
    (es : List (String × Value))
    (c : Command) : Prop where
  parameters :
    Forall₂ (Parameter.Takes isFor es) c.parameters
      (c.storeOutputs (.ofEntries es)).parameters
  rest : ∃ qs,
    c.storeOutputs (.ofEntries es) = { c with parameters := qs }

namespace Parameter

variable {isFor isFor' : String → String → Prop}
variable {es : List (String × Value)} {q q' : Parameter}

/- The values for a parameter that is no output do not matter. -/
theorem Takes.congr
    (h : q.Takes isFor es q')
    (hSame : q.direction.isOutput = true → ∀ e ∈ es,
      isFor e.1 q.name ↔ isFor' e.1 q.name) :
    q.Takes isFor' es q' := by
  cases h with
  | input hInput => exact .input hInput
  | last hOutput hLast =>
      exact .last hOutput (hLast.congr (hSame hOutput))
  | missing hOutput hNone =>
      refine .missing hOutput fun e hMem hFor => ?_
      exact hNone e hMem ((hSame hOutput e hMem).mpr hFor)

/- A parameter without a value for it stays as it was. -/
theorem Takes.eq_self
    (h : q.Takes isFor es q')
    (hNone : ∀ e ∈ es, ¬ isFor e.1 q.name) : q' = q := by
  cases h with
  | input _ => rfl
  | last _ hLast =>
      exact absurd hLast.mem.2 (hNone _ hLast.mem.1)
  | missing _ _ => rfl

/- A single value that is for an output is taken. -/
theorem Takes.value
    {s : String}
    {v : Value}
    (h : q.Takes isFor [(s, v)] q')
    (hOutput : q.direction.isOutput = true)
    (hFor : isFor s q.name) : q'.value = v := by
  cases h with
  | input hInput =>
      rw [hInput] at hOutput
      cases hOutput
  | last _ hLast =>
      cases List.mem_singleton.mp hLast.mem.1
      rfl
  | missing _ hNone =>
      exact absurd hFor (hNone _ List.mem_cons_self)

end Parameter

namespace Command

variable {c : Command} {q : Parameter}
variable {isFor : String → String → Prop}
variable {es : List (String × Value)}

theorem storesLast_iff :
    c.StoresLast isFor es ↔
      ∀ q ∈ c.parameters,
        q.Takes isFor es (storeInto (.ofEntries es) q) := by
  have hParameters :
      Forall₂ (Parameter.Takes isFor es) c.parameters
        (c.storeOutputs (.ofEntries es)).parameters ↔
      ∀ q ∈ c.parameters,
        q.Takes isFor es (storeInto (.ofEntries es) q) := by
    unfold storeOutputs
    rw [List.forall₂_map_right_iff, List.forall₂_same]
  exact ⟨fun h => hParameters.mp h.parameters,
    fun h => ⟨hParameters.mpr h, _, rfl⟩⟩

/- A parameter takes what was inserted last under its name. -/
theorem takes_storeInto
    (es : List (String × Value))
    (hName : bareName q.name = q.name) :
    q.Takes (sameName · · = true) es
      (storeInto (.ofEntries es) q) := by
  cases hOutput : q.direction.isOutput with
  | false =>
      rw [storeInto, hOutput, if_neg Bool.false_ne_true]
      exact .input (Direction.isOutput_eq_false_iff.mp hOutput)
  | true =>
      have hGet := OutputValues.get?_ofEntries es q.name
      rw [hName] at hGet
      rw [storeInto, hOutput, if_pos rfl, hGet]
      cases hFound : es.reverse.find? fun e =>
          sameName e.1 q.name with
      | none =>
          refine .missing hOutput fun e hMem => ?_
          exact List.find?_eq_none.mp hFound e (by simpa)
      | some e =>
          exact .last hOutput
            (find?_reverse_eq_some_iff.mp hFound)

theorem IsNamed.storesLast
    (h : c.IsNamed)
    (es : List (String × Value)) :
    c.StoresLast (sameName · · = true) es :=
  storesLast_iff.mpr fun _ hMem =>
    takes_storeInto es (h.bare _ (List.mem_map_of_mem hMem))

/- The value under a signed spelling of an output is lost. -/
theorem IsNamed.not_storesLast
    (h : c.IsNamed)
    {s : String}
    {v : Value}
    (hMem : q ∈ c.parameters)
    (hOutput : q.direction.isOutput = true)
    (hSign : HasSign s)
    (hSpelling : IsSpelling s q.name)
    (hValue : v ≠ q.value) :
    ¬ c.StoresLast IsSpelling [(s, v)] := by
  intro hStores
  have hName := h.bare _ (List.mem_map_of_mem hMem)
  have hApart : ∀ e ∈ [(s, v)],
      ¬ sameName e.1 q.name = true := by
    intro e hThis
    rw [List.mem_singleton.mp hThis,
      Text.sameName_of_hasSign hName hSign]
    exact Bool.false_ne_true
  have hKept := (takes_storeInto [(s, v)] hName).eq_self hApart
  have hTaken := storesLast_iff.mp hStores q hMem
  rw [hKept] at hTaken
  exact hValue (hTaken.value hOutput hSpelling).symm

/-
  Under some names all outputs take the last value that was
  inserted under a spelling of theirs if and only if none of
  these spellings has an at sign.
-/
theorem IsNamed.storesLast_iff_unsigned
    (h : c.IsNamed)
    (names : Set String) :
    (∀ es : List (String × Value), (∀ e ∈ es, e.1 ∈ names) →
      c.StoresLast IsSpelling es) ↔
    ∀ s ∈ names, HasSign s → ∀ q ∈ c.parameters,
      q.direction.isOutput = true → ¬ IsSpelling s q.name := by
  constructor
  · intro hStores s hThere hSign q hMem hOutput hSpelling
    have hOther : ∃ v : Value, v ≠ q.value := by
      by_cases hNull : q.value = .null
      · exact ⟨.bool true, by simp [hNull]⟩
      · exact ⟨.null, fun hSame => hNull hSame.symm⟩
    rcases hOther with ⟨v, hValue⟩
    exact h.not_storesLast hMem hOutput hSign hSpelling hValue
      (hStores [(s, v)] (by simpa using hThere))
  · intro hUnsigned es hNames
    refine storesLast_iff.mpr fun q hMem => ?_
    have hName := h.bare _ (List.mem_map_of_mem hMem)
    refine (takes_storeInto es hName).congr ?_
    intro hOutput e hThis
    by_cases hSign : HasSign e.1
    · have hNot := hUnsigned e.1 (hNames e hThis) hSign q hMem
        hOutput
      rw [Text.sameName_of_hasSign hName hSign]
      exact iff_of_false Bool.false_ne_true hNot
    · exact (Text.isSpelling_iff_sameName hName hSign).symm

/-
  Parameters that are added under any names make up an ordered
  map, and each one is found under every spelling of its name.
  Of values that are inserted under any names each output takes
  the last one under its own name, up to case, and nothing else
  in the command is changed.  So if values are inserted under
  some names, the outputs take the last ones under any spelling
  of theirs if and only if no name with an at sign among these
  is a spelling of an output.
-/
theorem parameters_form_map
    (kind : CommandKind)
    (text : String)
    {ps : List Parameter}
    (hWritten : ∀ p ∈ ps, ∃ s,
      p.name = Parameter.normalName s) :
    (ofParameters kind text ps).IsOrderedMap ps ∧
    (∀ s q, (ofParameters kind text ps).parameter? s = some q ↔
      q ∈ (ofParameters kind text ps).parameters ∧
        IsSpelling s q.name) ∧
    (∀ es : List (String × Value),
      (ofParameters kind text ps).StoresLast
        (sameName · · = true) es) ∧
    (∀ names : Set String,
      (∀ es : List (String × Value),
        (∀ e ∈ es, e.1 ∈ names) →
        (ofParameters kind text ps).StoresLast IsSpelling es) ↔
      ∀ s ∈ names, HasSign s →
        ∀ q ∈ (ofParameters kind text ps).parameters,
          q.direction.isOutput = true →
            ¬ IsSpelling s q.name) := by
  have hBare : ∀ p ∈ ps, bareName p.name = p.name := by
    intro p hMem
    rcases hWritten p hMem with ⟨s, hName⟩
    rw [hName]
    exact bareName_bareName _
  have hNamed := isNamed_ofParameters kind text hBare
  exact ⟨isOrderedMap_ofParameters kind text hBare,
    fun s _ => hNamed.parameter?_eq_some_iff s,
    hNamed.storesLast, hNamed.storesLast_iff_unsigned⟩

/- A number that is added twice, in two spellings. -/
def numbered : List Parameter :=
  [.make "@id" .input .bigInt (.int 5),
    .make " @total " .output .int .null,
    .make "ID" .input .bigInt (.int 7)]

theorem numbered_forms_map :
    (∀ p ∈ numbered, ∃ s, p.name = Parameter.normalName s) ∧
    (ofParameters .procedure "bill" numbered).IsOrderedMap
      numbered ∧
    (ofParameters .procedure "bill" numbered).parameter? "@@Id" =
      some (.make "ID" .input .bigInt (.int 7)) ∧
    (ofParameters .procedure "bill" numbered).StoresLast
      (sameName · · = true)
      [("TOTAL", .int 41), ("total", .int 42)] := by
  have hWritten : ∀ p ∈ numbered, ∃ s,
      p.name = Parameter.normalName s := by
    intro p hMem
    simp only [numbered, List.mem_cons, List.not_mem_nil,
      or_false] at hMem
    rcases hMem with rfl | rfl | rfl
    · exact ⟨"@id", rfl⟩
    · exact ⟨" @total ", rfl⟩
    · exact ⟨"ID", rfl⟩
  have hMap := parameters_form_map .procedure "bill" hWritten
  refine ⟨hWritten, hMap.1, (hMap.2.1 _ _).mpr ⟨?_, ?_⟩,
    hMap.2.2.1 _⟩
  · exact List.mem_cons_self
  · exact ⟨2, "Id", by decide, by decide⟩

/- A total that is reported with an at sign is lost. -/
theorem signed_total_is_lost :
    IsSpelling "@total" "total" ∧
    ¬ (ofParameters .procedure "bill"
        [.make "total" .output .int .null]).StoresLast
      IsSpelling [("@total", .int 42)] := by
  have hSpelling : IsSpelling "@total" "total" :=
    ⟨1, "total", by decide, by decide⟩
  have hNamed : (ofParameters .procedure "bill"
      [.make "total" .output .int .null]).IsNamed :=
    isNamed_ofParameters _ _ (by decide)
  exact ⟨hSpelling, hNamed.not_storesLast List.mem_cons_self rfl
    (by decide) hSpelling nofun⟩

end Command

end Failover
