import Failover.Proofs.Sql.Replacement
import Failover.Provider.Basic
import Mathlib.Data.List.Forall2

/-
  What binding makes of the values of parameters.  They go
  into arguments of statements and nowhere else: commands that
  are alike but for values are bound alike but for values.

  Key definitions include:
    * `Agrees`
    * `Parameter.Alike`, `Command.Alike`
    * `Statement.Alike`, `BoundCommand.Alike`
    * `BoundCommand.arguments`, `Command.Sends`
    * `Command.SameForm`

  Main statements:
    * `Engine.bind_alike`
    * `Engine.bind_arguments`
    * `Provider.values_reach_only_arguments`
-/

namespace Failover

open List (Forall₂)

------------------------------------------------------------
-- Results
------------------------------------------------------------

/- Two results that are related, or one and the same failure. -/
inductive Agrees
    {ε α β : Type}
    (R : α → β → Prop) : Except ε α → Except ε β → Prop where
  | ok {a : α} {b : β} (h : R a b) : Agrees R (.ok a) (.ok b)
  | error (e : ε) : Agrees R (.error e) (.error e)

namespace Agrees

variable {ε ε' α β γ δ : Type}
variable {R : α → β → Prop} {S : γ → δ → Prop}

/- An outcome agrees with itself if its results do. -/
theorem refl
    {R : α → α → Prop}
    (h : ∀ a, R a a)
    (x : Except ε α) : Agrees R x x := by
  cases x with
  | ok a => exact .ok (h a)
  | error e => exact .error e

/- Outcomes that agree still agree after steps that agree. -/
theorem bind
    {x : Except ε α}
    {y : Except ε β}
    {f : α → Except ε γ}
    {g : β → Except ε δ}
    (h : Agrees R x y)
    (hNext : ∀ a b, R a b → Agrees S (f a) (g b)) :
    Agrees S (x >>= f) (y >>= g) := by
  cases h with
  | ok h => exact hNext _ _ h
  | error e => exact .error e

/- Failures that are put in other words agree as before. -/
theorem mapError
    {x : Except ε α}
    {y : Except ε β}
    (h : Agrees R x y)
    (f : ε → ε') : Agrees R (x.mapError f) (y.mapError f) := by
  cases h with
  | ok h => exact .ok h
  | error e => exact .error (f e)

/- Lists of outcomes agree if their elements do. -/
theorem mapM
    {f : α → Except ε γ}
    {g : β → Except ε δ}
    {xs : List α}
    {ys : List β}
    (h : Forall₂ R xs ys)
    (hEach : ∀ a b, R a b → Agrees S (f a) (g b)) :
    Agrees (Forall₂ S) (xs.mapM f) (ys.mapM g) := by
  induction h with
  | nil => exact .ok .nil
  | cons hFirst hRest ih =>
      rw [List.mapM_cons, List.mapM_cons]
      refine (hEach _ _ hFirst).bind fun a b hS => ?_
      exact ih.bind fun as bs hSs => .ok (.cons hS hSs)

/- Folds agree if their starts and their steps do. -/
theorem foldlM
    {f : γ → α → Except ε γ}
    {g : δ → β → Except ε δ}
    {xs : List α}
    {ys : List β}
    {c : γ}
    {d : δ}
    (h : Forall₂ R xs ys)
    (hStart : S c d)
    (hEach : ∀ c d a b, S c d → R a b →
      Agrees S (f c a) (g d b)) :
    Agrees S (xs.foldlM f c) (ys.foldlM g d) := by
  induction h generalizing c d with
  | nil => exact .ok hStart
  | cons hFirst hRest ih =>
      rw [List.foldlM_cons, List.foldlM_cons]
      refine (hEach _ _ _ _ hStart hFirst).bind fun c d hS => ?_
      exact ih hS

end Agrees

------------------------------------------------------------
-- Commands and statements
------------------------------------------------------------

/-
  Parameters that are alike but for their values.  The values
  that go to the engine are related as arguments.
-/
structure Parameter.Alike
    (R : Argument → Argument → Prop)
    (p q : Parameter) : Prop where
  name : p.name = q.name
  direction : p.direction = q.direction
  type : p.type = q.type
  sent : p.direction.sendsValue = true → R p.argument q.argument

structure Command.Alike
    (R : Argument → Argument → Prop)
    (c d : Command) : Prop where
  text : c.text = d.text
  kind : c.kind = d.kind
  parameters :
    Forall₂ (Parameter.Alike R) c.parameters d.parameters

structure Statement.Alike
    (R : Argument → Argument → Prop)
    (s t : Statement) : Prop where
  sql : s.sql = t.sql
  arguments : Forall₂ R s.arguments t.arguments

/- Outputs that are captured under the same names. -/
inductive OutputCapture.Alike
    (R : Argument → Argument → Prop) :
    OutputCapture → OutputCapture → Prop where
  | none : Alike R .none .none
  | mainRow (parameters : List String) :
      Alike R (.mainRow parameters) (.mainRow parameters)
  | readback
      {s t : Statement}
      (parameters : List String)
      (h : s.Alike R t) :
      Alike R (.readback s parameters) (.readback t parameters)

structure BoundCommand.Alike
    (R : Argument → Argument → Prop)
    (b d : BoundCommand) : Prop where
  setup : Forall₂ (Statement.Alike R) b.setup d.setup
  main : b.main.Alike R d.main
  outputs : b.outputs.Alike R d.outputs

variable {R : Argument → Argument → Prop}
variable {c d : Command}

/- Commands of one statement are alike with it. -/
theorem BoundCommand.Alike.single
    {s t : Statement}
    (h : s.Alike R t) : (single s).Alike R (single t) :=
  ⟨.nil, h, .none⟩

/- Two statements of one text are alike if their arguments are. -/
theorem Statement.Alike.ofText
    {s : String}
    {xs ys : List Argument}
    (h : Forall₂ R xs ys) : Alike R ⟨s, xs⟩ ⟨s, ys⟩ :=
  ⟨rfl, h⟩

section
variable {ps qs : List Parameter}
variable (h : Forall₂ (Parameter.Alike R) ps qs)
include h

/- A choice by what is alike chooses alike. -/
theorem filter_alike
    {f : Parameter → Bool}
    (hf : ∀ p q : Parameter, p.name = q.name →
      p.direction = q.direction → f p = f q) :
    Forall₂ (Parameter.Alike R) (ps.filter f) (qs.filter f) := by
  refine List.rel_filter (fun p q hAlike => ?_) h
  exact iff_of_eq
    (congrArg (· = true) (hf p q hAlike.name hAlike.direction))

/-
  Parameters are found by name and direction at the same
  place.
-/
theorem findIdx?_alike
    {f : Parameter → Bool}
    (hf : ∀ p q : Parameter, p.name = q.name →
      p.direction = q.direction → f p = f q) :
    ps.findIdx? f = qs.findIdx? f := by
  induction h with
  | nil => rfl
  | cons hFirst hRest ih =>
      rw [List.findIdx?_cons, List.findIdx?_cons, ih,
        hf _ _ hFirst.name hFirst.direction]

/- Parameters that are alike have the same names. -/
theorem names_alike :
    ps.map (·.name) = qs.map (·.name) := by
  induction h with
  | nil => rfl
  | cons hFirst hRest ih =>
      rw [List.map_cons, List.map_cons, ih, hFirst.name]

/- The arguments of parameters that all send values. -/
theorem arguments_alike
    (hSent : ∀ p ∈ ps, p.direction.sendsValue = true) :
    Forall₂ R (ps.map (·.argument)) (qs.map (·.argument)) := by
  induction h with
  | nil => exact .nil
  | cons hFirst hRest ih =>
      refine .cons (hFirst.sent (hSent _ List.mem_cons_self)) ?_
      exact ih fun p hMem => hSent p (List.mem_cons_of_mem _ hMem)

end

/- Two parameters at one place of alike lists are alike. -/
theorem getElem?_alike
    {ps qs : List Parameter}
    (h : Forall₂ (Parameter.Alike R) ps qs)
    (i : Nat) :
    (ps[i]? = none ∧ qs[i]? = none) ∨
      ∃ p q, ps[i]? = some p ∧ qs[i]? = some q ∧ p.Alike R q := by
  induction h generalizing i with
  | nil => exact .inl ⟨rfl, rfl⟩
  | cons hFirst hRest ih =>
      cases i with
      | zero => exact .inr ⟨_, _, rfl, rfl, hFirst⟩
      | succ i => exact ih i

------------------------------------------------------------
-- Text commands
------------------------------------------------------------

/- An argument stands for a reference that is known. -/
theorem Sql.Substitution.mem_arguments
    {w : Sql.Substitution}
    {references : List Nat}
    {i : Nat}
    (h : i ∈ w.arguments references) : i ∈ references := by
  unfold arguments at h
  split at h
  · exact List.mem_eraseDups.mp h
  · exact h

/- The places of arguments are places of inputs. -/
theorem Statement.isInput_of_order
    {lex : Sql.Lexis}
    {numbered : Bool}
    {placeholder : Nat → Nat → String}
    {ps : List Parameter}
    {text : String}
    {i : Nat}
    (h : i ∈ (Sql.substitute lex
      { numbered
        index? := fun name => ps.findIdx? (·.isInputNamed name)
        placeholder } text).order) :
    ∃ p, ps[i]? = some p ∧ p.direction = .input := by
  rw [Sql.substitute_eq] at h
  rcases List.mem_filterMap.mp
    (Sql.Substitution.mem_arguments h) with ⟨token, -, hTarget⟩
  unfold Sql.Substitution.target? at hTarget
  split at hTarget
  · next name =>
    rcases List.findIdx?_eq_some_iff_getElem.mp hTarget with
      ⟨hLess, hNamed, -⟩
    refine ⟨ps[i], List.getElem?_eq_getElem hLess, ?_⟩
    simpa using (Bool.and_eq_true_iff.mp hNamed).1
  · cases hTarget

/- The places of the inputs are those of inputs. -/
theorem isInput_of_inputIndices
    {ps : List Parameter}
    {i : Nat}
    (h : i ∈ inputIndices ps) :
    ∃ p, ps[i]? = some p ∧ p.direction = .input := by
  have hInput := (List.mem_filter.mp h).2
  cases hThere : ps[i]? with
  | none => simp [hThere] at hInput
  | some p =>
      rw [hThere] at hInput
      exact ⟨p, rfl, by simpa using hInput⟩

/- The arguments of a text are values of input parameters. -/
theorem Statement.mem_ofText
    {lex : Sql.Lexis}
    {numbered : Bool}
    {placeholder : Nat → Nat → String}
    {c : Command}
    {i : Nat}
    (h : i ∈
      (let substituted := Sql.substitute lex
        { numbered
          index? := fun name =>
            c.parameters.findIdx? (·.isInputNamed name)
          placeholder } c.text
      if substituted.references = 0 then
        inputIndices c.parameters
      else substituted.order)) :
    ∃ p, c.parameters[i]? = some p ∧ p.direction = .input := by
  simp only at h
  split at h
  · exact isInput_of_inputIndices h
  · exact isInput_of_order h

/- Inputs stand at the same places. -/
theorem inputIndices_alike
    {ps qs : List Parameter}
    (h : Forall₂ (Parameter.Alike R) ps qs) :
    inputIndices ps = inputIndices qs := by
  unfold inputIndices
  rw [h.length_eq]
  refine List.filter_congr fun i _ => ?_
  rcases getElem?_alike h i with ⟨hP, hQ⟩ | ⟨p, q, hP, hQ, hAlike⟩
  · rw [hP, hQ]
  · rw [hP, hQ, Option.map_some, Option.map_some,
      hAlike.direction]

/- The text that is made of a command depends on names only. -/
theorem Statement.ofText_alike
    (lex : Sql.Lexis)
    (numbered : Bool)
    {placeholder placeholder' : Nat → Nat → String}
    (h : c.Alike R d)
    (hPlaceholder : placeholder = placeholder') :
    (ofText lex numbered placeholder c).Alike R
      (ofText lex numbered placeholder' d) := by
  subst hPlaceholder
  have hIndex :
      (fun name => c.parameters.findIdx? (·.isInputNamed name)) =
        fun name => d.parameters.findIdx? (·.isInputNamed name) :=
    funext fun name => findIdx?_alike h.parameters
      fun p q hName hDirection => by
        simp only [Parameter.isInputNamed, hName, hDirection]
  have hInput {i : Nat} :=
    @Statement.mem_ofText lex numbered placeholder c i
  unfold ofText
  simp only at hInput ⊢
  rw [← hIndex, ← h.text, ← inputIndices_alike h.parameters]
  refine ⟨rfl, ?_⟩
  simp only
  generalize (if (Sql.substitute lex _ c.text).references = 0 then
    inputIndices c.parameters else _) = order at hInput ⊢
  induction order with
  | nil => exact .nil
  | cons i order ih =>
      have hRest := ih fun hMem => hInput (List.mem_cons_of_mem _ hMem)
      rcases hInput (List.mem_cons_self ..) with ⟨p, hThis, hDirection⟩
      rcases getElem?_alike h.parameters i with ⟨hNone, -⟩ |
        ⟨p', q, hP, hQ, hAlike⟩
      · cases hThis.symm.trans hNone
      · cases hThis.symm.trans hP
        simp only [List.filterMap_cons, hP, hQ, Option.map_some]
        exact .cons (hAlike.sent (by rw [hDirection]; rfl)) hRest

/- A table is read by the same text. -/
theorem Statement.ofTable_alike
    (quote : Char)
    (h : c.Alike R d) :
    (ofTable quote c).Alike R (ofTable quote d) := by
  unfold ofTable
  rw [h.text]
  exact .ofText .nil

/- The first output parameter, if there is any. -/
theorem find?_alike
    {ps qs : List Parameter}
    (h : Forall₂ (Parameter.Alike R) ps qs)
    {f : Parameter → Bool}
    (hf : ∀ p q : Parameter, p.name = q.name →
      p.direction = q.direction → f p = f q) :
    Option.Rel (Parameter.Alike R) (ps.find? f) (qs.find? f) := by
  induction h with
  | nil => exact .none
  | cons hFirst hRest ih =>
      rw [List.find?_cons, List.find?_cons,
        hf _ _ hFirst.name hFirst.direction]
      split
      · exact .some hFirst
      · exact ih

------------------------------------------------------------
-- Engines
------------------------------------------------------------

/- The direction of a parameter is no matter of its value. -/
theorem hasDirection_congr
    (test : Direction → Bool)
    (p q : Parameter)
    (_ : p.name = q.name)
    (hDirection : p.direction = q.direction) :
    test p.direction = test q.direction := by
  rw [hDirection]

namespace Sqlite

/- All kinds of commands keep values out of what is sent. -/
theorem bind_alike (h : c.Alike R d) :
    Agrees (BoundCommand.Alike R) (bind c) (bind d) := by
  have hOutput := find?_alike h.parameters
    (hasDirection_congr Direction.isOutput)
  unfold bind
  rw [← h.kind]
  generalize c.parameters.find? _ = found,
    d.parameters.find? _ = found' at hOutput ⊢
  cases hOutput with
  | some hAlike =>
      simp only [hAlike.name, hAlike.direction]
      exact .error _
  | none =>
      cases c.kind with
      | text => exact .ok (.single (Statement.ofText_alike _ _ h rfl))
      | table => exact .ok (.single (Statement.ofTable_alike _ h))
      | procedure => exact .error _

end Sqlite

namespace Postgres

/- The declared types are the same, place by place. -/
theorem typeAt_alike
    {ps qs : List Parameter}
    (h : Forall₂ (Parameter.Alike R) ps qs)
    (i : Nat) : typeAt ps i = typeAt qs i := by
  unfold typeAt
  rcases getElem?_alike h i with ⟨hP, hQ⟩ | ⟨p, q, hP, hQ, hAlike⟩
  · rw [hP, hQ]
  · rw [hP, hQ, Option.map_some, Option.map_some, hAlike.type]

/- A text is bound to one with arguments that are alike. -/
theorem bindText_alike (h : c.Alike R d) :
    Agrees (BoundCommand.Alike R) (bindText c) (bindText d) := by
  have hOutput := find?_alike h.parameters
    (hasDirection_congr Direction.isOutput)
  unfold bindText
  generalize c.parameters.find? _ = found,
    d.parameters.find? _ = found' at hOutput ⊢
  cases hOutput with
  | some hAlike =>
      simp only [hAlike.name, hAlike.direction]
      exact .error _
  | none =>
      refine .ok (.single (Statement.ofText_alike _ _ h ?_))
      funext position i
      rw [typeAt_alike h.parameters]

/- Calls whose arguments are related, and that are the same. -/
structure Call.Alike
    (R : Argument → Argument → Prop)
    (k l : Call) : Prop where
  arguments : Forall₂ R k.arguments l.arguments
  items : k.items = l.items
  outputs : k.outputs = l.outputs
  returnValue : k.returnValue = l.returnValue

/- Alike parameters keep two calls alike. -/
theorem Call.add_alike
    {k l : Call}
    {p q : Parameter}
    (hCall : k.Alike R l)
    (h : p.Alike R q) :
    Agrees (Call.Alike R) (k.add p) (l.add q) := by
  rcases k with ⟨arguments, items, outputs, returnValue⟩
  rcases l with ⟨arguments', items', outputs', returnValue'⟩
  rcases hCall with ⟨hArguments, hItems, hOutputs, hReturn⟩
  cases hItems
  cases hOutputs
  cases hReturn
  have hSent (hSends : p.direction.sendsValue = true) :
      Forall₂ R (arguments ++ [p.argument])
        (arguments' ++ [q.argument]) :=
    List.rel_append hArguments (.cons (h.sent hSends) .nil)
  unfold Call.add
  simp only
  rw [← h.direction, ← h.type, ← h.name, hArguments.length_eq]
  cases hDirection : p.direction with
  | input =>
      exact .ok ⟨hSent (by rw [hDirection]; rfl), rfl, rfl, rfl⟩
  | inputOutput =>
      exact .ok ⟨hSent (by rw [hDirection]; rfl), rfl, rfl, rfl⟩
  | output => exact .ok ⟨hArguments, rfl, rfl, rfl⟩
  | returnValue =>
      simp only
      split
      · exact .error _
      · exact .ok ⟨hArguments, rfl, rfl, rfl⟩

/- Calls that are alike become commands that are. -/
theorem Call.finish_alike
    {k l : Call}
    (name : String)
    (h : k.Alike R l) :
    Agrees (BoundCommand.Alike R) (k.finish name)
      (l.finish name) := by
  unfold Call.finish
  simp only
  rw [← h.items, ← h.outputs, ← h.returnValue]
  split
  · split
    · exact .error _
    · exact .ok ⟨.nil, .ofText h.arguments, .mainRow _⟩
  · refine .ok ⟨.nil, .ofText h.arguments, ?_⟩
    simp only
    split
    · exact .none
    · exact .mainRow _

/- All kinds of commands keep values out of what is sent. -/
theorem bind_alike (h : c.Alike R d) :
    Agrees (BoundCommand.Alike R) (bind c) (bind d) := by
  unfold bind
  rw [← h.kind]
  cases c.kind with
  | text => exact bindText_alike h
  | table => exact .ok (.single (Statement.ofTable_alike _ h))
  | procedure =>
      simp only
      unfold bindProcedure
      rw [← h.text]
      refine (Agrees.refl (R := Eq) (fun _ => rfl) _).bind ?_
      rintro name _ rfl
      refine Agrees.bind (Agrees.foldlM h.parameters
        ⟨.nil, rfl, rfl, rfl⟩ fun k l p q => Call.add_alike) ?_
      exact fun k l hCall => Call.finish_alike name hCall

end Postgres

namespace MySql

/- The variable of a parameter, and its initialisation. -/
theorem outputVariable_alike
    {p q : Parameter}
    (h : p.Alike R q) :
    Agrees
      (fun x y => Parameter.Alike R x.1 y.1 ∧ x.2 = y.2)
      (do return (p, ← outputVariable p))
      (do return (q, ← outputVariable q)) := by
  have hSame : outputVariable p = outputVariable q := by
    unfold outputVariable
    rw [h.direction, h.name]
  rw [hSame]
  refine (Agrees.refl (R := Eq) (fun _ => rfl) _).bind ?_
  rintro v _ rfl
  exact .ok ⟨h, rfl⟩

/- Variables get values that are alike. -/
theorem initialise_alike
    {p q : Parameter}
    (v : String)
    (h : p.Alike R q) :
    (initialise p v).Alike R (initialise q v) := by
  unfold initialise
  rw [← h.direction]
  cases hDirection : p.direction with
  | inputOutput =>
      exact .ofText
        (.cons (h.sent (by rw [hDirection]; rfl)) .nil)
  | _ => exact .ofText .nil

/- A column is read by the name of its parameter. -/
theorem column_alike
    {p q : Parameter}
    (v : String)
    (h : p.Alike R q) : column p v = column q v := by
  unfold column
  rw [h.type, h.name]

/-
  Commands that differ in values only set and read back the
  same variables.
-/
theorem outputPlan_alike (h : c.Alike R d) :
    Agrees
      (fun x y => Forall₂ (Statement.Alike R) x.1 y.1 ∧
        x.2.Alike R y.2)
      (outputPlan c) (outputPlan d) := by
  have hOutputs := filter_alike h.parameters
    (hasDirection_congr Direction.isOutput)
  unfold outputPlan
  generalize c.parameters.filter _ = ps,
    d.parameters.filter _ = qs at hOutputs ⊢
  have hEmpty : ps.isEmpty = qs.isEmpty := by
    cases hOutputs <;> rfl
  simp only [hEmpty, names_alike hOutputs]
  split
  · exact .ok ⟨.nil, .none⟩
  · refine Agrees.bind (Agrees.mapM hOutputs
      fun p q => outputVariable_alike) ?_
    intro xs ys hPairs
    refine .ok ⟨?_, ?_⟩
    · refine List.rel_map ?_ hPairs
      rintro ⟨p, v⟩ ⟨q, _⟩ ⟨hAlike, rfl⟩
      exact initialise_alike v hAlike
    · have hColumns : xs.map (fun x => column x.1 x.2) =
          ys.map (fun y => column y.1 y.2) := by
        induction hPairs with
        | nil => rfl
        | @cons x y _ _ hFirst _ ih =>
            rw [List.map_cons, List.map_cons, ih,
              column_alike x.2 hFirst.1, hFirst.2]
      simp only [hColumns]
      exact .readback _ (.ofText .nil)

/- Alike parameters have the same item in a call. -/
theorem callItem_alike
    {p q : Parameter}
    (h : p.Alike R q) :
    Agrees Eq (callItem p) (callItem q) := by
  have hSame : callItem p = callItem q := by
    unfold callItem
    rw [h.direction, h.name]
  rw [hSame]
  exact .refl (fun _ => rfl) _

/-
  Procedure calls of commands that differ in values only
  differ in their arguments at most.
-/
theorem bindProcedure_alike (h : c.Alike R d) :
    Agrees (BoundCommand.Alike R) (bindProcedure c)
      (bindProcedure d) := by
  unfold bindProcedure
  rw [← h.text]
  refine (Agrees.refl (R := Eq) (fun _ => rfl) _).bind ?_
  rintro name _ rfl
  refine (outputPlan_alike h).bind ?_
  rintro ⟨setup, outputs⟩ ⟨setup', outputs'⟩ ⟨hSetup, hOutputs⟩
  refine (Agrees.mapM h.parameters
    fun p q => callItem_alike).bind ?_
  intro items items' hItems
  rw [List.forall₂_eq_eq_eq] at hItems
  subst hItems
  refine .ok ⟨hSetup, .ofText ?_, hOutputs⟩
  refine arguments_alike (filter_alike h.parameters
    (hasDirection_congr (· == .input))) ?_
  intro p hMem
  have hInput : p.direction = .input := by
    simpa using (List.mem_filter.mp hMem).2
  rw [hInput]
  rfl

/- All kinds of commands keep values out of what is sent. -/
theorem bind_alike (h : c.Alike R d) :
    Agrees (BoundCommand.Alike R) (bind c) (bind d) := by
  unfold bind
  rw [← h.kind]
  cases c.kind with
  | text =>
      refine (outputPlan_alike h).bind ?_
      rintro ⟨setup, outputs⟩ ⟨setup', outputs'⟩ ⟨hSetup, hOutputs⟩
      exact .ok ⟨hSetup, Statement.ofText_alike _ _ h rfl, hOutputs⟩
  | table => exact .ok (.single (Statement.ofTable_alike _ h))
  | procedure => exact bindProcedure_alike h

end MySql

/- Commands that are alike are bound alike, or both are not. -/
theorem Engine.bind_alike
    (e : Engine)
    (h : c.Alike R d) :
    Agrees (BoundCommand.Alike R) (e.bind c) (e.bind d) := by
  cases e with
  | postgres => exact Postgres.bind_alike h
  | mysql => exact MySql.bind_alike h
  | sqlite => exact Sqlite.bind_alike h

------------------------------------------------------------
-- Arguments
------------------------------------------------------------

/- The statement that a capture runs, if it runs one. -/
def OutputCapture.statements : OutputCapture → List Statement
  | .readback s _ => [s]
  | _ => []

/- All arguments of a bound command, in any statement. -/
def BoundCommand.arguments (b : BoundCommand) : List Argument :=
  (b.setup ++ b.main :: b.outputs.statements).flatMap
    (·.arguments)

/- Values are read back by statements that are alike. -/
theorem OutputCapture.Alike.statements
    {k l : OutputCapture}
    (h : k.Alike R l) :
    Forall₂ (Statement.Alike R) k.statements l.statements := by
  cases h with
  | none => exact .nil
  | mainRow => exact .nil
  | readback _ hStatement => exact .cons hStatement .nil

/- The arguments of commands that are alike, in order. -/
theorem BoundCommand.Alike.arguments
    {b b' : BoundCommand}
    (h : b.Alike R b') :
    Forall₂ R b.arguments b'.arguments := by
  have hAll :=
    List.rel_append h.setup (.cons h.main h.outputs.statements)
  exact List.rel_flatMap hAll fun s t hAlike => hAlike.arguments

/- The argument is that of a parameter that sends its value. -/
def Command.Sends
    (c : Command)
    (a : Argument) : Prop :=
  ∃ p ∈ c.parameters,
    (p.direction = .input ∨ p.direction = .inputOutput) ∧
      a = p.argument

/- Only inputs send a value. -/
theorem Direction.sendsValue_iff (d : Direction) :
    d.sendsValue = true ↔ d = .input ∨ d = .inputOutput := by
  cases d <;> decide

/- A command is like itself with the arguments that it sends. -/
theorem Command.alike_self (c : Command) :
    c.Alike (fun a _ => c.Sends a) c := by
  refine ⟨rfl, rfl, List.forall₂_same.mpr fun p hMem => ?_⟩
  exact ⟨rfl, rfl, rfl, fun hSends =>
    ⟨p, hMem, p.direction.sendsValue_iff.mp hSends, rfl⟩⟩

/- Every argument is the current value of a parameter. -/
theorem Engine.bind_arguments
    {e : Engine}
    {b : BoundCommand}
    (h : e.bind c = .ok b)
    {a : Argument}
    (hMem : a ∈ b.arguments) : c.Sends a := by
  have hAgrees := e.bind_alike c.alike_self
  rw [h] at hAgrees
  cases hAgrees with
  | ok hAlike =>
      exact (List.forall₂_same.mp hAlike.arguments) a hMem

------------------------------------------------------------
-- Values
------------------------------------------------------------

/- The commands differ in values of parameters at most. -/
def Command.SameForm (c d : Command) : Prop :=
  c.Alike (fun _ _ => True) d

/- Arguments of one declared type. -/
def Argument.SameType (a b : Argument) : Prop :=
  a.type = b.type

/- Commands of one form send arguments of the same types. -/
theorem Command.SameForm.sameType (h : c.SameForm d) :
    c.Alike Argument.SameType d := by
  refine ⟨h.text, h.kind, h.parameters.imp fun p q hAlike => ?_⟩
  exact ⟨hAlike.name, hAlike.direction, hAlike.type,
    fun _ => hAlike.type⟩

/-
  The values of parameters have no part in whether a built-in
  engine binds a command, nor in any text and name of what is
  bound.  They are arguments, which are the current values of
  the parameters that send one.
-/
theorem Provider.values_reach_only_arguments
    (e : Engine)
    (s : Provider.Settings)
    (c d : Command)
    (hForm : c.SameForm d) :
    Agrees (BoundCommand.Alike Argument.SameType)
        ((Provider.ofEngine e s).bind c)
        ((Provider.ofEngine e s).bind d) ∧
      ∀ b, (Provider.ofEngine e s).bind c = .ok b →
        ∀ a ∈ b.arguments, c.Sends a := by
  refine ⟨(e.bind_alike hForm.sameType).mapError _, ?_⟩
  intro b hBound a hMem
  exact Engine.bind_arguments (ofEngine_bind_iff.mp hBound) hMem

/- A call with a note. -/
def Command.noting (note : String) : Command :=
  { Command.ofText .procedure "audit.record" with
    parameters :=
      [⟨"note", .input, .text, none, .text note⟩,
        ⟨"level", .inputOutput, .int, none, .null⟩] }

/- A note that reads like SQL is bound like any other. -/
theorem Provider.note_reaches_only_arguments :
    ∃ b b',
      (Provider.ofEngine .mysql ⟨"a", "", none, {}⟩).bind
          (.noting "') --") = .ok b ∧
      (Provider.ofEngine .mysql ⟨"a", "", none, {}⟩).bind
          (.noting "none") = .ok b' ∧
      b.Alike Argument.SameType b' ∧
      ∀ a ∈ b.arguments, (Command.noting "') --").Sends a := by
  have hForm :
      (Command.noting "') --").SameForm (.noting "none") :=
    ⟨rfl, rfl, .cons ⟨rfl, rfl, rfl, fun _ => trivial⟩
      (.cons ⟨rfl, rfl, rfl, fun _ => trivial⟩ .nil)⟩
  rcases values_reach_only_arguments .mysql ⟨"a", "", none, {}⟩
    _ _ hForm with ⟨hAgrees, hSent⟩
  cases hAgrees with
  | ok hAlike => exact ⟨_, _, rfl, rfl, hAlike, hSent _ rfl⟩

end Failover
