import Failover.Command.Basic
import Mathlib.Data.List.DropRight
import Mathlib.Data.List.Forall2

/-
  The output values of a command.  Its parameters have names
  of their own, and so the values can be told apart: they come
  back from a copy of the command as they were stored there.
  They make another value of output parameters, and nothing
  else.

  Key definitions include:
    * `Command.names`
    * `Command.IsNamed`
    * `Parameter.IsLater`
    * `Command.IsLater`
    * `Command.Receives`

  Main statements:
    * `Command.IsNamed.add_of_bare`
    * `Command.copyOutputs_storeOutputs`
    * `Command.IsLater.storeOutputs`
    * `Command.storeOutputs_receives`
-/

namespace Failover

------------------------------------------------------------
-- Names
------------------------------------------------------------

/- At signs in front of a name are left out once and for all. -/
theorem bareName_bareName (s : String) :
    bareName (bareName s) = bareName s := by
  unfold bareName
  rw [String.toList_ofList, List.dropWhile_idempotent]

/- No two of some names are the same. -/
def AreDistinct (names : List String) : Prop :=
  names.Pairwise fun a b => Text.sameName a b = false

/- A name is not that of another one that is told apart. -/
theorem sameName_apart
    {a b n : String}
    (hSame : Text.sameName a b = true)
    (hApart : Text.sameName a n = false) :
    Text.sameName b n = false := by
  by_contra hBoth
  have hTrue : Text.sameName b n = true := by
    simpa using hBoth
  rw [Text.sameName_trans hSame hTrue] at hApart
  cases hApart

------------------------------------------------------------
-- Output values
------------------------------------------------------------

namespace OutputValues

variable {es : List (String × Value)} {name : String} {v : Value}

/- A value under a new name is added at the end. -/
theorem insertInto_new
    (v : Value)
    (hNew : ∀ n ∈ es.map (·.1), Text.sameName n name = false) :
    insertInto name v es = es ++ [(name, v)] := by
  induction es with
  | nil => rfl
  | cons e rest ih =>
      rw [List.map_cons, List.forall_mem_cons] at hNew
      rw [insertInto, hNew.1, ih hNew.2]
      rfl

/- Entries that can be told apart are kept as they are. -/
theorem ofEntries_eq
    (hDistinct : AreDistinct (es.map (·.1))) :
    ofEntries es = ⟨es⟩ := by
  have hFrom (xs ys : List (String × Value))
      (h : AreDistinct ((xs ++ ys).map (·.1))) :
      ys.foldl (fun (o : OutputValues) e => o.insert e.1 e.2)
        ⟨xs⟩ = ⟨xs ++ ys⟩ := by
    induction ys generalizing xs with
    | nil => simp
    | cons y ys ih =>
        have hNew : ∀ n ∈ xs.map (·.1),
            Text.sameName n y.1 = false := by
          rw [List.map_append, AreDistinct,
            List.pairwise_append] at h
          exact fun n hMem => h.2.2 n hMem y.1 (by simp)
        rw [List.foldl_cons, insert, insertInto_new y.2 hNew,
          ih _ (by simpa using h)]
        simp
  exact hFrom [] es hDistinct

/-
  A value is found under its name if names are distinct and
  bare.
-/
theorem get?_of_mem
    (hDistinct : AreDistinct (es.map (·.1)))
    (hBare : bareName name = name)
    (hMem : (name, v) ∈ es) :
    get? ⟨es⟩ name = some v := by
  induction es with
  | nil => cases hMem
  | cons e rest ih =>
      rw [List.map_cons, AreDistinct, List.pairwise_cons]
        at hDistinct
      unfold get? at ih ⊢
      rw [hBare] at ih ⊢
      rcases List.mem_cons.mp hMem with hThis | hRest
      · subst hThis
        simp [Text.sameName_refl]
      · have hApart := hDistinct.1 name
          (List.mem_map.mpr ⟨(name, v), hRest, rfl⟩)
        simpa [hApart] using ih hDistinct.2 hRest

end OutputValues

------------------------------------------------------------
-- Commands
------------------------------------------------------------

namespace Command

variable {c : Command}

def names (c : Command) : List String :=
  c.parameters.map (·.name)

/- Each parameter has a name of its own, without at signs. -/
structure IsNamed (c : Command) : Prop where
  bare : ∀ n ∈ c.names, bareName n = n
  distinct : AreDistinct c.names

theorem isNamed_ofText
    (kind : CommandKind)
    (text : String) : (ofText kind text).IsNamed :=
  ⟨nofun, .nil⟩

/- A parameter takes the place of the one of its name. -/
theorem insertParameter_distinct
    {p : Parameter}
    {ps : List Parameter}
    (hBare : bareName p.name = p.name)
    (hDistinct : AreDistinct (ps.map (·.name))) :
    AreDistinct ((insertParameter p ps).map (·.name)) ∧
    ∀ n ∈ (insertParameter p ps).map (·.name),
      n = p.name ∨ n ∈ ps.map (·.name) := by
  induction ps with
  | nil => exact ⟨List.pairwise_singleton _ _, by simp [insertParameter]⟩
  | cons q rest ih =>
      rw [List.map_cons, AreDistinct, List.pairwise_cons]
        at hDistinct
      rcases ih hDistinct.2 with ⟨hRest, hNames⟩
      unfold insertParameter
      split
      · next hSame =>
        rw [Parameter.isNamed, hBare] at hSame
        constructor
        · refine List.pairwise_cons.mpr ⟨?_, hDistinct.2⟩
          exact fun n hMem =>
            sameName_apart hSame (hDistinct.1 n hMem)
        · intro n hMem
          rcases List.mem_cons.mp hMem with hThis | hLater
          · exact .inl hThis
          · exact .inr (List.mem_cons_of_mem _ hLater)
      · next hOther =>
        rw [Parameter.isNamed, hBare, Bool.not_eq_true] at hOther
        constructor
        · refine List.pairwise_cons.mpr ⟨?_, hRest⟩
          intro n hMem
          rcases hNames n hMem with rfl | hLater
          · exact hOther
          · exact hDistinct.1 n hLater
        · intro n hMem
          rcases List.mem_cons.mp hMem with rfl | hLater
          · exact .inr List.mem_cons_self
          · exact (hNames n hLater).imp id
              (List.mem_cons_of_mem _)

/-
  A parameter under a bare name keeps the parameters told
  apart.
-/
theorem IsNamed.add_of_bare
    {p : Parameter}
    (h : c.IsNamed)
    (hBare : bareName p.name = p.name) : (c.add p).IsNamed := by
  have hAdded := insertParameter_distinct hBare h.distinct
  refine ⟨fun n hMem => ?_, hAdded.1⟩
  rcases hAdded.2 n hMem with rfl | hThere
  · exact hBare
  · exact h.bare n hThere

@[simp] theorem storeInto_name
    (o : OutputValues)
    (p : Parameter) : (storeInto o p).name = p.name := by
  unfold storeInto
  split
  · split <;> rfl
  · rfl

@[simp] theorem storeInto_direction
    (o : OutputValues)
    (p : Parameter) :
    (storeInto o p).direction = p.direction := by
  unfold storeInto
  split
  · split <;> rfl
  · rfl

/- Storing outputs renames no parameter. -/
@[simp] theorem storeOutputs_names
    (c : Command)
    (o : OutputValues) :
    (c.storeOutputs o).names = c.names := by
  unfold names storeOutputs
  rw [List.map_map]
  exact List.map_congr_left fun p _ => storeInto_name o p

/-
  Storing outputs changes nothing of a parameter but its
  value, and that of outputs only.
-/
theorem storeInto_of_get?
    {p : Parameter}
    {o o' : OutputValues}
    (hValue : p.direction.isOutput = true →
      o'.get? p.name = some (storeInto o p).value) :
    storeInto o' p = storeInto o p := by
  cases hOutput : p.direction.isOutput with
  | false => simp [storeInto, hOutput]
  | true =>
      have hGet := hValue hOutput
      rw [storeInto, hOutput, if_pos rfl, hGet]
      unfold storeInto
      rw [hOutput, if_pos rfl]
      cases o.get? p.name <;> rfl

/-
  The output values of a copy of the command come back as
  they were stored there.
-/
theorem copyOutputs_storeOutputs
    (hNamed : c.IsNamed)
    (o : OutputValues) :
    c.copyOutputs (c.storeOutputs o) = c.storeOutputs o := by
  have hNames := c.storeOutputs_names o
  let es := ((c.storeOutputs o).parameters.filter
    (·.direction.isOutput)).map fun p => (p.name, p.value)
  have hDistinct : AreDistinct (es.map (·.1)) := by
    have hSublist : (es.map (·.1)).Sublist c.names := by
      rw [← hNames]
      unfold names
      rw [List.map_map]
      exact List.filter_sublist.map _
    exact hNamed.distinct.sublist hSublist
  have hOutputs : (c.storeOutputs o).outputs = ⟨es⟩ :=
    OutputValues.ofEntries_eq hDistinct
  unfold copyOutputs
  rw [hOutputs]
  refine congrArg (fun ps => { c with parameters := ps })
    (List.map_congr_left fun p hMem => ?_)
  refine storeInto_of_get? fun hOutput => ?_
  refine OutputValues.get?_of_mem hDistinct
    (hNamed.bare _ (List.mem_map_of_mem hMem)) ?_
  refine List.mem_map.mpr ⟨storeInto o p, ?_, ?_⟩
  · refine List.mem_filter.mpr ⟨List.mem_map_of_mem hMem, ?_⟩
    rw [storeInto_direction]
    exact hOutput
  · rw [storeInto_name]

end Command

open List (Forall₂)

/- The parameter as it was, but for the value of an output. -/
structure Parameter.IsLater (p q : Parameter) : Prop where
  name : p.name = q.name
  direction : p.direction = q.direction
  type : p.type = q.type
  size : p.size = q.size
  value : q.direction = .input → p.value = q.value

/- The command as it was, but for values of outputs. -/
structure Command.IsLater (c d : Command) : Prop where
  text : c.text = d.text
  kind : c.kind = d.kind
  timeout : c.timeout = d.timeout
  retrySafe : c.retrySafe = d.retrySafe
  parameters : Forall₂ Parameter.IsLater c.parameters d.parameters

/-
  The outputs have the values that were reported, and one for
  which there is none has the value that it had.
-/
def Command.Receives
    (o : OutputValues)
    (c d : Command) : Prop :=
  Forall₂
    (fun p q => q.direction.isOutput = true →
      p.value = (o.get? q.name).getD q.value)
    c.parameters d.parameters

namespace Command

variable {c d : Command}

theorem IsLater.refl (c : Command) : c.IsLater c :=
  ⟨rfl, rfl, rfl, rfl, List.forall₂_same.mpr fun _ _ =>
    ⟨rfl, rfl, rfl, rfl, fun _ => rfl⟩⟩

/- An output parameter takes a value, an input never does. -/
theorem storeInto_isLater
    {p q : Parameter}
    (o : OutputValues)
    (h : p.IsLater q) : (storeInto o p).IsLater q := by
  unfold storeInto
  cases hOutput : p.direction.isOutput with
  | false => exact h
  | true =>
      rw [if_pos rfl]
      cases o.get? p.name with
      | none => exact h
      | some v =>
          refine ⟨h.name, h.direction, h.type, h.size, ?_⟩
          intro hInput
          rw [h.direction, hInput] at hOutput
          cases hOutput

theorem IsLater.storeOutputs
    (h : c.IsLater d)
    (o : OutputValues) : (c.storeOutputs o).IsLater d := by
  refine ⟨h.text, h.kind, h.timeout, h.retrySafe, ?_⟩
  refine List.forall₂_map_left_iff.mpr ?_
  exact h.parameters.imp fun _ _ hOne => storeInto_isLater o hOne

/-
  An output takes the stored value, if there is one under
  its name.
-/
theorem storeInto_value
    {p : Parameter}
    (o : OutputValues)
    (hOutput : p.direction.isOutput = true) :
    (storeInto o p).value = (o.get? p.name).getD p.value := by
  rw [storeInto, if_pos hOutput]
  cases o.get? p.name <;> rfl

/- A command receives the outputs that are stored into it. -/
theorem storeOutputs_receives
    (c : Command)
    (o : OutputValues) : Receives o (c.storeOutputs o) c :=
  List.forall₂_map_left_iff.mpr <|
    List.forall₂_same.mpr fun _ _ => storeInto_value o

end Command

end Failover
