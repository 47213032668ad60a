import Failover.Proofs.Command.Outputs
import Failover.Proofs.Text.Lower
import Mathlib.Data.List.Induction
import Mathlib.Data.List.Nodup
import Mathlib.Data.List.TakeWhile

/-
  The parameters of a command as an ordered map.  However they
  are written when they are added, their names are told apart,
  they stand in the order in which their names came first, and
  each one is the last of its name.  A parameter is found under
  every spelling of its name: with any number of at signs in
  front of it, and with its ASCII letters in any case.

  Key definitions include:
    * `Text.HasSign`, `Text.IsSpelling`
    * `IsLast`
    * `Command.ofParameters`
    * `Command.IsOrderedMap`

  Main statements:
    * `Text.isSpelling_iff`
    * `Command.parameter?_ofParameters`
    * `Command.IsNamed.parameter?_eq_some_iff`
    * `Command.ordered_ofParameters`
    * `Command.isOrderedMap_ofParameters`
-/

namespace Failover

------------------------------------------------------------
-- Spellings
------------------------------------------------------------

namespace Text

variable {s name : String}

/- A text with an at sign in front. -/
def HasSign (s : String) : Prop :=
  s.toList.head? = some '@'

instance (s : String) : Decidable (HasSign s) := by
  unfold HasSign
  infer_instance

/-
  A way to write a name: any number of at signs and after them
  the name, its ASCII letters in any case.
-/
def IsSpelling (s name : String) : Prop :=
  ∃ signs t,
    s = String.ofList (List.replicate signs '@') ++ t ∧
    sameName t name = true

/- Names that are the same stand for the same names. -/
theorem sameName_congr
    {a b : String}
    (hSame : sameName a b = true)
    (n : String) : sameName a n = sameName b n := by
  rw [Bool.eq_iff_iff, sameName_iff, sameName_iff,
    (sameName_iff a b).mp hSame]

/- The case of its letters gives a name no at sign. -/
theorem hasSign_congr (hSame : sameName s name = true) :
    HasSign s ↔ HasSign name := by
  have hHead (t : String) :
      HasSign t ↔ (t.toList.map foldChar).head? = some '@' := by
    unfold HasSign
    cases t.toList with
    | nil => simp
    | cons c rest =>
        have hFold : (foldChar c == '@') = (c == '@') :=
          apply_foldChar (· == '@') (by decide +kernel) c
        rw [Bool.eq_iff_iff, beq_iff_eq, beq_iff_eq] at hFold
        simpa using hFold.symm
  rw [hHead, hHead, (sameName_iff s name).mp hSame]

theorem bareName_eq_self_iff :
    bareName s = s ↔ ¬ HasSign s := by
  rw [← String.toList_inj, bareName, String.toList_ofList,
    HasSign]
  cases s.toList with
  | nil => simp
  | cons c rest =>
      rw [List.dropWhile_eq_self_iff]
      simp

theorem bareName_append
    (signs : Nat)
    (t : String) :
    bareName (String.ofList (List.replicate signs '@') ++ t) =
      bareName t := by
  unfold bareName
  rw [String.toList_append, String.toList_ofList,
    List.dropWhile_append_of_pos (by simp)]

/- A text is some at signs and what it is without them. -/
theorem eq_append_bareName (s : String) :
    ∃ signs, s =
      String.ofList (List.replicate signs '@') ++ bareName s := by
  let signs := s.toList.takeWhile (· == '@')
  have hSigns : List.replicate signs.length '@' = signs := by
    refine (List.eq_replicate_of_mem fun c hMem => ?_).symm
    simpa using List.mem_takeWhile_imp hMem
  refine ⟨signs.length, String.toList_inj.mp ?_⟩
  rw [hSigns, String.toList_append, bareName,
    String.toList_ofList, String.toList_ofList,
    List.takeWhile_append_dropWhile]

/-
  The spellings of a name without an at sign are those of
  which the name is left without their at signs.
-/
theorem isSpelling_iff (hName : bareName name = name) :
    IsSpelling s name ↔ sameName (bareName s) name = true := by
  constructor
  · rintro ⟨signs, t, rfl, hSame⟩
    have hBare : bareName t = t := by
      rw [bareName_eq_self_iff, hasSign_congr hSame,
        ← bareName_eq_self_iff]
      exact hName
    rw [bareName_append, hBare]
    exact hSame
  · intro hSame
    rcases eq_append_bareName s with ⟨signs, hText⟩
    exact ⟨signs, bareName s, hText, hSame⟩

/- Without an at sign a spelling is the name up to case. -/
theorem isSpelling_iff_sameName
    (hName : bareName name = name)
    (hUnsigned : ¬ HasSign s) :
    IsSpelling s name ↔ sameName s name = true := by
  rw [isSpelling_iff hName, bareName_eq_self_iff.mpr hUnsigned]

/- A name without an at sign is none with one up to case. -/
theorem sameName_of_hasSign
    (hName : bareName name = name)
    (hSign : HasSign s) : sameName s name = false := by
  rw [Bool.eq_false_iff]
  intro hSame
  exact bareName_eq_self_iff.mp hName
    ((hasSign_congr hSame).mp hSign)

end Text

open Text (HasSign IsSpelling sameName)

/-
  Of elements that are told apart by name no two have one
  name.
-/
theorem AreDistinct.eq_of_sameName
    {α : Type}
    {name : α → String}
    {xs : List α}
    {x y : α}
    (h : AreDistinct (xs.map name))
    (hX : x ∈ xs)
    (hY : y ∈ xs)
    (hSame : sameName (name x) (name y) = true) : x = y := by
  have hFolded :
      (xs.map fun x => (name x).toList.map Text.foldChar).Nodup := by
    rw [AreDistinct, List.pairwise_map] at h
    refine List.pairwise_map.mpr (h.imp fun hApart hEqual => ?_)
    rw [(Text.sameName_iff _ _).mpr hEqual] at hApart
    cases hApart
  exact List.inj_on_of_nodup_map hFolded hX hY
    ((Text.sameName_iff _ _).mp hSame)

------------------------------------------------------------
-- Last elements
------------------------------------------------------------

section Last

variable {α : Type} {P Q : α → Prop} {xs : List α} {x : α}

/- Of the elements with a property this one comes last. -/
def IsLast
    (P : α → Prop)
    (xs : List α)
    (x : α) : Prop :=
  ∃ before after,
    xs = before ++ x :: after ∧ P x ∧ ∀ y ∈ after, ¬ P y

theorem find?_reverse_eq_some_iff {p : α → Bool} :
    xs.reverse.find? p = some x ↔ IsLast (p · = true) xs x := by
  rw [List.find?_eq_some_iff_append]
  constructor
  · rintro ⟨hX, after, before, hReverse, hNone⟩
    rw [List.reverse_eq_append_iff, List.reverse_cons,
      List.append_assoc] at hReverse
    exact ⟨_, _, hReverse, hX, by simpa using hNone⟩
  · rintro ⟨before, after, rfl, hX, hNone⟩
    exact ⟨hX, after.reverse, before.reverse, by simp,
      by simpa using hNone⟩

theorem IsLast.mem (h : IsLast P xs x) : x ∈ xs ∧ P x := by
  rcases h with ⟨before, after, rfl, hX, -⟩
  exact ⟨by simp, hX⟩

theorem IsLast.congr
    (h : IsLast P xs x)
    (hSame : ∀ y ∈ xs, P y ↔ Q y) : IsLast Q xs x := by
  rcases h with ⟨before, after, rfl, hX, hNone⟩
  refine ⟨before, after, rfl, (hSame x (by simp)).mp hX, ?_⟩
  intro y hMem hY
  exact hNone y hMem ((hSame y (by simp [hMem])).mpr hY)

end Last

------------------------------------------------------------
-- Parameters
------------------------------------------------------------

namespace Command

variable {c : Command} {ps : List Parameter} {p q : Parameter}

/- A command to which some parameters were added in turn. -/
def ofParameters
    (kind : CommandKind)
    (text : String)
    (ps : List Parameter) : Command :=
  ps.foldl add (ofText kind text)

theorem ofParameters_concat
    (kind : CommandKind)
    (text : String)
    (ps : List Parameter)
    (p : Parameter) :
    ofParameters kind text (ps ++ [p]) =
      (ofParameters kind text ps).add p := by
  unfold ofParameters
  rw [List.foldl_append]
  rfl

/- Where a name is used first in some parameters. -/
def firstPlace
    (ps : List Parameter)
    (name : String) : Nat :=
  ps.findIdx fun p => sameName p.name name

/-
  The command holds, of the parameters that were added to it,
  the last one of each name, in the order in which the names
  came first.
-/
structure IsOrderedMap
    (ps : List Parameter)
    (c : Command) : Prop where
  unsigned : ∀ n ∈ c.names, ¬ HasSign n
  distinct : AreDistinct c.names
  complete : ∀ p ∈ ps, ∃ q ∈ c.parameters,
    sameName q.name p.name = true
  last : ∀ q ∈ c.parameters,
    IsLast (fun p => sameName p.name q.name = true) ps q
  ordered : (c.names.map (firstPlace ps)).Pairwise (· < ·)

/- A parameter is found under its name and hides no other one. -/
theorem parameter?_add
    (hBare : bareName p.name = p.name)
    (c : Command)
    (s : String) :
    (c.add p).parameter? s =
      if p.isNamed s then some p else c.parameter? s := by
  have hInsert (qs : List Parameter) :
      (insertParameter p qs).find? (·.isNamed s) =
        if p.isNamed s then some p
        else qs.find? (·.isNamed s) := by
    induction qs with
    | nil =>
        rw [insertParameter, List.find?_cons]
        cases p.isNamed s <;> rfl
    | cons q rest ih =>
        unfold insertParameter
        split
        · next hSame =>
          -- The two names stand for each other, so they are
          -- asked for together.
          rw [Parameter.isNamed, hBare] at hSame
          have hTogether : q.isNamed s = p.isNamed s :=
            Text.sameName_congr hSame (bareName s)
          rw [List.find?_cons, List.find?_cons, hTogether]
          cases p.isNamed s <;> rfl
        · next hOther =>
          rw [Parameter.isNamed, hBare, Bool.not_eq_true] at hOther
          rw [List.find?_cons, List.find?_cons, ih]
          cases hAsked : q.isNamed s with
          | false => rfl
          | true =>
              have hNot : p.isNamed s = false := by
                rw [Parameter.isNamed, Text.sameName_comm]
                exact sameName_apart hAsked hOther
              rw [hNot]
              rfl
  exact hInsert c.parameters

/- Of the parameters that were added the last one is found. -/
theorem parameter?_ofParameters
    (kind : CommandKind)
    (text : String)
    (hBare : ∀ p ∈ ps, bareName p.name = p.name)
    (s : String) :
    (ofParameters kind text ps).parameter? s =
      ps.reverse.find? (·.isNamed s) := by
  induction ps using List.reverseRecOn with
  | nil => rfl
  | append_singleton ps p ih =>
      rw [ofParameters_concat, parameter?_add (hBare p (by simp)),
        ih fun q hMem => hBare q (by simp [hMem]),
        List.reverse_concat, List.find?_cons]
      cases p.isNamed s <;> rfl

theorem isNamed_ofParameters
    (kind : CommandKind)
    (text : String)
    (hBare : ∀ p ∈ ps, bareName p.name = p.name) :
    (ofParameters kind text ps).IsNamed := by
  induction ps using List.reverseRecOn with
  | nil => exact isNamed_ofText kind text
  | append_singleton ps p ih =>
      rw [ofParameters_concat]
      exact (ih fun q hMem => hBare q (by simp [hMem])).add_of_bare
        (hBare p (by simp))

theorem of_parameter?
    {s : String}
    (hFound : c.parameter? s = some q) :
    q ∈ c.parameters ∧ q.isNamed s = true := by
  have hFind : c.parameters.find? (·.isNamed s) = some q := hFound
  have hNamed := List.find?_some hFind
  exact ⟨List.mem_of_find?_eq_some hFind, hNamed⟩

/- A parameter is found exactly under its spellings. -/
theorem IsNamed.parameter?_eq_some_iff
    (h : c.IsNamed)
    (s : String) :
    c.parameter? s = some q ↔
      q ∈ c.parameters ∧ IsSpelling s q.name := by
  have hSpelling {p : Parameter} (hMem : p ∈ c.parameters) :
      IsSpelling s p.name ↔ p.isNamed s = true := by
    rw [Text.isSpelling_iff (h.bare _ (List.mem_map_of_mem hMem)),
      Parameter.isNamed, Text.sameName_comm]
  constructor
  · intro hFound
    rcases of_parameter? hFound with ⟨hMem, hNamed⟩
    exact ⟨hMem, (hSpelling hMem).mpr hNamed⟩
  · rintro ⟨hMem, hWritten⟩
    have hNamed := (hSpelling hMem).mp hWritten
    cases hFound : c.parameter? s with
    | none =>
        have hNone := List.find?_eq_none.mp hFound q hMem
        exact absurd hNamed hNone
    | some p =>
        rcases of_parameter? hFound with ⟨hThere, hOther⟩
        rw [Parameter.isNamed, Text.sameName_comm] at hNamed
        have hSame : sameName p.name q.name = true :=
          Text.sameName_trans hOther hNamed
        rw [h.distinct.eq_of_sameName hThere hMem hSame]

------------------------------------------------------------
-- Order
------------------------------------------------------------

/-
  What is the same for names that are the same is as it was,
  or that of the new name comes last.
-/
theorem names_add
    {β : Type}
    {f : String → β}
    (hBare : bareName p.name = p.name)
    (hSame : ∀ m n, sameName m n = true → f m = f n)
    (c : Command) :
    (c.add p).names.map f =
      if c.names.any (sameName · p.name) then c.names.map f
      else c.names.map f ++ [f p.name] := by
  have hInsert (qs : List Parameter) :
      ((insertParameter p qs).map (·.name)).map f =
        if (qs.map (·.name)).any (sameName · p.name) then
          (qs.map (·.name)).map f
        else (qs.map (·.name)).map f ++ [f p.name] := by
    induction qs with
    | nil => rfl
    | cons q rest ih =>
        unfold insertParameter
        rw [Parameter.isNamed, hBare, List.map_cons, List.any_cons]
        cases hNamed : sameName q.name p.name with
        | true =>
            rw [if_pos rfl, Bool.true_or, if_pos rfl,
              List.map_cons, List.map_cons, List.map_cons,
              hSame _ _ hNamed]
        | false =>
            rw [if_neg Bool.false_ne_true, Bool.false_or,
              List.map_cons, List.map_cons, ih, List.map_cons]
            split <;> rfl
  exact hInsert c.parameters

theorem firstPlace_congr
    (ps : List Parameter)
    {m n : String}
    (hSame : sameName m n = true) :
    firstPlace ps m = firstPlace ps n := by
  unfold firstPlace
  congr 1
  funext p
  rw [Text.sameName_comm, Text.sameName_congr hSame,
    Text.sameName_comm]

/- A name that was used keeps its place. -/
theorem firstPlace_concat
    (p : Parameter)
    {n : String}
    (hUsed : firstPlace ps n < ps.length) :
    firstPlace (ps ++ [p]) n = firstPlace ps n := by
  unfold firstPlace at hUsed ⊢
  rw [List.findIdx_append, if_pos hUsed]

/- A new name comes after those that were used. -/
theorem firstPlace_new
    (hNew : ∀ q ∈ ps, sameName q.name p.name = false) :
    firstPlace (ps ++ [p]) p.name = ps.length := by
  have hLength : firstPlace ps p.name = ps.length :=
    List.findIdx_eq_length.mpr hNew
  unfold firstPlace at hLength ⊢
  rw [List.findIdx_append, hLength, if_neg (lt_irrefl _),
    List.findIdx_cons, Text.sameName_refl]
  exact Nat.zero_add _

/-
  A parameter of the command is the last one that was added
  under its name.
-/
theorem last_ofParameters
    (kind : CommandKind)
    (text : String)
    (hBare : ∀ p ∈ ps, bareName p.name = p.name)
    (hMem : q ∈ (ofParameters kind text ps).parameters) :
    IsLast (fun p => sameName p.name q.name = true) ps q := by
  have hNamed := isNamed_ofParameters kind text hBare
  have hName := hNamed.bare _ (List.mem_map_of_mem hMem)
  have hFound := (hNamed.parameter?_eq_some_iff q.name).mpr
    ⟨hMem, (Text.isSpelling_iff hName).mpr
      (by rw [hName]; exact Text.sameName_refl _)⟩
  rw [parameter?_ofParameters kind text hBare,
    find?_reverse_eq_some_iff] at hFound
  refine hFound.congr fun p _ => ?_
  rw [Parameter.isNamed, hName]

/-
  Each parameter that was added has one of its name in the
  command.
-/
theorem complete_ofParameters
    (kind : CommandKind)
    (text : String)
    (hBare : ∀ p ∈ ps, bareName p.name = p.name)
    (hMem : p ∈ ps) :
    ∃ q ∈ (ofParameters kind text ps).parameters,
      sameName q.name p.name = true := by
  have hFound :=
    parameter?_ofParameters kind text hBare p.name
  cases hLast : ps.reverse.find? (·.isNamed p.name) with
  | none =>
      have hNone := List.find?_eq_none.mp hLast p (by simpa)
      rw [Parameter.isNamed, hBare p hMem] at hNone
      exact absurd (Text.sameName_refl _) hNone
  | some q =>
      rw [hLast] at hFound
      rcases of_parameter? hFound with ⟨hThere, hNamed⟩
      rw [Parameter.isNamed, hBare p hMem] at hNamed
      exact ⟨q, hThere, hNamed⟩

theorem firstPlace_lt
    (kind : CommandKind)
    (text : String)
    {n : String}
    (hBare : ∀ p ∈ ps, bareName p.name = p.name)
    (hMem : n ∈ (ofParameters kind text ps).names) :
    firstPlace ps n < ps.length := by
  rcases List.mem_map.mp hMem with ⟨q, hThere, rfl⟩
  have hLast := last_ofParameters kind text hBare hThere
  exact List.findIdx_lt_length.mpr ⟨q, hLast.mem⟩

/- A name that the command does not have was never used. -/
theorem unused_of_names
    (kind : CommandKind)
    (text : String)
    {n : String}
    (hBare : ∀ p ∈ ps, bareName p.name = p.name)
    (hAbsent : ¬ (ofParameters kind text ps).names.any
      (sameName · n) = true) :
    ∀ q ∈ ps, sameName q.name n = false := by
  intro q hMem
  rw [Bool.eq_false_iff]
  intro hSame
  rcases complete_ofParameters kind text hBare hMem with
    ⟨r, hThere, hFirst⟩
  exact hAbsent (List.any_eq_true.mpr
    ⟨r.name, List.mem_map_of_mem hThere,
      Text.sameName_trans hFirst hSame⟩)

/- The names stand in the order of their first places. -/
theorem ordered_ofParameters
    (kind : CommandKind)
    (text : String)
    (hBare : ∀ p ∈ ps, bareName p.name = p.name) :
    ((ofParameters kind text ps).names.map
      (firstPlace ps)).Pairwise (· < ·) := by
  induction ps using List.reverseRecOn with
  | nil => exact .nil
  | append_singleton ps p ih =>
      have hBefore : ∀ q ∈ ps, bareName q.name = q.name :=
        fun q hMem => hBare q (by simp [hMem])
      have hKept : (ofParameters kind text ps).names.map
          (firstPlace (ps ++ [p])) =
            (ofParameters kind text ps).names.map
              (firstPlace ps) :=
        List.map_congr_left fun n hMem =>
          firstPlace_concat p (firstPlace_lt kind text hBefore hMem)
      rw [ofParameters_concat,
        names_add (hBare p (by simp))
          fun _ _ => firstPlace_congr _, hKept]
      split
      · exact ih hBefore
      · next hAbsent =>
        rw [firstPlace_new
          (unused_of_names kind text hBefore hAbsent)]
        refine List.pairwise_append.mpr
          ⟨ih hBefore, List.pairwise_singleton _ _, ?_⟩
        intro place hPlace last hLast
        rcases List.mem_map.mp hPlace with ⟨n, hMem, rfl⟩
        rw [List.mem_singleton.mp hLast]
        exact firstPlace_lt kind text hBefore hMem

/- The parameters that were added make up an ordered map. -/
theorem isOrderedMap_ofParameters
    (kind : CommandKind)
    (text : String)
    (hBare : ∀ p ∈ ps, bareName p.name = p.name) :
    (ofParameters kind text ps).IsOrderedMap ps := by
  have hNamed := isNamed_ofParameters kind text hBare
  constructor
  · intro n hMem
    exact Text.bareName_eq_self_iff.mp (hNamed.bare n hMem)
  · exact hNamed.distinct
  · exact fun p hMem => complete_ofParameters kind text hBare hMem
  · exact fun q hMem => last_ofParameters kind text hBare hMem
  · exact ordered_ofParameters kind text hBare

end Command

end Failover
