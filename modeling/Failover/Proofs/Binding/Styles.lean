import Failover.Proofs.Common
import Failover.Proofs.Binding.Values

/-
  Placeholders in two styles.  Where they are numbered, the
  references to one parameter share an argument, and else each
  reference has one of its own.  A text is the same around its
  placeholders in both styles, and what stands for a reference
  leads to the same argument.

  Key definitions include:
    * `Sql.Frame`, `Sql.frame`
    * `Sql.Substitution.places`
    * `Sql.InBothStyles`
    * `Statement.ResolvesAlike`

  Main statements:
    * `Sql.substituteTokens_framed`
    * `Sql.exists_inBothStyles`
    * `Statement.resolvesAlike`
    * `Statement.styles_agree`
-/

namespace Failover

namespace Sql

------------------------------------------------------------
-- Text around placeholders
------------------------------------------------------------

/-
  What stands before the first placeholder of a text, and what
  stands behind each of them.
-/
structure Frame where
  lead : List Char
  behind : List (List Char)

/- The text with its placeholders. -/
def Frame.fill
    (f : Frame)
    (placeholders : List String) : List Char :=
  f.lead ++
    (List.zipWith (·.toList ++ ·) placeholders f.behind).flatten

/- The text of tokens around those that have a target. -/
def frame (target? : Token → Option Nat) : List Token → Frame
  | [] => ⟨[], []⟩
  | t :: ts =>
      let rest := frame target? ts
      match target? t with
      | some _ => ⟨[], rest.lead :: rest.behind⟩
      | none => ⟨t.chars ++ rest.lead, rest.behind⟩

/- Behind each of the targets there is a text. -/
theorem length_behind_frame
    (target? : Token → Option Nat)
    (ts : List Token) :
    (frame target? ts).behind.length =
      (ts.filterMap target?).length := by
  induction ts with
  | nil => rfl
  | cons t ts ih =>
      unfold frame
      cases hTarget : target? t with
      | none => rwa [List.filterMap_cons_none hTarget]
      | some i =>
          rw [List.filterMap_cons_some hTarget]
          exact congrArg (· + 1) ih

namespace Substitution

/- The positions of some references behind others, in turn. -/
def places
    (w : Substitution)
    (earlier : List Nat) : List Nat → List Nat
  | [] => []
  | i :: rest =>
      w.place earlier i :: w.places (earlier ++ [i]) rest

/- Without numbers each reference has an argument of its own. -/
theorem places_own
    {w : Substitution}
    (hNumbered : w.numbered = false)
    (earlier later : List Nat) :
    w.places earlier later =
      List.range' (earlier.length + 1) later.length := by
  induction later generalizing earlier with
  | nil => rfl
  | cons i rest ih =>
      have hPlace : w.place earlier i = earlier.length + 1 := by
        simp [place, hNumbered]
      rw [places, hPlace, ih, List.length_append]
      rfl

/- With numbers a reference has the argument of its parameter. -/
theorem places_shared
    {w : Substitution}
    (hNumbered : w.numbered = true)
    (earlier later : List Nat) :
    w.places earlier later =
      later.map fun i =>
        (earlier ++ later).eraseDups.idxOf i + 1 := by
  induction later generalizing earlier with
  | nil => rfl
  | cons i rest ih =>
      have hAll :
          earlier ++ i :: rest = earlier ++ [i] ++ rest :=
        List.append_cons earlier i rest
      have hMem : i ∈ (earlier ++ [i]).eraseDups := by
        simp
      have hPlace : w.place earlier i =
          (earlier ++ i :: rest).eraseDups.idxOf i + 1 := by
        rw [hAll, List.eraseDups_append,
          List.idxOf_append_of_mem hMem]
        simp [place, arguments, hNumbered]
      rw [places, List.map_cons, hPlace, ih, ← hAll]

end Substitution

/-
  A scan gives each reference its placeholder, and leaves the
  text around it.
-/
theorem substituteTokens_framed
    (w : Substitution)
    (earlier : List Nat)
    (ts : List Token) :
    substituteTokens w (w.arguments earlier) ts =
      { sql := (frame w.target? ts).fill
          (List.zipWith w.placeholder
            (w.places earlier (ts.filterMap w.target?))
            (ts.filterMap w.target?))
        order :=
          w.arguments (earlier ++ ts.filterMap w.target?)
        references := (ts.filterMap w.target?).length } := by
  induction ts generalizing earlier with
  | nil => simp [substituteTokens, frame, Frame.fill]
  | cons t ts ih =>
      cases hTarget : w.target? t with
      | none =>
          simp [substituteTokens, hTarget, ih earlier, frame,
            Frame.fill]
      | some i =>
          have hRest := ih (earlier ++ [i])
          simp [substituteTokens, hTarget, hRest, frame,
            Frame.fill, Substitution.position_arguments,
            Substitution.places]

------------------------------------------------------------
-- Both styles
------------------------------------------------------------

/-
  A text in both styles, with the parameters of its references
  in turn.  Without numbers the placeholders have one position
  after the other, and with numbers the given ones.
-/
structure InBothStyles
    (lex : Lexis)
    (index? : String → Option Nat)
    (sql : String)
    (frame : Frame)
    (order positions : List Nat) : Prop where
  framed : frame.behind.length = order.length
  placed : positions.length = order.length
  single : ∀ placeholder,
    substitute lex
        { numbered := false, index?, placeholder } sql =
      { sql := frame.fill
          (List.zipWith placeholder
            (List.range' 1 order.length) order)
        order
        references := order.length }
  numbered : ∀ placeholder,
    substitute lex
        { numbered := true, index?, placeholder } sql =
      { sql := frame.fill
          (List.zipWith placeholder positions order)
        order := order.eraseDups
        references := order.length }
  resolved : ∀ i p : Nat, positions[i]? = some p →
    0 < p ∧ order.eraseDups[p - 1]? = order[i]?
  used : ∀ p, 0 < p → p ≤ order.eraseDups.length →
    p ∈ positions

/- Each text has its references in both styles. -/
theorem exists_inBothStyles
    (lex : Lexis)
    (index? : String → Option Nat)
    (sql : String) :
    ∃ frame order positions,
      InBothStyles lex index? sql frame order positions := by
  let plain : Substitution :=
    { numbered := false, index?, placeholder := fun _ _ => "" }
  let ts := tokens lex sql.toList
  let known := ts.filterMap plain.target?
  have hMem (i : Nat) (hI : i ∈ known) :
      known.eraseDups.idxOf i < known.eraseDups.length := by
    rw [List.idxOf_lt_length_iff, List.mem_eraseDups]
    exact hI
  refine ⟨frame plain.target? ts, known,
    known.map fun i => known.eraseDups.idxOf i + 1,
    ⟨length_behind_frame _ ts, List.length_map _, ?_, ?_, ?_, ?_⟩⟩
  · intro placeholder
    have hAll := substituteTokens_framed
      { numbered := false, index?, placeholder } [] ts
    rw [Substitution.places_own rfl] at hAll
    exact hAll
  · intro placeholder
    have hAll := substituteTokens_framed
      { numbered := true, index?, placeholder } [] ts
    rw [Substitution.places_shared rfl,
      Substitution.arguments_nil] at hAll
    exact hAll
  · intro i p hP
    rw [List.getElem?_map] at hP
    obtain ⟨index, hIndex, rfl⟩ := Option.map_eq_some_iff.mp hP
    have hLess := hMem index (List.mem_of_getElem? hIndex)
    refine ⟨Nat.succ_pos _, ?_⟩
    rw [Nat.add_sub_cancel, hIndex,
      List.getElem?_eq_getElem hLess, List.getElem_idxOf]
  · intro p hPos hLess
    have hIn : p - 1 < known.eraseDups.length := by
      omega
    refine List.mem_map.mpr
      ⟨known.eraseDups[p - 1], ?_, ?_⟩
    · exact List.mem_eraseDups.mp (List.getElem_mem hIn)
    · rw [(nodup_eraseDups known).idxOf_getElem]
      omega

end Sql

------------------------------------------------------------
-- Commands
------------------------------------------------------------

namespace Statement

/- The place of the input that a name refers to. -/
def inputIndex?
    (c : Command)
    (name : String) : Option Nat :=
  c.parameters.findIdx? (·.isInputNamed name)

/-
  What stands for each reference of a command's text leads to
  the argument of one input in both styles.
-/
def ResolvesAlike
    (lex : Sql.Lexis)
    (c : Command)
    (order positions : List Nat) : Prop :=
  ∀ (numbered single : Nat → Nat → String) (i p : Nat),
    positions[i]? = some p →
    ∃ j x, order[i]? = some j ∧ c.parameters[j]? = some x ∧
      x.direction = .input ∧
      (ofText lex true numbered c).arguments[p - 1]? =
        some x.argument ∧
      (ofText lex false single c).arguments[i]? =
        some x.argument

theorem resolvesAlike
    {lex : Sql.Lexis}
    {c : Command}
    {frame : Sql.Frame}
    {order positions : List Nat}
    (h : Sql.InBothStyles lex (inputIndex? c) c.text frame order
      positions) :
    ResolvesAlike lex c order positions := by
  intro numbered single i p hP
  have hNumbered := h.numbered numbered
  have hSingle := h.single single
  unfold inputIndex? at hNumbered hSingle
  have hIn : i < order.length := by
    rw [← h.placed]
    exact (List.getElem?_eq_some_iff.mp hP).1
  have hInput (j : Nat) (hJ : j ∈ order) :
      ∃ x, c.parameters[j]? = some x ∧ x.direction = .input := by
    have hThere : j ∈ (Sql.substitute lex
        { numbered := false, index? := inputIndex? c,
          placeholder := single } c.text).order := by
      rw [h.single]
      exact hJ
    exact isInput_of_order hThere
  have hFound (j : Nat) (hJ : j ∈ order) :
      (c.parameters[j]?.map (·.argument)).isSome = true := by
    obtain ⟨x, hX, -⟩ := hInput j hJ
    rw [hX]
    rfl
  -- A text with references takes the arguments of these.
  have hSome : order.length ≠ 0 := by
    omega
  obtain ⟨x, hX, hDirection⟩ :=
    hInput order[i] (List.getElem_mem hIn)
  have hI := List.getElem?_eq_getElem hIn
  refine ⟨order[i], x, hI, hX, hDirection, ?_, ?_⟩
  · unfold ofText
    simp only [hNumbered, if_neg hSome]
    rw [getElem?_filterMap_of_isSome fun j hJ =>
      hFound j (List.mem_eraseDups.mp hJ),
      (h.resolved i p hP).2, hI, Option.bind_some, hX]
    rfl
  · unfold ofText
    simp only [hSingle, if_neg hSome]
    rw [getElem?_filterMap_of_isSome hFound, hI,
      Option.bind_some, hX]
    rfl

/-
  The two styles agree on each text, for whatever its names
  refer to, and on the arguments of each command.
-/
theorem styles_agree (lex : Sql.Lexis) :
    (∀ index? sql, ∃ frame order positions,
      Sql.InBothStyles lex index? sql frame order positions) ∧
    ∀ c : Command, ∃ frame order positions,
      Sql.InBothStyles lex (inputIndex? c) c.text frame order
        positions ∧
      ResolvesAlike lex c order positions := by
  refine ⟨Sql.exists_inBothStyles lex, fun c => ?_⟩
  obtain ⟨frame, order, positions, h⟩ :=
    Sql.exists_inBothStyles lex (inputIndex? c) c.text
  exact ⟨frame, order, positions, h, resolvesAlike h⟩

end Statement

end Failover
