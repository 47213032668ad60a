import Failover.Proofs.Common
import Failover.Proofs.Sql.Grammar
import Failover.Proofs.Sql.Rules
import Failover.Sql.Placeholder

/-
  What replacing the references of a text comes to: every
  token is written as it is, but for the references that are
  known, each of which becomes its placeholder.  References
  inside strings and comments are spared.  Where a text is
  read by the shared rules none of them is replaced.  One can
  be at and behind a token of other rules only.

  Key definitions include:
    * `Sql.Substitution.arguments`
    * `Sql.Substitution.written`
    * `Sql.Substitution.replaced`
    * `Sql.Token.IsOpaque`
    * `Sql.IsAt`
    * `Sql.Substitution.Spoils`

  Main statements:
    * `Sql.substituteTokens_eq`
    * `Sql.substitute_replaces_known_references`
    * `Sql.Substitution.Spoils.not_begins`
    * `Sql.Rules.not_isShared_of_spoils`
-/

namespace Failover

namespace Sql

namespace Substitution

------------------------------------------------------------
-- Positions
------------------------------------------------------------

/-
  The parameters of the arguments for some references in
  turn.  Where placeholders are numbered a parameter has one
  argument, at its first reference.
-/
def arguments
    (w : Substitution)
    (references : List Nat) : List Nat :=
  if w.numbered then references.eraseDups else references

/-
  The position of a reference to a parameter behind others:
  that of the parameter's argument, or of one more argument.
-/
def place
    (w : Substitution)
    (earlier : List Nat)
    (index : Nat) : Nat :=
  if w.numbered then
    (w.arguments (earlier ++ [index])).idxOf index + 1
  else earlier.length + 1

@[simp] theorem arguments_nil (w : Substitution) :
    w.arguments [] = [] := by
  simp [arguments]

/-
  A reference has the place that the scan gives it behind the
  earlier ones.
-/
theorem position_arguments
    (w : Substitution)
    (earlier : List Nat)
    (index : Nat) :
    w.position (w.arguments earlier) index =
      (w.place earlier index,
        w.arguments (earlier ++ [index])) := by
  cases hNumbered : w.numbered with
  | false => simp [position, place, arguments, hNumbered]
  | true =>
      by_cases hMem : index ∈ earlier
      · cases hFound : earlier.eraseDups.idxOf? index with
        | none => simp [hMem] at hFound
        | some i =>
            have hIndex : earlier.eraseDups.idxOf index = i := by
              rw [List.idxOf_eq_getD_idxOf?, hFound]
              rfl
            simp [position, place, arguments, hNumbered,
              eraseDups_append_singleton, hMem, hFound, hIndex]
      · have hNone :
            earlier.eraseDups.idxOf? index = none := by
          simpa using hMem
        simp [position, place, arguments, hNumbered,
          eraseDups_append_singleton, hMem, hNone,
          List.idxOf_append]

------------------------------------------------------------
-- Texts
------------------------------------------------------------

/- What a token becomes behind others. -/
def written
    (w : Substitution)
    (before : List Token)
    (t : Token) : List Char :=
  match w.target? t with
  | some index =>
      (w.placeholder
        (w.place (before.filterMap w.target?) index)
        index).toList
  | none => t.chars

/- All tokens of a text as they are written. -/
def replaced
    (w : Substitution)
    (ts : List Token) : List Char :=
  ts.zipIdx.flatMap fun x => w.written (ts.take x.2) x.1

/- A text without known references stays as it is. -/
theorem replaced_of_unknown
    {w : Substitution}
    (hUnknown : ∀ t, w.target? t = none)
    (ts : List Token) :
    w.replaced ts = ts.flatMap Token.chars := by
  have hWritten : ∀ x : Token × Nat,
      w.written (ts.take x.2) x.1 = x.1.chars := by
    intro x
    simp [written, hUnknown]
  calc
    w.replaced ts = ts.zipIdx.flatMap (fun x => x.1.chars) := by
      simp [replaced, hWritten]
    _ = (ts.zipIdx.map Prod.fst).flatMap Token.chars := by
      rw [List.flatMap_map]
    _ = ts.flatMap Token.chars := by
      rw [List.zipIdx_map_fst]

end Substitution

/- The scan from some token on, with those before it known. -/
theorem substituteTokens_eq
    (w : Substitution)
    (before ts : List Token) :
    substituteTokens w
        (w.arguments (before.filterMap w.target?)) ts =
      { sql := (ts.zipIdx before.length).flatMap fun x =>
          w.written ((before ++ ts).take x.2) x.1
        order :=
          w.arguments ((before ++ ts).filterMap w.target?)
        references := (ts.filterMap w.target?).length } := by
  induction ts generalizing before with
  | nil => simp [substituteTokens]
  | cons t ts ih =>
      have hRest := ih (before ++ [t])
      cases hTarget : w.target? t with
      | none =>
          simp only [List.filterMap_append, hTarget,
            List.filterMap_cons_none, List.filterMap_nil,
            List.append_nil] at hRest
          simp [substituteTokens, hTarget, hRest,
            Substitution.written]
      | some index =>
          simp only [List.filterMap_append,
            List.filterMap_cons_some hTarget,
            List.filterMap_nil] at hRest
          simp [substituteTokens, hTarget, hRest,
            Substitution.written,
            Substitution.position_arguments]

/- A text with its references replaced, by its tokens. -/
theorem substitute_eq
    (lex : Lexis)
    (w : Substitution)
    (sql : String) :
    substitute lex w sql =
      { sql := w.replaced (tokens lex sql.toList)
        order := w.arguments
          ((tokens lex sql.toList).filterMap w.target?)
        references :=
          ((tokens lex sql.toList).filterMap
            w.target?).length } := by
  have hAll := substituteTokens_eq w [] (tokens lex sql.toList)
  rwa [List.filterMap_nil, Substitution.arguments_nil] at hAll

/-
  A text has one reading, and of its tokens exactly the known
  references are replaced and counted.  Where no reference is
  known the text stays.
-/
theorem substitute_replaces_known_references
    (lex : Lexis)
    (w : Substitution)
    (sql : String) :
    (∃ ts,
      (∀ us, Reads lex sql.toList us ↔ us = ts) ∧
      ts.flatMap Token.chars = sql.toList ∧
      substitute lex w sql =
        { sql := w.replaced ts
          order := w.arguments (ts.filterMap w.target?)
          references := (ts.filterMap w.target?).length }) ∧
    ((∀ name, w.index? name = none) →
      substitute lex w sql =
        { sql := sql.toList, order := [], references := 0 }) := by
  have hText := flatMap_chars_tokens lex sql.toList
  refine ⟨⟨tokens lex sql.toList, ?_, hText,
    substitute_eq lex w sql⟩, ?_⟩
  · intro us
    rw [reads_iff]
    exact eq_comm
  · intro hUnknown
    have hTarget : ∀ t, w.target? t = none := by
      intro t
      cases t <;> simp [Substitution.target?, hUnknown]
    have hNone :
        (tokens lex sql.toList).filterMap w.target? = [] := by
      simp [hTarget]
    rw [substitute_eq, hNone,
      Substitution.replaced_of_unknown hTarget, hText]
    simp

------------------------------------------------------------
-- Places
------------------------------------------------------------

/- The text is a literal, a quoted name or a comment. -/
def Token.IsOpaque : Token → Prop
  | .quoted _ => True
  | .comment _ => True
  | .body _ => True
  | _ => False

/- Opaque text stays as it is and is no reference. -/
theorem Substitution.spares_opaque
    {t : Token}
    (w : Substitution)
    (h : t.IsOpaque) :
    w.target? t = none ∧
      ∀ before, w.written before t = t.chars := by
  have hNone : w.target? t = none := by
    cases t with
    | reference name => exact h.elim
    | _ => rfl
  refine ⟨hNone, fun before => ?_⟩
  rw [written, hNone]

/- A token of a reading begins behind that many characters. -/
def IsAt
    (ts : List Token)
    (t : Token)
    (n : Nat) : Prop :=
  ∃ before after, ts = before ++ t :: after ∧
    (before.flatMap Token.chars).length = n

theorem isAt_cons
    {x t : Token}
    {ts : List Token}
    {n : Nat} :
    IsAt (x :: ts) t n ↔
      t = x ∧ n = 0 ∨ ∃ m, IsAt ts t m ∧ n = x.chars.length + m := by
  constructor
  · rintro ⟨before, after, hSplit, rfl⟩
    cases before with
    | nil =>
        cases hSplit
        exact .inl ⟨rfl, rfl⟩
    | cons y before =>
        cases hSplit
        exact .inr ⟨_, ⟨before, after, rfl, rfl⟩, by simp⟩
  · rintro (⟨rfl, rfl⟩ | ⟨m, ⟨before, after, rfl, rfl⟩, rfl⟩)
    · exact ⟨[], ts, rfl, rfl⟩
    · exact ⟨x :: before, after, rfl, by simp⟩

theorem isAt_of_getElem?
    {ts : List Token}
    {t : Token}
    {n : Nat}
    (i : Nat)
    (h : ts[i]? = some t)
    (hPlace : ((ts.take i).flatMap Token.chars).length = n) :
    IsAt ts t n := by
  rcases List.getElem?_eq_some_iff.mp h with ⟨hIndex, rfl⟩
  refine ⟨ts.take i, ts.drop (i + 1), ?_, hPlace⟩
  rw [List.getElem_cons_drop, List.take_append_drop]

------------------------------------------------------------
-- Any other reading
------------------------------------------------------------

/-
  The scan replaces a reference whose at sign is, by another
  reading of the text, inside opaque text.
-/
def Substitution.Spoils
    (w : Substitution)
    (lex : Lexis)
    (ts : List Token)
    (place : Nat) : Prop :=
  ∃ t u n,
    IsAt (tokens lex (ts.flatMap Token.chars)) t place ∧
    (w.target? t).isSome = true ∧
    IsAt ts u n ∧ u.IsOpaque ∧
    n ≤ place ∧ place < n + u.chars.length

/- The scan goes along with a reading by the shared rules. -/
theorem tokens_of_begins
    {lex : Lexis}
    {t : Token}
    {rest : List Char}
    (h : Begins lex t rest) :
    tokens lex (t.chars ++ rest) = t :: tokens lex rest :=
  tokens_eq_of_reads (.cons h (reads_tokens lex rest))

/-
  However an engine reads a text, opaque text is spared up to
  the first token that is not one of the shared rules.
-/
theorem Substitution.Spoils.not_begins
    {w : Substitution}
    {lex : Lexis}
    {ts : List Token}
    {place : Nat}
    (h : w.Spoils lex ts place) :
    ∃ before t after, ts = before ++ t :: after ∧
      (before.flatMap Token.chars).length ≤ place ∧
      ¬ Begins lex t (after.flatMap Token.chars) := by
  induction ts generalizing place with
  | nil =>
      rcases h with ⟨t, u, n, -, -, ⟨before, after, hSplit, -⟩, -⟩
      exact absurd hSplit.symm (by simp)
  | cons x ts ih =>
      by_cases hBegins : Begins lex x (ts.flatMap Token.chars)
      · rcases h with
          ⟨t, u, n, hScan, hKnown, hRead, hOpaque, hFrom, hTo⟩
        have hSome : 0 < x.chars.length :=
          List.length_pos_iff.mpr hBegins.chars_ne_nil
        rw [List.flatMap_cons, tokens_of_begins hBegins,
          isAt_cons] at hScan
        rw [isAt_cons] at hRead
        rcases hScan with ⟨rfl, rfl⟩ | ⟨k, hScan, rfl⟩
        · rcases hRead with ⟨rfl, -⟩ | ⟨m, -, rfl⟩
          · rw [(w.spares_opaque hOpaque).1] at hKnown
            cases hKnown
          · omega
        · rcases hRead with ⟨rfl, rfl⟩ | ⟨m, hRead, rfl⟩
          · omega
          · have hRest : w.Spoils lex ts k :=
              ⟨t, u, m, hScan, hKnown, hRead, hOpaque,
                by omega, by omega⟩
            rcases ih hRest with
              ⟨before, y, after, rfl, hPlace, hOther⟩
            refine ⟨x :: before, y, after, rfl, ?_, hOther⟩
            rw [List.flatMap_cons, List.length_append]
            omega
      · exact ⟨[], x, ts, rfl, Nat.zero_le _, hBegins⟩

------------------------------------------------------------
-- The reading of an engine
------------------------------------------------------------

/- Each token of a text is read from what begins with it. -/
theorem Rules.exists_next_of_split
    {rules : Rules}
    {cs : List Char}
    {before after : List Token}
    {t : Token}
    (h : rules.tokens cs = before ++ t :: after) :
    ∃ c r, t = (rules.next c r).1 ∧
      after.flatMap Token.chars = (rules.next c r).2 := by
  fun_induction rules.tokens cs generalizing before with
  | case1 => exact absurd h (by simp)
  | case2 c r ih =>
      cases before with
      | nil =>
          rw [List.nil_append, List.cons.injEq] at h
          refine ⟨c, r, h.1.symm, ?_⟩
          rw [← h.2, rules.flatMap_chars_tokens]
      | cons x before =>
          rw [List.cons_append, List.cons.injEq] at h
          exact ih h.2

/- Spoiled text is at or behind a token of the engine's own. -/
theorem Rules.not_isShared_of_spoils
    {rules : Rules}
    {w : Substitution}
    {cs : List Char}
    {place : Nat}
    (h : w.Spoils rules.lexis (rules.tokens cs) place) :
    ∃ t n, IsAt (rules.tokens cs) t n ∧ n ≤ place ∧
      ¬ t.IsShared := by
  rcases h.not_begins with
    ⟨before, t, after, hSplit, hPlace, hOther⟩
  rcases exists_next_of_split hSplit with ⟨c, r, rfl, hRest⟩
  refine ⟨_, _, ⟨before, after, hSplit, rfl⟩, hPlace, ?_⟩
  rwa [hRest, rules.begins_next_iff] at hOther

end Sql

end Failover
