import Failover.Sql.Token
import Mathlib.Data.List.Infix
import Mathlib.Data.List.TakeWhile
import Mathlib.Tactic.Tauto

/-
  A grammar of SQL tokens that says of each kind what its
  text is and what may follow it.  Tokenizing is the one way
  of reading a text by this grammar.

  Key definitions include:
    * `Sql.Inside`
    * `Sql.FirstAt`
    * `Sql.Begins`
    * `Sql.Reads`

  Main statements:
    * `Sql.begins_next`
    * `Sql.next_eq_of_begins`
    * `Sql.reads_iff`
-/

namespace Failover

namespace Sql

------------------------------------------------------------
-- The grammar
------------------------------------------------------------

/- The quotes that open and close a region. -/
def IsQuote (q : Char) : Prop :=
  q = '\'' ∨ q = '"' ∨ q = '`'

instance (q : Char) : Decidable (IsQuote q) := by
  unfold IsQuote
  infer_instance

/- A backslash escapes between quotes other than backticks. -/
def escapesIn
    (lex : Lexis)
    (q : Char) : Bool :=
  lex.backslashEscapes && q != '`'

/-
  What may stand between two quotes: characters that are
  neither the quote nor an escaping backslash, the quote
  written twice, and a backslash with the character that it
  escapes.
-/
inductive Inside
    (escapes : Bool)
    (q : Char) : List Char → Prop where
  | nil : Inside escapes q []
  | plain
      {c : Char}
      {r : List Char}
      (hQuote : c ≠ q)
      (hEscape : escapes = true → c ≠ '\\')
      (hRest : Inside escapes q r) : Inside escapes q (c :: r)
  | doubled
      {r : List Char}
      (hRest : Inside escapes q r) :
      Inside escapes q (q :: q :: r)
  | escaped
      {d : Char}
      {r : List Char}
      (hEscape : escapes = true)
      (hRest : Inside escapes q r) :
      Inside escapes q ('\\' :: d :: r)

/- A mark behind a text, and nowhere before. -/
def FirstAt (mark s : List Char) : Prop :=
  ∀ a b, s ++ mark = a ++ (mark ++ b) → b = []

/- The characters before a text's end, or before no such one. -/
def StopsBefore
    (p : Char → Bool)
    (rest : List Char) : Prop :=
  ∀ c ∈ rest.head?, p c = false

/- The tag of a dollar quote with a name. -/
def tagOf (name : List Char) : List Char :=
  '$' :: (name ++ ['$'])

/- A longer token than a single character begins here. -/
def OpensToken
    (lex : Lexis)
    (c : Char)
    (rest : List Char) : Prop :=
  IsQuote c ∨
    (c = '-' ∧ ['-'] <+: rest) ∨
    (c = '/' ∧ ['*'] <+: rest) ∨
    (c = '@' ∧ ∃ d ∈ rest.head?,
      d = '@' ∨ Text.isWordChar d = true) ∨
    (c = '$' ∧ lex.dollarQuotes = true ∧
      ∃ name, (∀ d ∈ name, isTagChar d = true) ∧
        name ++ ['$'] <+: rest)

/-
  A token and what may follow it.  Regions that are not
  closed are followed by nothing, and names by no further
  character of a name.
-/
inductive Begins
    (lex : Lexis) : Token → List Char → Prop where
  | region
      {q : Char}
      {body rest : List Char}
      (hQuote : IsQuote q)
      (hBody : Inside (escapesIn lex q) q body)
      (hRest : StopsBefore (· == q) rest) :
      Begins lex (.quoted (q :: (body ++ [q]))) rest
  | openRegion
      {q : Char}
      {body : List Char}
      (hQuote : IsQuote q)
      (hBody : Inside (escapesIn lex q) q body) :
      Begins lex (.quoted (q :: body)) []
  | openEscape
      {q : Char}
      {body : List Char}
      (hQuote : IsQuote q)
      (hEscape : escapesIn lex q = true)
      (hBody : Inside (escapesIn lex q) q body) :
      Begins lex (.quoted (q :: (body ++ ['\\']))) []
  | line
      {s rest : List Char}
      (hLine : '\n' ∉ s)
      (hRest : StopsBefore (· != '\n') rest) :
      Begins lex (.comment ('-' :: '-' :: s)) rest
  | block
      {s rest : List Char}
      (hFirst : FirstAt ['*', '/'] s) :
      Begins lex
        (.comment ('/' :: '*' :: (s ++ ['*', '/']))) rest
  | openBlock
      {s : List Char}
      (hOpen : ¬ ['*', '/'] <:+: s) :
      Begins lex (.comment ('/' :: '*' :: s)) []
  | body
      {name s rest : List Char}
      (hDollar : lex.dollarQuotes = true)
      (hName : ∀ c ∈ name, isTagChar c = true)
      (hFirst : FirstAt (tagOf name) s) :
      Begins lex
        (.body (tagOf name ++ (s ++ tagOf name))) rest
  | openBody
      {name s : List Char}
      (hDollar : lex.dollarQuotes = true)
      (hName : ∀ c ∈ name, isTagChar c = true)
      (hOpen : ¬ tagOf name <:+: s) :
      Begins lex (.body (tagOf name ++ s)) []
  | systemVariable
      {name rest : List Char}
      (hName : ∀ c ∈ name, Text.isWordChar c = true)
      (hRest : StopsBefore Text.isWordChar rest) :
      Begins lex (.systemVariable name) rest
  | reference
      {name rest : List Char}
      (hSome : name ≠ [])
      (hName : ∀ c ∈ name, Text.isWordChar c = true)
      (hRest : StopsBefore Text.isWordChar rest) :
      Begins lex (.reference name) rest
  | other
      {c : Char}
      {rest : List Char}
      (hOther : ¬ OpensToken lex c rest) :
      Begins lex (.other c) rest

/- A text read from left to right, token after token. -/
inductive Reads
    (lex : Lexis) : List Char → List Token → Prop where
  | nil : Reads lex [] []
  | cons
      {t : Token}
      {ts : List Token}
      {rest : List Char}
      (hBegins : Begins lex t rest)
      (hRest : Reads lex rest ts) :
      Reads lex (t.chars ++ rest) (t :: ts)

------------------------------------------------------------
-- Regions
------------------------------------------------------------

/- A backslash is no quote. -/
theorem IsQuote.ne_backslash
    {q : Char}
    (h : IsQuote q) :
    q ≠ '\\' := by
  rcases h with rfl | rfl | rfl <;> decide

/- A plain character belongs to the quoted part. -/
theorem untilQuote_plain
    {escapes : Bool}
    {q c : Char}
    (hQuote : c ≠ q)
    (hEscape : escapes = true → c ≠ '\\')
    (r : List Char) :
    untilQuote escapes q (c :: r) =
      (c :: (untilQuote escapes q r).1,
        (untilQuote escapes q r).2) := by
  have hPlain : (escapes && c == '\\') = false := by
    cases escapes
    · rfl
    · simpa using hEscape rfl
  cases r <;> simp [untilQuote, hPlain, hQuote]

/- A doubled quote belongs to the quoted part. -/
theorem untilQuote_doubled
    {escapes : Bool}
    {q : Char}
    (hSlash : q ≠ '\\')
    (r : List Char) :
    untilQuote escapes q (q :: q :: r) =
      (q :: q :: (untilQuote escapes q r).1,
        (untilQuote escapes q r).2) := by
  simp [untilQuote, hSlash]

/- What stands behind a backslash belongs to the quoted part. -/
theorem untilQuote_escaped
    (q d : Char)
    (r : List Char) :
    untilQuote true q ('\\' :: d :: r) =
      ('\\' :: d :: (untilQuote true q r).1,
        (untilQuote true q r).2) := by
  simp [untilQuote]

/- A quoted part ends with the first quote that is alone. -/
theorem untilQuote_region
    {escapes : Bool}
    {q : Char}
    {body rest : List Char}
    (hSlash : q ≠ '\\')
    (hBody : Inside escapes q body)
    (hRest : StopsBefore (· == q) rest) :
    untilQuote escapes q (body ++ q :: rest) =
      (body ++ [q], rest) := by
  induction hBody with
  | nil =>
      cases rest with
      | nil => simp [untilQuote, hSlash]
      | cons d s =>
          have hNe : d ≠ q := by
            simpa using hRest d (by simp)
          simp [untilQuote, hSlash, hNe]
  | plain hQuote hEscape _ ih =>
      rw [List.cons_append,
        untilQuote_plain hQuote hEscape, ih]
      rfl
  | doubled _ ih =>
      rw [List.cons_append, List.cons_append,
        untilQuote_doubled hSlash, ih]
      rfl
  | escaped hEscape _ ih =>
      subst hEscape
      rw [List.cons_append, List.cons_append,
        untilQuote_escaped, ih]
      rfl

/- A quoted part without an end goes to the end of the text. -/
theorem untilQuote_open
    {escapes : Bool}
    {q : Char}
    {body : List Char}
    (hSlash : q ≠ '\\')
    (hBody : Inside escapes q body) :
    untilQuote escapes q body = (body, []) := by
  induction hBody with
  | nil => rfl
  | plain hQuote hEscape _ ih =>
      rw [untilQuote_plain hQuote hEscape, ih]
  | doubled _ ih =>
      rw [untilQuote_doubled hSlash, ih]
  | escaped hEscape _ ih =>
      subst hEscape
      rw [untilQuote_escaped, ih]

/- The last backslash has nothing to escape. -/
theorem untilQuote_openEscape
    {q : Char}
    {body : List Char}
    (hSlash : q ≠ '\\')
    (hBody : Inside true q body) :
    untilQuote true q (body ++ ['\\']) =
      (body ++ ['\\'], []) := by
  induction hBody with
  | nil => rfl
  | plain hQuote hEscape _ ih =>
      rw [List.cons_append,
        untilQuote_plain hQuote hEscape, ih]
  | doubled _ ih =>
      rw [List.cons_append, List.cons_append,
        untilQuote_doubled hSlash, ih]
  | escaped _ _ ih =>
      rw [List.cons_append, List.cons_append,
        untilQuote_escaped, ih]

/- What follows an opening quote is closed or goes on to the end. -/
theorem inside_cases
    (escapes : Bool)
    (q : Char)
    (cs : List Char) :
    (∃ body rest, Inside escapes q body ∧
      StopsBefore (· == q) rest ∧ cs = body ++ q :: rest) ∨
    Inside escapes q cs ∨
    (escapes = true ∧ ∃ body, Inside escapes q body ∧
      cs = body ++ ['\\']) := by
  fun_induction untilQuote escapes q cs with
  | case1 => exact Or.inr (Or.inl .nil)
  | case2 c h =>
      simp only [Bool.and_eq_true, beq_iff_eq] at h
      rcases h with ⟨hEscape, rfl⟩
      exact Or.inr (Or.inr ⟨hEscape, [], .nil, rfl⟩)
  | case3 c h d s a b hab ih =>
      simp only [Bool.and_eq_true, beq_iff_eq] at h
      rcases h with ⟨hEscape, rfl⟩
      rcases ih with ⟨body, rest, hBody, hRest, rfl⟩ | hBody |
        ⟨_, body, hBody, rfl⟩
      · exact Or.inl ⟨_, rest, .escaped hEscape hBody, hRest, rfl⟩
      · exact Or.inr (Or.inl (.escaped hEscape hBody))
      · exact Or.inr (Or.inr
          ⟨hEscape, _, .escaped hEscape hBody, rfl⟩)
  | case4 h =>
      exact Or.inl ⟨[], [], .nil, by simp [StopsBefore], rfl⟩
  | case5 s a b hab h ih =>
      rcases ih with ⟨body, rest, hBody, hRest, rfl⟩ | hBody |
        ⟨hEscape, body, hBody, rfl⟩
      · exact Or.inl ⟨_, rest, .doubled hBody, hRest, rfl⟩
      · exact Or.inr (Or.inl (.doubled hBody))
      · exact Or.inr (Or.inr
          ⟨hEscape, _, .doubled hBody, rfl⟩)
  | case6 d s hNe h =>
      refine Or.inl ⟨[], d :: s, .nil, ?_, rfl⟩
      simpa [StopsBefore] using hNe
  | case7 c r h hNe a b hab ih =>
      have hPlain : escapes = true → c ≠ '\\' := by
        simpa using h
      rcases ih with ⟨body, rest, hBody, hRest, rfl⟩ | hBody |
        ⟨hEscape, body, hBody, rfl⟩
      · exact Or.inl ⟨_, rest, .plain hNe hPlain hBody, hRest, rfl⟩
      · exact Or.inr (Or.inl (.plain hNe hPlain hBody))
      · exact Or.inr (Or.inr
          ⟨hEscape, _, .plain hNe hPlain hBody, rfl⟩)

------------------------------------------------------------
-- Marks
------------------------------------------------------------

/- A region ends with its mark where this comes first. -/
theorem untilMark_first
    {mark s : List Char}
    (hMark : mark ≠ [])
    (hFirst : FirstAt mark s)
    (rest : List Char) :
    untilMark mark (s ++ (mark ++ rest)) =
      (s ++ mark, rest) := by
  induction s with
  | nil =>
      cases mark with
      | nil => exact absurd rfl hMark
      | cons m ms => simp [untilMark]
  | cons c s ih =>
      have hNot :
          mark.isPrefixOf (c :: (s ++ (mark ++ rest))) =
            false := by
        by_contra h
        rw [Bool.not_eq_false, List.isPrefixOf_iff_prefix] at h
        have hShort :
            mark <+: c :: (s ++ mark) := by
          apply List.prefix_of_prefix_length_le h
          · exact ⟨rest, by simp⟩
          · simp
            omega
        rcases hShort with ⟨b, hb⟩
        have hNil : b = [] := hFirst [] b (by simpa using hb.symm)
        have hLength := congrArg List.length hb
        simp [hNil] at hLength
        omega
      have hRest : FirstAt mark s := by
        intro a b hab
        exact hFirst (c :: a) b (by simp [hab])
      simp [untilMark, hNot, ih hRest]

/-
  A part without the mark at its end goes to the end of the
  text.
-/
theorem untilMark_absent
    {mark s : List Char}
    (hAbsent : ¬ mark <:+: s) :
    untilMark mark s = (s, []) := by
  induction s with
  | nil => rfl
  | cons c s ih =>
      have hNot : mark.isPrefixOf (c :: s) = false := by
        by_contra h
        rw [Bool.not_eq_false, List.isPrefixOf_iff_prefix] at h
        exact hAbsent h.isInfix
      have hRest : ¬ mark <:+: s := by
        intro h
        exact hAbsent (h.trans (List.suffix_cons c s).isInfix)
      simp [untilMark, hNot, ih hRest]

/- A mark that occurs has a first occurrence. -/
theorem exists_firstAt
    {mark cs : List Char}
    (h : mark <:+: cs) :
    ∃ s rest, FirstAt mark s ∧ cs = s ++ (mark ++ rest) := by
  induction cs with
  | nil =>
      have hNil : mark = [] := by simpa using h
      subst hNil
      refine ⟨[], [], ?_, rfl⟩
      intro a b hab
      simp_all
  | cons c cs ih =>
      by_cases hHere : mark <+: c :: cs
      · rcases hHere with ⟨rest, hRest⟩
        refine ⟨[], rest, ?_, by simpa using hRest.symm⟩
        intro a b hab
        have hLength := congrArg List.length hab
        simp at hLength
        exact List.length_eq_zero_iff.mp (by omega)
      · have hLater : mark <:+: cs := by
          rcases List.infix_cons_iff.mp h with hPrefix | hInfix
          · exact absurd hPrefix hHere
          · exact hInfix
        rcases ih hLater with ⟨s, rest, hFirst, rfl⟩
        refine ⟨c :: s, rest, ?_, rfl⟩
        intro a b hab
        cases a with
        | nil =>
            refine absurd ?_ hHere
            have hPrefix : mark <+: (c :: s) ++ mark :=
              ⟨b, by simpa using hab.symm⟩
            exact hPrefix.trans ⟨rest, by simp⟩
        | cons d a =>
            simp only [List.cons_append, List.cons.injEq] at hab
            exact hFirst a b hab.2

------------------------------------------------------------
-- Names
------------------------------------------------------------

/-
  Taking while a condition holds takes the part of which it
  holds.
-/
theorem takeWhile_append_stop
    {p : Char → Bool}
    {s rest : List Char}
    (hAll : ∀ c ∈ s, p c = true)
    (hRest : StopsBefore p rest) :
    (s ++ rest).takeWhile p = s := by
  rw [List.takeWhile_append_of_pos hAll]
  cases rest with
  | nil => simp
  | cons d r => simp [hRest d (by simp)]

/- Dropping while a condition holds leaves the rest. -/
theorem dropWhile_append_stop
    {p : Char → Bool}
    {s rest : List Char}
    (hAll : ∀ c ∈ s, p c = true)
    (hRest : StopsBefore p rest) :
    (s ++ rest).dropWhile p = rest := by
  rw [List.dropWhile_append_of_pos hAll]
  cases rest with
  | nil => rfl
  | cons d r => simp [hRest d (by simp)]

/-
  The rest begins with a character of which the condition does
  not hold.
-/
theorem stopsBefore_dropWhile
    (p : Char → Bool)
    (cs : List Char) :
    StopsBefore p (cs.dropWhile p) := by
  intro c hc
  have hHead := List.head?_dropWhile_not p cs
  rw [Option.mem_def.mp hc] at hHead
  simpa using hHead

/- The condition holds of every character that is taken. -/
theorem mem_takeWhile_holds
    {p : Char → Bool}
    {cs : List Char} :
    ∀ c ∈ cs.takeWhile p, p c = true := by
  intro c hc
  exact List.mem_takeWhile_imp hc

/- Letters between dollar signs are a tag. -/
theorem dollarTag?_tagOf
    {name : List Char}
    (hName : ∀ c ∈ name, isTagChar c = true)
    (r : List Char) :
    dollarTag? (name ++ '$' :: r) = some (tagOf name) := by
  have hStop : StopsBefore isTagChar ('$' :: r) := by
    intro c hc
    have hDollar : c = '$' := by simpa using hc.symm
    subst hDollar
    decide
  unfold dollarTag?
  rw [dropWhile_append_stop hName hStop,
    takeWhile_append_stop hName hStop]
  rfl

/- A dollar sign that opens nothing has no name and no other sign behind it. -/
theorem dollarTag?_eq_none
    {cs : List Char}
    (h : ¬ ∃ name, (∀ c ∈ name, isTagChar c = true) ∧
      name ++ ['$'] <+: cs) :
    dollarTag? cs = none := by
  unfold dollarTag?
  split
  · rename_i r hr
    refine absurd ⟨cs.takeWhile isTagChar,
      mem_takeWhile_holds, r, ?_⟩ h
    have hSplit := List.takeWhile_append_dropWhile
      (p := isTagChar) (l := cs)
    rw [hr] at hSplit
    simpa using hSplit
  · rfl

------------------------------------------------------------
-- One token
------------------------------------------------------------

/- A character that opens nothing is a token by itself. -/
theorem next_other
    {lex : Lexis}
    {c : Char}
    {r : List Char}
    (h : ¬ OpensToken lex c r) :
    next lex c r = (.other c, r) := by
  unfold OpensToken IsQuote at h
  push Not at h
  rcases h with ⟨hQuote, hLine, hBlock, hAt, hDollar⟩
  unfold next
  rw [if_neg (by tauto)]
  split
  · exact absurd (by simp) (hLine rfl)
  · exact absurd (by simp) (hBlock rfl)
  · exact absurd rfl (hAt rfl '@' (by simp)).1
  · rename_i d s _
    rw [if_neg (hAt rfl d (by simp)).2]
  · split
    · rename_i hTag
      rw [dollarTag?_eq_none] at hTag
      · cases hTag
      · rintro ⟨name, hName, hPrefix⟩
        exact hDollar rfl (by assumption) name hName hPrefix
    · rfl
  · rfl

/- A quote opens a quoted part. -/
theorem next_region
    {lex : Lexis}
    {q : Char}
    (hQuote : IsQuote q)
    (r : List Char) :
    next lex q r =
      (.quoted (q :: (untilQuote (escapesIn lex q) q r).1),
        (untilQuote (escapesIn lex q) q r).2) := by
  unfold IsQuote at hQuote
  unfold next
  rw [if_pos hQuote]
  rfl

/- A tag opens a body that ends with the same tag. -/
theorem next_body
    {lex : Lexis}
    {name : List Char}
    (hDollar : lex.dollarQuotes = true)
    (hName : ∀ c ∈ name, isTagChar c = true)
    (r : List Char) :
    next lex '$' (name ++ '$' :: r) =
      (.body (tagOf name ++ (untilMark (tagOf name) r).1),
        (untilMark (tagOf name) r).2) := by
  have hDrop :
      (name ++ '$' :: r).drop ((tagOf name).length - 1) =
        r := by
    simp [tagOf]
  simp only [next, Char.reduceEq, or_self, if_false, hDollar,
    dollarTag?_tagOf hName, hDrop]

/- The grammar leaves no choice of the first token. -/
theorem next_eq_of_begins
    {lex : Lexis}
    {t : Token}
    {rest : List Char}
    {c : Char}
    {r : List Char}
    (h : Begins lex t rest)
    (hText : t.chars ++ rest = c :: r) :
    next lex c r = (t, rest) := by
  cases h with
  | region hQuote hBody hRest =>
      simp only [Token.chars, List.cons_append,
        List.append_assoc, List.cons.injEq] at hText
      rcases hText with ⟨rfl, rfl⟩
      rw [next_region hQuote, List.nil_append,
        untilQuote_region hQuote.ne_backslash hBody hRest]
  | openRegion hQuote hBody =>
      simp only [Token.chars, List.append_nil,
        List.cons.injEq] at hText
      rcases hText with ⟨rfl, rfl⟩
      rw [next_region hQuote,
        untilQuote_open hQuote.ne_backslash hBody]
  | openEscape hQuote hEscape hBody =>
      simp only [Token.chars, List.append_nil,
        List.cons.injEq] at hText
      rcases hText with ⟨rfl, rfl⟩
      rw [hEscape] at hBody
      rw [next_region hQuote, hEscape,
        untilQuote_openEscape hQuote.ne_backslash hBody]
  | @line s rest hLine hRest =>
      simp only [Token.chars, List.cons_append,
        List.cons.injEq] at hText
      rcases hText with ⟨rfl, rfl⟩
      have hAll : ∀ c ∈ s, (c != '\n') = true := by
        intro c hc
        simpa using ne_of_mem_of_not_mem hc hLine
      simp [next, takeWhile_append_stop hAll hRest,
        dropWhile_append_stop hAll hRest]
  | block hFirst =>
      simp only [Token.chars, List.cons_append,
        List.append_assoc, List.cons.injEq] at hText
      rcases hText with ⟨rfl, rfl⟩
      have hMark :=
        untilMark_first (List.cons_ne_nil _ _) hFirst rest
      simp only [List.cons_append, List.nil_append] at hMark
      simp [next, hMark]
  | openBlock hOpen =>
      simp only [Token.chars, List.append_nil,
        List.cons.injEq] at hText
      rcases hText with ⟨rfl, rfl⟩
      simp [next, untilMark_absent hOpen]
  | @body name s rest hDollar hName hFirst =>
      simp only [Token.chars, tagOf, List.cons_append,
        List.append_assoc, List.cons.injEq,
        List.nil_append] at hText
      rcases hText with ⟨rfl, rfl⟩
      have hMark :=
        untilMark_first (List.cons_ne_nil _ _) hFirst rest
      simp only [List.cons_append, List.append_assoc,
        List.nil_append] at hMark
      rw [next_body hDollar hName, tagOf, hMark]
  | @openBody name s hDollar hName hOpen =>
      simp only [Token.chars, tagOf, List.cons_append,
        List.append_assoc, List.cons.injEq,
        List.nil_append, List.append_nil] at hText
      rcases hText with ⟨rfl, rfl⟩
      rw [next_body hDollar hName, untilMark_absent hOpen]
  | systemVariable hName hRest =>
      simp only [Token.chars, List.cons_append,
        List.cons.injEq] at hText
      rcases hText with ⟨rfl, rfl⟩
      simp [next, takeWhile_append_stop hName hRest,
        dropWhile_append_stop hName hRest]
  | @reference name rest hSome hName hRest =>
      simp only [Token.chars, List.cons_append,
        List.cons.injEq] at hText
      rcases hText with ⟨rfl, rfl⟩
      cases name with
      | nil => exact absurd rfl hSome
      | cons d name =>
          have hWord : Text.isWordChar d = true :=
            hName d (by simp)
          have hTail :
              ∀ c ∈ name, Text.isWordChar c = true := by
            intro c hc
            exact hName c (List.mem_cons_of_mem _ hc)
          have hNotAt : d ≠ '@' := by
            rintro rfl
            exact absurd hWord (by decide)
          simp [next, hWord,
            takeWhile_append_stop hTail hRest,
            dropWhile_append_stop hTail hRest]
  | other hOther =>
      simp only [Token.chars, List.singleton_append,
        List.cons.injEq] at hText
      rcases hText with ⟨rfl, rfl⟩
      exact next_other hOther

/- Every text that is not empty begins with a token. -/
theorem exists_begins
    (lex : Lexis)
    (c : Char)
    (r : List Char) :
    ∃ t rest, Begins lex t rest ∧ t.chars ++ rest = c :: r := by
  by_cases hOpens : OpensToken lex c r
  · rcases hOpens with hQuote | ⟨rfl, s, rfl⟩ | ⟨rfl, s, rfl⟩ |
      ⟨rfl, d, hd, hWord⟩ | ⟨rfl, hDollar, name, hName, s, rfl⟩
    · rcases inside_cases (escapesIn lex c) c r with
        ⟨body, rest, hBody, hRest, rfl⟩ | hBody |
        ⟨hEscape, body, hBody, rfl⟩
      · exact ⟨_, _, .region hQuote hBody hRest,
          by simp [Token.chars]⟩
      · exact ⟨_, _, .openRegion hQuote hBody,
          by simp [Token.chars]⟩
      · exact ⟨_, _, .openEscape hQuote hEscape hBody,
          by simp [Token.chars]⟩
    · refine ⟨.comment ('-' :: '-' :: s.takeWhile (· != '\n')),
        s.dropWhile (· != '\n'),
        .line ?_ (stopsBefore_dropWhile _ s),
        by simp [Token.chars]⟩
      intro hMem
      simpa using mem_takeWhile_holds _ hMem
    · by_cases hClosed : ['*', '/'] <:+: s
      · rcases exists_firstAt hClosed with
          ⟨a, rest, hFirst, rfl⟩
        exact ⟨_, rest, .block hFirst, by simp [Token.chars]⟩
      · exact ⟨_, [], .openBlock hClosed,
          by simp [Token.chars]⟩
    · cases r with
      | nil => simp at hd
      | cons e s =>
          have hEq : e = d := by simpa using hd
          subst hEq
          rcases hWord with rfl | hWord
          · exact ⟨.systemVariable (s.takeWhile Text.isWordChar),
              s.dropWhile Text.isWordChar,
              .systemVariable mem_takeWhile_holds
                (stopsBefore_dropWhile _ s),
              by simp [Token.chars]⟩
          · refine ⟨.reference (e :: s.takeWhile Text.isWordChar),
              s.dropWhile Text.isWordChar,
              .reference (List.cons_ne_nil _ _) ?_
                (stopsBefore_dropWhile _ s),
              by simp [Token.chars]⟩
            intro x hx
            rcases List.mem_cons.mp hx with rfl | hx
            · exact hWord
            · exact mem_takeWhile_holds x hx
    · by_cases hClosed : tagOf name <:+: s
      · rcases exists_firstAt hClosed with
          ⟨a, rest, hFirst, rfl⟩
        exact ⟨_, rest, .body hDollar hName hFirst,
          by simp [Token.chars, tagOf]⟩
      · exact ⟨_, [], .openBody hDollar hName hClosed,
          by simp [Token.chars, tagOf]⟩
  · exact ⟨.other c, r, .other hOpens, rfl⟩

/- Tokenizing follows the grammar. -/
theorem begins_next
    (lex : Lexis)
    (c : Char)
    (r : List Char) :
    Begins lex (next lex c r).1 (next lex c r).2 := by
  rcases exists_begins lex c r with
    ⟨t, rest, hBegins, hText⟩
  rw [next_eq_of_begins hBegins hText]
  exact hBegins

------------------------------------------------------------
-- All tokens
------------------------------------------------------------

/- Tokenizing is a reading by the grammar. -/
theorem reads_tokens
    (lex : Lexis)
    (cs : List Char) :
    Reads lex cs (tokens lex cs) := by
  fun_induction tokens lex cs with
  | case1 => exact .nil
  | case2 c r ih =>
      have hReads := Reads.cons (begins_next lex c r) ih
      rwa [next_append] at hReads

/- A token has at least one character. -/
theorem Begins.chars_ne_nil
    {lex : Lexis}
    {t : Token}
    {rest : List Char}
    (h : Begins lex t rest) :
    t.chars ≠ [] := by
  cases h <;> simp [Token.chars, tagOf]

/- Any reading by the grammar is the one of tokenizing. -/
theorem tokens_eq_of_reads
    {lex : Lexis}
    {cs : List Char}
    {ts : List Token}
    (h : Reads lex cs ts) :
    tokens lex cs = ts := by
  induction h with
  | nil => rw [tokens]
  | @cons t ts rest hBegins _ ih =>
      cases hText : t.chars ++ rest with
      | nil =>
          exact absurd (List.append_eq_nil_iff.mp hText).1
            hBegins.chars_ne_nil
      | cons c r =>
          rw [tokens, next_eq_of_begins hBegins hText, ih]

/- Tokenizing is the only reading by the grammar. -/
theorem reads_iff
    (lex : Lexis)
    (cs : List Char)
    (ts : List Token) :
    Reads lex cs ts ↔ tokens lex cs = ts := by
  constructor
  · exact tokens_eq_of_reads
  · rintro rfl
    exact reads_tokens lex cs

end Sql

end Failover
