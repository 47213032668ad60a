import Failover.Text.Fold

/-
  The tokens of SQL text that matter for parameters: quoted
  regions, comments, dollar-quoted bodies, system variables,
  references to parameters, and all other characters one by
  one.  A region that is not closed goes on to the end.

  Key definitions include:
    * `Sql.Lexis`
    * `Sql.Token`, `Sql.Token.chars`
    * `Sql.next`
    * `Sql.tokens`

  The law of this module is `Sql.flatMap_chars_tokens`: the
  tokens of a text, one after the other, are the text.
-/

namespace Failover

namespace Sql

/- The lexical rules that differ between engines. -/
structure Lexis where
  backslashEscapes : Bool
  dollarQuotes : Bool
deriving DecidableEq, Repr

/-
  Each token holds its text; a reference and a system
  variable hold the name behind the at signs.
-/
inductive Token where
  | quoted (text : List Char)
  | comment (text : List Char)
  | body (text : List Char)
  | systemVariable (name : List Char)
  | reference (name : List Char)
  | other (c : Char)
deriving DecidableEq, Repr

/- The text of a token. -/
def Token.chars : Token → List Char
  | .quoted text => text
  | .comment text => text
  | .body text => text
  | .systemVariable name => '@' :: '@' :: name
  | .reference name => '@' :: name
  | .other c => [c]

------------------------------------------------------------
-- Regions
------------------------------------------------------------

/-
  The rest of a region after its opening quote, up to the
  closing one.  A doubled quote and, where `escapes` holds, a
  character after a backslash do not close it.
-/
def untilQuote
    (escapes : Bool)
    (q : Char) : List Char → List Char × List Char
  | [] => ([], [])
  | c :: r =>
      if escapes && c == '\\' then
        match r with
        | [] => ([c], [])
        | d :: s =>
            let (a, b) := untilQuote escapes q s
            (c :: d :: a, b)
      else if c = q then
        match r with
        | [] => ([c], [])
        | d :: s =>
            if d = q then
              let (a, b) := untilQuote escapes q s
              (c :: d :: a, b)
            else ([c], d :: s)
      else
        let (a, b) := untilQuote escapes q r
        (c :: a, b)

/- A text up to and with the first occurrence of a mark. -/
def untilMark
    (mark : List Char) : List Char → List Char × List Char
  | [] => ([], [])
  | c :: r =>
      if mark.isPrefixOf (c :: r) then
        (mark, (c :: r).drop mark.length)
      else
        let (a, b) := untilMark mark r
        (c :: a, b)

/- The characters that may name a dollar quote. -/
def isTagChar (c : Char) : Bool :=
  Text.isLetter c || c == '_'

/- The tag after a dollar sign, if another one closes it. -/
def dollarTag? (cs : List Char) : Option (List Char) :=
  match cs.dropWhile isTagChar with
  | '$' :: _ => some ('$' :: (cs.takeWhile isTagChar ++ ['$']))
  | _ => none

------------------------------------------------------------
-- One token
------------------------------------------------------------

/- The token that begins a text, and what follows it. -/
def next
    (lex : Lexis)
    (c : Char)
    (r : List Char) : Token × List Char :=
  if c = '\'' ∨ c = '"' ∨ c = '`' then
    let (a, b) :=
      untilQuote (lex.backslashEscapes && c != '`') c r
    (.quoted (c :: a), b)
  else
    match c, r with
    | '-', '-' :: s =>
        (.comment ('-' :: '-' :: s.takeWhile (· != '\n')),
          s.dropWhile (· != '\n'))
    | '/', '*' :: s =>
        let (a, b) := untilMark ['*', '/'] s
        (.comment ('/' :: '*' :: a), b)
    | '@', '@' :: s =>
        (.systemVariable (s.takeWhile Text.isWordChar),
          s.dropWhile Text.isWordChar)
    | '@', d :: s =>
        if Text.isWordChar d then
          (.reference (d :: s.takeWhile Text.isWordChar),
            s.dropWhile Text.isWordChar)
        else (.other '@', d :: s)
    | '$', s =>
        match lex.dollarQuotes, dollarTag? s with
        | true, some tag =>
            let (a, b) :=
              untilMark tag (s.drop (tag.length - 1))
            (.body (tag ++ a), b)
        | _, _ => (.other '$', s)
    | c, s => (.other c, s)

------------------------------------------------------------
-- Nothing is lost
------------------------------------------------------------

theorem untilQuote_append
    (escapes : Bool)
    (q : Char)
    (cs : List Char) :
    (untilQuote escapes q cs).1 ++
      (untilQuote escapes q cs).2 = cs := by
  fun_induction untilQuote escapes q cs <;> simp_all

theorem untilMark_append
    (mark cs : List Char) :
    (untilMark mark cs).1 ++ (untilMark mark cs).2 = cs := by
  fun_induction untilMark mark cs with
  | case1 => rfl
  | case2 c r h =>
      obtain ⟨t, ht⟩ := List.isPrefixOf_iff_prefix.1 h
      rw [← ht]
      simp
  | case3 c r h a b hab ih => simp_all

theorem dollarTag?_eq_some
    {cs tag : List Char}
    (h : dollarTag? cs = some tag) :
    ∃ r, '$' :: cs = tag ++ r ∧
      r = cs.drop (tag.length - 1) := by
  unfold dollarTag? at h
  split at h
  · rename_i r hr
    have hcs := List.takeWhile_append_dropWhile
      (p := isTagChar) (l := cs)
    rw [hr] at hcs
    simp only [Option.some.injEq] at h
    generalize cs.takeWhile isTagChar = w at h hcs
    subst h hcs
    exact ⟨r, by simp, by simp⟩
  · simp at h

/- A token and what follows it are the text. -/
theorem next_append
    (lex : Lexis)
    (c : Char)
    (r : List Char) :
    (next lex c r).1.chars ++ (next lex c r).2 = c :: r := by
  unfold next
  split
  · simp [Token.chars, untilQuote_append]
  · split
    · simp [Token.chars]
    · simp [Token.chars, untilMark_append]
    · simp [Token.chars]
    · split <;> simp [Token.chars]
    · split
      · rename_i tag _ _ ht
        obtain ⟨s, hs, hd⟩ := dollarTag?_eq_some ht
        simp only [Token.chars, List.append_assoc,
          untilMark_append]
        rw [hs, hd]
      · simp [Token.chars]
    · simp [Token.chars]

/- A token has at least one character. -/
theorem chars_next_ne_nil
    (lex : Lexis)
    (c : Char)
    (r : List Char) :
    (next lex c r).1.chars ≠ [] := by
  unfold next
  split
  · simp [Token.chars]
  · split
    · simp [Token.chars]
    · simp [Token.chars]
    · simp [Token.chars]
    · split <;> simp [Token.chars]
    · split
      · rename_i tag _ _ ht
        unfold dollarTag? at ht
        split at ht
        · simp only [Option.some.injEq] at ht
          subst ht
          simp [Token.chars]
        · simp at ht
      · simp [Token.chars]
    · simp [Token.chars]

/- What follows a token is shorter than the text. -/
theorem length_next_lt
    (lex : Lexis)
    (c : Char)
    (r : List Char) :
    (next lex c r).2.length < (c :: r).length := by
  have h := congrArg List.length (next_append lex c r)
  have hPos :=
    List.length_pos_iff.2 (chars_next_ne_nil lex c r)
  rw [List.length_append] at h
  omega

------------------------------------------------------------
-- All tokens
------------------------------------------------------------

/- The tokens of a text, from left to right. -/
def tokens (lex : Lexis) : List Char → List Token
  | [] => []
  | c :: r =>
      (next lex c r).1 :: tokens lex (next lex c r).2
termination_by cs => cs.length
decreasing_by exact length_next_lt lex c r

/- The tokens of a text, one after the other, are the text. -/
theorem flatMap_chars_tokens
    (lex : Lexis)
    (cs : List Char) :
    (tokens lex cs).flatMap Token.chars = cs := by
  fun_induction tokens lex cs with
  | case1 => rfl
  | case2 c r ih =>
      rw [List.flatMap_cons, ih, next_append]

end Sql

end Failover
