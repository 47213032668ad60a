import Failover.Proofs.Sql.Grammar

/-
  The rules of an engine for its own text, where they go
  beyond the shared ones: comments inside comments, comments
  behind a number sign, and tags of dollar quotes with digits
  or letters outside ASCII.  A text is read as by the shared
  rules exactly if it has no token of the others.

  Key definitions include:
    * `Sql.untilNested`
    * `Sql.IsTagName`
    * `Sql.Rules`, `Sql.Rules.tokens`
    * `Sql.Token.IsShared`

  Main statements:
    * `Sql.Rules.flatMap_chars_tokens`
    * `Sql.Rules.begins_next_iff`
    * `Sql.Rules.tokens_eq_iff`
-/

namespace Failover

namespace Sql

------------------------------------------------------------
-- Comments inside comments
------------------------------------------------------------

/-
  A text up to and with the end of the outermost of some open
  comments.  Each one that is opened on the way has an end of
  its own.
-/
def untilNested :
    Nat → List Char → List Char × List Char
  | 0, cs => ([], cs)
  | _ + 1, [] => ([], [])
  | depth + 1, '/' :: '*' :: r =>
      let (a, b) := untilNested (depth + 2) r
      ('/' :: '*' :: a, b)
  | depth + 1, '*' :: '/' :: r =>
      let (a, b) := untilNested depth r
      ('*' :: '/' :: a, b)
  | depth + 1, c :: r =>
      let (a, b) := untilNested (depth + 1) r
      (c :: a, b)

/- A nested comment and what follows it make up the text. -/
theorem untilNested_append
    (depth : Nat)
    (cs : List Char) :
    (untilNested depth cs).1 ++ (untilNested depth cs).2 =
      cs := by
  fun_induction untilNested depth cs <;> simp_all

/- The outermost comment is closed, or goes on to the end. -/
theorem untilNested_closed
    (depth : Nat)
    (cs : List Char) :
    (untilNested depth cs).2 = [] ∨
      (untilNested depth cs).1 = [] ∧ depth = 0 ∨
      ∃ s, (untilNested depth cs).1 = s ++ ['*', '/'] := by
  fun_induction untilNested depth cs with
  | case1 cs => exact .inr (.inl ⟨rfl, rfl⟩)
  | case2 depth => exact .inl rfl
  | case3 depth r a b hab ih =>
      rw [hab] at ih
      rcases ih with hOpen | ⟨-, hDepth⟩ | ⟨s, hClosed⟩
      · exact .inl hOpen
      · cases hDepth
      · refine .inr (.inr ⟨'/' :: '*' :: s, ?_⟩)
        exact congrArg ('/' :: '*' :: ·) hClosed
  | case4 depth r a b hab ih =>
      rw [hab] at ih
      rcases ih with hOpen | ⟨hEmpty, -⟩ | ⟨s, hClosed⟩
      · exact .inl hOpen
      · exact .inr (.inr ⟨[], congrArg ('*' :: '/' :: ·) hEmpty⟩)
      · refine .inr (.inr ⟨'*' :: '/' :: s, ?_⟩)
        exact congrArg ('*' :: '/' :: ·) hClosed
  | case5 depth c r _ _ a b hab ih =>
      rw [hab] at ih
      rcases ih with hOpen | ⟨-, hDepth⟩ | ⟨s, hClosed⟩
      · exact .inl hOpen
      · cases hDepth
      · exact .inr (.inr ⟨c :: s, congrArg (c :: ·) hClosed⟩)

------------------------------------------------------------
-- Tags
------------------------------------------------------------

/- A letter of any alphabet, or an underscore. -/
def opensTag (c : Char) : Bool :=
  isTagChar c || 128 ≤ c.toNat

/- The characters behind the first one of a tag. -/
def continuesTag (c : Char) : Bool :=
  opensTag c || c.isDigit

/- The name of a tag, which is often none. -/
def IsTagName : List Char → Prop
  | [] => True
  | c :: r =>
      opensTag c = true ∧ ∀ d ∈ r, continuesTag d = true

instance : DecidablePred IsTagName
  | [] => .isTrue trivial
  | c :: r =>
      decidable_of_iff (opensTag c && r.all continuesTag)
        (by simp [IsTagName])

/- A name up to the next dollar sign, and what is behind it. -/
def tagName?
    (cs : List Char) : Option (List Char × List Char) :=
  match cs.dropWhile (· != '$') with
  | [] => none
  | _ :: r =>
      let name := cs.takeWhile (· != '$')
      if IsTagName name then some (name, r) else none

theorem isTagName_of_tagChars
    {name : List Char}
    (h : ∀ c ∈ name, isTagChar c = true) : IsTagName name := by
  cases name with
  | nil => trivial
  | cons c r =>
      refine ⟨by simp [opensTag, h c], fun d hMem => ?_⟩
      simp [continuesTag, opensTag, h d (by simp [hMem])]

theorem IsTagName.no_dollar
    {name : List Char}
    (h : IsTagName name) : '$' ∉ name := by
  cases name with
  | nil => exact List.not_mem_nil
  | cons c r =>
      intro hMem
      rcases List.mem_cons.mp hMem with rfl | hRest
      · exact absurd h.1 (by decide)
      · exact absurd (h.2 _ hRest) (by decide)

theorem takeWhile_dollar
    {name : List Char}
    (h : '$' ∉ name)
    (r : List Char) :
    (name ++ '$' :: r).takeWhile (· != '$') = name := by
  refine takeWhile_append_stop (fun c hMem => ?_) ?_
  · simpa using ne_of_mem_of_not_mem hMem h
  · intro c hHead
    have hDollar : '$' = c := by simpa using hHead
    simp [← hDollar]

theorem dropWhile_dollar
    {name : List Char}
    (h : '$' ∉ name)
    (r : List Char) :
    (name ++ '$' :: r).dropWhile (· != '$') = '$' :: r := by
  refine dropWhile_append_stop (fun c hMem => ?_) ?_
  · simpa using ne_of_mem_of_not_mem hMem h
  · exact fun c hHead => by simp [← show '$' = c by simpa using hHead]

/-
  A tag is read where a name and another dollar sign follow
  the first one.
-/
theorem tagName?_eq_some_iff
    {cs name r : List Char} :
    tagName? cs = some (name, r) ↔
      IsTagName name ∧ cs = name ++ '$' :: r := by
  constructor
  · intro h
    have hSplit := List.takeWhile_append_dropWhile
      (p := (· != '$')) (l := cs)
    unfold tagName? at h
    split at h
    · cases h
    · next d s hDrop =>
      have hHead := stopsBefore_dropWhile (· != '$') cs d
        (by simp [hDrop])
      have hDollar : d = '$' := by simpa using hHead
      subst hDollar
      simp only at h
      split at h
      · next hName =>
        cases h
        refine ⟨hName, ?_⟩
        rw [← hDrop, hSplit]
      · cases h
  · rintro ⟨hName, rfl⟩
    unfold tagName?
    rw [dropWhile_dollar hName.no_dollar,
      takeWhile_dollar hName.no_dollar]
    simp only
    rw [if_pos hName]

------------------------------------------------------------
-- Tokens of an engine
------------------------------------------------------------

/-
  The shared rules that an engine has, and its own.  Where
  there are dollar quotes, their tags have all the names that
  the engine takes.
-/
structure Rules where
  lexis : Lexis
  nestedComments : Bool
  hashComments : Bool

namespace Rules

variable (rules : Rules)

/- A token that begins here by a rule of the engine's own. -/
def own? :
    Char → List Char → Option (Token × List Char)
  | '#', r =>
      if rules.hashComments then
        some (.comment ('#' :: r.takeWhile (· != '\n')),
          r.dropWhile (· != '\n'))
      else none
  | '/', '*' :: r =>
      if rules.nestedComments then
        let (a, b) := untilNested 1 r
        some (.comment ('/' :: '*' :: a), b)
      else none
  | '$', r =>
      if rules.lexis.dollarQuotes then
        (tagName? r).map fun (name, s) =>
          let (a, b) := untilMark (tagOf name) s
          (.body (tagOf name ++ a), b)
      else none
  | _, _ => none

/- The token that begins a text, and what follows it. -/
def next
    (c : Char)
    (r : List Char) : Token × List Char :=
  (rules.own? c r).getD (Sql.next rules.lexis c r)

/- The ways in which a token is the engine's own. -/
inductive Owns : Char → List Char → Token → List Char → Prop where
  | hash
      {r : List Char}
      (hRule : rules.hashComments = true) :
      Owns '#' r (.comment ('#' :: r.takeWhile (· != '\n')))
        (r.dropWhile (· != '\n'))
  | block
      {r : List Char}
      (hRule : rules.nestedComments = true) :
      Owns '/' ('*' :: r)
        (.comment ('/' :: '*' :: (untilNested 1 r).1))
        (untilNested 1 r).2
  | body
      {name r : List Char}
      (hRule : rules.lexis.dollarQuotes = true)
      (hName : IsTagName name) :
      Owns '$' (name ++ '$' :: r)
        (.body (tagOf name ++ (untilMark (tagOf name) r).1))
        (untilMark (tagOf name) r).2

/- What an engine's own rule reads is as its grammar says. -/
theorem owns_of_own?
    {c : Char}
    {r rest : List Char}
    {t : Token}
    (h : rules.own? c r = some (t, rest)) :
    rules.Owns c r t rest := by
  unfold own? at h
  split at h
  · split at h
    · next hRule =>
      cases h
      exact .hash hRule
    · cases h
  · split at h
    · next hRule =>
      cases h
      exact .block hRule
    · cases h
  · split at h
    · next hRule =>
      rcases Option.map_eq_some_iff.mp h with
        ⟨⟨name, s⟩, hTag, hToken⟩
      rcases tagName?_eq_some_iff.mp hTag with ⟨hName, rfl⟩
      cases hToken
      exact .body hRule hName
    · cases h
  · cases h

/-
  A token is read by a rule of the engine's own or by the
  shared rules.
-/
theorem next_cases
    (c : Char)
    (r : List Char) :
    rules.Owns c r (rules.next c r).1 (rules.next c r).2 ∨
      rules.next c r = Sql.next rules.lexis c r := by
  unfold next
  cases h : rules.own? c r with
  | none => exact .inr rfl
  | some x => exact .inl (rules.owns_of_own? h)

/- A token and what follows it make up the text. -/
theorem next_append
    (c : Char)
    (r : List Char) :
    (rules.next c r).1.chars ++ (rules.next c r).2 = c :: r := by
  rcases rules.next_cases c r with hOwn | hShared
  · generalize (rules.next c r).1 = t, (rules.next c r).2 = rest
      at hOwn
    cases hOwn with
    | hash => simp [Token.chars]
    | block => simp [Token.chars, untilNested_append]
    | body => simp [Token.chars, tagOf, untilMark_append]
  · rw [hShared, Sql.next_append]

/- No token is empty, so tokenizing makes progress. -/
theorem chars_next_ne_nil
    (c : Char)
    (r : List Char) :
    (rules.next c r).1.chars ≠ [] := by
  rcases rules.next_cases c r with hOwn | hShared
  · generalize (rules.next c r).1 = t, (rules.next c r).2 = rest
      at hOwn
    cases hOwn <;> simp [Token.chars, tagOf]
  · rw [hShared]
    exact Sql.chars_next_ne_nil _ c r

/- The rest behind a token is shorter than the text. -/
theorem length_next_lt
    (c : Char)
    (r : List Char) :
    (rules.next c r).2.length < (c :: r).length := by
  have h := congrArg List.length (rules.next_append c r)
  have hPos :=
    List.length_pos_iff.2 (rules.chars_next_ne_nil c r)
  rw [List.length_append] at h
  omega

/- The tokens of a text, as the engine reads it. -/
def tokens : List Char → List Token
  | [] => []
  | c :: r =>
      (rules.next c r).1 :: tokens (rules.next c r).2
termination_by cs => cs.length
decreasing_by exact rules.length_next_lt c r

/- The tokens of a text, one after the other, are the text. -/
theorem flatMap_chars_tokens
    (cs : List Char) :
    (rules.tokens cs).flatMap Token.chars = cs := by
  fun_induction rules.tokens cs with
  | case1 => rfl
  | case2 c r ih =>
      rw [List.flatMap_cons, ih, rules.next_append]

end Rules

------------------------------------------------------------
-- Tokens of the shared rules
------------------------------------------------------------

/-
  The token is one of the shared rules: it is no comment
  behind a number sign, it is none that goes on behind the
  first end of a comment, and no dollar quote has a tag with
  other characters than those for tags.
-/
def Token.IsShared : Token → Prop
  | .comment ('#' :: _) => False
  | .comment ('/' :: '*' :: s) =>
      ∀ a b, s = a ++ (['*', '/'] ++ b) → b = []
  | .body text =>
      ∀ c ∈ (text.drop 1).takeWhile (· != '$'),
        isTagChar c = true
  | _ => True

theorem tagChars_no_dollar
    {name : List Char}
    (h : ∀ c ∈ name, isTagChar c = true) : '$' ∉ name :=
  (isTagName_of_tagChars h).no_dollar

/- The name of the tag of a body is all that is looked at. -/
theorem isShared_body
    {name : List Char}
    (hDollar : '$' ∉ name)
    (s : List Char) :
    (Token.body (tagOf name ++ s)).IsShared ↔
      ∀ c ∈ name, isTagChar c = true := by
  have hName : ((tagOf name ++ s).drop 1).takeWhile (· != '$') =
      name := by
    simpa [tagOf] using takeWhile_dollar hDollar s
  simp only [Token.IsShared, hName]

/- A token by the grammar is one of the shared rules. -/
theorem Begins.isShared
    {lex : Lexis}
    {t : Token}
    {rest : List Char}
    (h : Begins lex t rest) : t.IsShared := by
  cases h with
  | block hFirst => exact hFirst
  | openBlock hOpen =>
      intro a b hMark
      refine absurd ?_ hOpen
      exact ⟨a, b, by rw [hMark, List.append_assoc]⟩
  | body _ hName _ =>
      exact (isShared_body (tagChars_no_dollar hName) _).mpr hName
  | openBody _ hName _ =>
      exact (isShared_body (tagChars_no_dollar hName) _).mpr hName
  | _ => trivial

namespace Rules

variable (rules : Rules)

/- A comment without more behind its first end. -/
theorem begins_block
    {r : List Char}
    (hShared :
      (Token.comment
        ('/' :: '*' :: (untilNested 1 r).1)).IsShared) :
    Begins rules.lexis
      (.comment ('/' :: '*' :: (untilNested 1 r).1))
      (untilNested 1 r).2 := by
  have hClosed := untilNested_closed 1 r
  generalize (untilNested 1 r).1 = s, (untilNested 1 r).2 = rest
    at hShared hClosed
  change ∀ a b, s = a ++ (['*', '/'] ++ b) → b = [] at hShared
  by_cases hMark : ['*', '/'] <:+: s
  · rcases hMark with ⟨a, b, rfl⟩
    have hEnd : b = [] := hShared a b (List.append_assoc _ _ _)
    subst hEnd
    rw [List.append_nil] at hShared ⊢
    exact .block hShared
  · rcases hClosed with rfl | ⟨-, hDepth⟩ | ⟨a, rfl⟩
    · exact .openBlock hMark
    · cases hDepth
    · exact absurd (List.suffix_append a _).isInfix hMark

/-
  What the engine reads next is begun as by the shared rules
  exactly if it is one of them.
-/
theorem begins_next_iff
    (c : Char)
    (r : List Char) :
    Begins rules.lexis (rules.next c r).1 (rules.next c r).2 ↔
      (rules.next c r).1.IsShared := by
  refine ⟨Begins.isShared, fun hShared => ?_⟩
  rcases rules.next_cases c r with hOwn | hSame
  · generalize (rules.next c r).1 = t, (rules.next c r).2 = rest
      at hOwn hShared
    cases hOwn with
    | hash => exact hShared.elim
    | block => exact rules.begins_block hShared
    | @body name r hRule hName =>
        have hChars :=
          (isShared_body hName.no_dollar _).mp hShared
        have hBegins :=
          begins_next rules.lexis '$' (name ++ '$' :: r)
        rwa [next_body hRule hChars] at hBegins
  · rw [hSame]
    exact begins_next rules.lexis c r

/-
  A text is read as by the shared rules alone exactly if the
  engine sees no token of its own rules in it.
-/
theorem tokens_eq_iff
    (cs : List Char) :
    Sql.tokens rules.lexis cs = rules.tokens cs ↔
      ∀ t ∈ rules.tokens cs, t.IsShared := by
  constructor
  · intro hSame t hMem
    rw [← hSame] at hMem
    clear hSame
    have hReads := reads_tokens rules.lexis cs
    generalize Sql.tokens rules.lexis cs = ts at hMem hReads
    induction hReads with
    | nil => cases hMem
    | cons hBegins _ ih =>
        rcases List.mem_cons.mp hMem with rfl | hRest
        · exact hBegins.isShared
        · exact ih hRest
  · intro hShared
    fun_induction rules.tokens cs with
    | case1 => rw [Sql.tokens]
    | case2 c r ih =>
        rw [List.forall_mem_cons] at hShared
        have hBegins := (rules.begins_next_iff c r).mpr hShared.1
        rw [Sql.tokens,
          next_eq_of_begins hBegins (rules.next_append c r),
          ih hShared.2]

end Rules

end Sql

end Failover
