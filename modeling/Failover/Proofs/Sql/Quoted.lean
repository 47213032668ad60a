import Failover.Proofs.Binding.Current
import Failover.Provider.Basic
import Failover.Sql.Identifier

/-
  Quoted names as a reader of SQL takes them.  Between quotes a
  doubled quote stands for one, a single one ends the part, and
  single dots keep the parts apart.  What is quoted here reads
  back whole, as the parts of the name without the white space
  and the quotes around them.

  Key definitions include:
    * `Sql.Place`, `Sql.readIdentifier?`
    * `Sql.enclose`, `Sql.written`
    * `Sql.Spells`

  Main statements:
    * `Sql.readFrom?_eq_some_iff`
    * `Sql.readIdentifier?_eq_some_iff`
    * `Sql.readIdentifier?_quoteIdentifier`
    * `Sql.tables_are_quoted`
-/

namespace Failover

namespace Sql

------------------------------------------------------------
-- Reading
------------------------------------------------------------

/-
  Where a reader is: before a part, in one, or past a quote
  that ends the part or is the first of two.
-/
inductive Place where
  | before
  | inside
  | ending

/- One more character of the first part. -/
def lengthen
    (c : Char) : List (List Char) → List (List Char)
  | [] => []
  | p :: ps => (c :: p) :: ps

/- The parts of a quoted name, if the text is all of it. -/
def readFrom?
    (quote : Char) :
    Place → List Char → Option (List (List Char))
  | .before, [] => none
  | .before, c :: rest =>
      if c = quote then readFrom? quote .inside rest else none
  | .inside, [] => none
  | .inside, c :: rest =>
      if c = quote then readFrom? quote .ending rest
      else (readFrom? quote .inside rest).map (lengthen c)
  | .ending, [] => some [[]]
  | .ending, c :: rest =>
      if c = quote then
        (readFrom? quote .inside rest).map (lengthen quote)
      else if c = '.' then
        (readFrom? quote .before rest).map ([] :: ·)
      else none

def readIdentifier?
    (quote : Char)
    (text : String) : Option (List (List Char)) :=
  readFrom? quote .before text.toList

------------------------------------------------------------
-- Writing
------------------------------------------------------------

/- A part between quotes, with those inside it doubled. -/
def enclose
    (quote : Char)
    (part : List Char) : List Char :=
  quote :: (doubleQuotes quote part ++ [quote])

/- Parts between quotes, with dots between them. -/
def written
    (quote : Char)
    (parts : List (List Char)) : List Char :=
  ['.'].intercalate (parts.map (enclose quote))

/- Parts that follow another one. -/
def writtenAfter
    (quote : Char)
    (parts : List (List Char)) : List Char :=
  parts.flatMap fun p => '.' :: enclose quote p

variable {quote : Char}

theorem written_cons
    (p : List Char)
    (later : List (List Char)) :
    written quote (p :: later) =
      quote :: (doubleQuotes quote p ++
        quote :: writtenAfter quote later) := by
  have hEnclosed (ps : List (List Char)) :
      ['.'].intercalate (enclose quote p :: ps) =
        enclose quote p ++ ps.flatMap ('.' :: ·) := by
    generalize enclose quote p = first
    induction ps generalizing first with
    | nil => simp
    | cons q rest ih =>
        rw [List.intercalate_cons_cons, ih, List.flatMap_cons]
        simp
  unfold written writtenAfter
  rw [List.map_cons, hEnclosed, List.flatMap_map]
  simp [enclose]

theorem writtenAfter_cons
    (p : List Char)
    (later : List (List Char)) :
    writtenAfter quote (p :: later) =
      '.' :: written quote (p :: later) := by
  rw [written_cons]
  simp [writtenAfter, enclose]

/-
  A text that spells some parts from a place on.  Past a quote
  it is one that would do so inside of a part, if the quote
  still were to be read.
-/
def Spells
    (quote : Char) :
    Place → List Char → List (List Char) → Prop
  | .before, cs, ps => ps ≠ [] ∧ cs = written quote ps
  | .inside, cs, ps => ∃ p later, ps = p :: later ∧
      cs = doubleQuotes quote p ++
        quote :: writtenAfter quote later
  | .ending, cs, ps => ∃ p later, ps = p :: later ∧
      quote :: cs = doubleQuotes quote p ++
        quote :: writtenAfter quote later

/- A part begins with a quote. -/
theorem spells_before_cons
    {c : Char}
    {cs : List Char}
    {ps : List (List Char)} :
    Spells quote .before (c :: cs) ps ↔
      c = quote ∧ Spells quote .inside cs ps := by
  constructor
  · intro h
    obtain ⟨hSome, hText⟩ := h
    obtain ⟨p, later, rfl⟩ := List.exists_cons_of_ne_nil hSome
    rw [written_cons, List.cons.injEq] at hText
    exact ⟨hText.1, p, later, rfl, hText.2⟩
  · intro h
    obtain ⟨rfl, p, later, rfl, rfl⟩ := h
    exact ⟨List.cons_ne_nil _ _, (written_cons p later).symm⟩

/- A character that is no quote is one of the part. -/
theorem spells_inside_other
    {c : Char}
    {cs : List Char}
    {ps : List (List Char)}
    (hOther : c ≠ quote) :
    Spells quote .inside (c :: cs) ps ↔
      ∃ qs, Spells quote .inside cs qs ∧ lengthen c qs = ps := by
  constructor
  · intro h
    obtain ⟨p, later, rfl, hText⟩ := h
    cases p with
    | nil =>
        cases hText
        exact absurd rfl hOther
    | cons d p =>
        by_cases hQuote : d = quote
        · subst hQuote
          simp only [doubleQuotes, List.flatMap_cons, if_true,
            List.cons_append, List.cons.injEq] at hText
          exact absurd hText.1 hOther
        · simp only [doubleQuotes, List.flatMap_cons, hQuote,
            if_false, List.cons_append, List.nil_append,
            List.cons.injEq] at hText
          obtain ⟨rfl, hRest⟩ := hText
          exact ⟨p :: later, ⟨p, later, rfl, hRest⟩, rfl⟩
  · intro h
    obtain ⟨qs, ⟨p, later, rfl, rfl⟩, rfl⟩ := h
    refine ⟨c :: p, later, rfl, ?_⟩
    simp [doubleQuotes, hOther]

/- A quote in a part ends it, or is the first of two. -/
theorem spells_ending
    {cs : List Char}
    {ps : List (List Char)} :
    Spells quote .ending cs ps ↔
      (∃ later, ps = [] :: later ∧
        cs = writtenAfter quote later) ∨
      ∃ rest qs, cs = quote :: rest ∧
        Spells quote .inside rest qs ∧
        lengthen quote qs = ps := by
  constructor
  · intro h
    obtain ⟨p, later, rfl, hText⟩ := h
    cases p with
    | nil =>
        cases hText
        exact .inl ⟨later, rfl, rfl⟩
    | cons d p =>
        by_cases hQuote : d = quote
        · subst hQuote
          simp only [doubleQuotes, List.flatMap_cons, if_true,
            List.cons_append, List.nil_append, List.cons.injEq,
            true_and] at hText
          exact .inr ⟨_, p :: later, hText,
            ⟨p, later, rfl, rfl⟩, rfl⟩
        · simp only [doubleQuotes, List.flatMap_cons, hQuote,
            if_false, List.cons_append, List.nil_append,
            List.cons.injEq] at hText
          exact absurd hText.1.symm hQuote
  · intro h
    rcases h with ⟨later, rfl, rfl⟩ |
      ⟨rest, qs, rfl, ⟨p, later, rfl, rfl⟩, rfl⟩
    · exact ⟨[], later, rfl, rfl⟩
    · refine ⟨quote :: p, later, rfl, ?_⟩
      simp [doubleQuotes]

theorem spells_ending_nil
    {ps : List (List Char)} :
    Spells quote .ending [] ps ↔ ps = [[]] := by
  rw [spells_ending]
  constructor
  · intro h
    rcases h with ⟨later, rfl, hText⟩ | ⟨rest, qs, hText, -⟩
    · cases later with
      | nil => rfl
      | cons p later => cases hText
    · cases hText
  · intro h
    exact .inl ⟨[], h, rfl⟩

/- A part is followed by a dot and another part. -/
theorem cons_eq_writtenAfter_iff
    {c : Char}
    {cs : List Char}
    {later : List (List Char)} :
    c :: cs = writtenAfter quote later ↔
      c = '.' ∧ Spells quote .before cs later := by
  cases later with
  | nil =>
      constructor
      · exact nofun
      · intro h
        exact absurd rfl h.2.1
  | cons p later =>
      rw [writtenAfter_cons, List.cons.injEq]
      constructor
      · intro h
        exact ⟨h.1, List.cons_ne_nil _ _, h.2⟩
      · intro h
        exact ⟨h.1, h.2.2⟩

/- Two quotes inside a part spell one, as no dot is a quote. -/
theorem spells_ending_quote
    (hQuote : quote ≠ '.')
    {cs : List Char}
    {ps : List (List Char)} :
    Spells quote .ending (quote :: cs) ps ↔
      ∃ qs, Spells quote .inside cs qs ∧
        lengthen quote qs = ps := by
  rw [spells_ending]
  constructor
  · intro h
    rcases h with ⟨later, -, hText⟩ | ⟨rest, qs, hText, hPart⟩
    · exact absurd (cons_eq_writtenAfter_iff.mp hText).1 hQuote
    · cases hText
      exact ⟨qs, hPart⟩
  · intro h
    obtain ⟨qs, hPart⟩ := h
    exact .inr ⟨cs, qs, rfl, hPart⟩

/- Past the end of a part a dot leads to the next one. -/
theorem spells_ending_other
    {c : Char}
    {cs : List Char}
    {ps : List (List Char)}
    (hOther : c ≠ quote) :
    Spells quote .ending (c :: cs) ps ↔
      c = '.' ∧ ∃ qs, Spells quote .before cs qs ∧
        [] :: qs = ps := by
  rw [spells_ending]
  constructor
  · intro h
    rcases h with ⟨later, rfl, hText⟩ | ⟨rest, qs, hText, -⟩
    · obtain ⟨hDot, hLater⟩ :=
        cons_eq_writtenAfter_iff.mp hText
      exact ⟨hDot, later, hLater, rfl⟩
    · cases hText
      exact absurd rfl hOther
  · intro h
    obtain ⟨hDot, qs, hLater, rfl⟩ := h
    exact .inl ⟨qs, rfl,
      cons_eq_writtenAfter_iff.mpr ⟨hDot, hLater⟩⟩

/-
  A reader takes just the texts that spell something, and gives
  back what they spell.  The induction is on what is left.
-/
theorem readFrom?_eq_some_iff
    (hQuote : quote ≠ '.')
    {place : Place}
    {cs : List Char}
    {ps : List (List Char)} :
    readFrom? quote place cs = some ps ↔
      Spells quote place cs ps := by
  induction cs generalizing place ps with
  | nil =>
      cases place with
      | before =>
          constructor
          · exact nofun
          · intro h
            obtain ⟨p, later, rfl⟩ :=
              List.exists_cons_of_ne_nil h.1
            have hText := h.2
            rw [written_cons] at hText
            cases hText
      | inside =>
          constructor
          · exact nofun
          · intro h
            obtain ⟨p, later, -, hText⟩ := h
            simp at hText
      | ending =>
          rw [spells_ending_nil, readFrom?, Option.some_inj]
          exact eq_comm
  | cons c cs ih =>
      cases place with
      | before =>
          rw [spells_before_cons, readFrom?]
          by_cases hC : c = quote
          · rw [if_pos hC, ih]
            exact (and_iff_right hC).symm
          · rw [if_neg hC]
            exact ⟨nofun, fun h => absurd h.1 hC⟩
      | inside =>
          rw [readFrom?]
          by_cases hC : c = quote
          · rw [if_pos hC, ih, hC]
            exact Iff.rfl
          · rw [if_neg hC, spells_inside_other hC,
              Option.map_eq_some_iff]
            exact exists_congr fun qs => and_congr_left' ih
      | ending =>
          rw [readFrom?]
          by_cases hC : c = quote
          · subst hC
            rw [if_pos rfl, spells_ending_quote hQuote,
              Option.map_eq_some_iff]
            exact exists_congr fun qs => and_congr_left' ih
          · rw [if_neg hC, spells_ending_other hC]
            by_cases hDot : c = '.'
            · rw [if_pos hDot, Option.map_eq_some_iff,
                and_iff_right hDot]
              exact exists_congr fun qs => and_congr_left' ih
            · rw [if_neg hDot]
              exact ⟨nofun, fun h => absurd h.1 hDot⟩

/- A text reads as the parts that it is written of. -/
theorem readIdentifier?_eq_some_iff
    (hQuote : quote ≠ '.')
    {text : String}
    {ps : List (List Char)} :
    readIdentifier? quote text = some ps ↔
      ps ≠ [] ∧ text = String.ofList (written quote ps) := by
  unfold readIdentifier?
  rw [readFrom?_eq_some_iff hQuote, ← String.toList_inj,
    String.toList_ofList]
  exact Iff.rfl

------------------------------------------------------------
-- Names
------------------------------------------------------------

/- The parts of a name, bare of white space and quotes. -/
def nameParts
    (quote : Char)
    (name : String) : List (List Char) :=
  (name.toList.splitOn '.').map (barePart quote)

theorem quoteIdentifier_eq
    (name : String) :
    quoteIdentifier quote name =
      String.ofList (written quote (nameParts quote name)) := by
  unfold quoteIdentifier quoteChars written nameParts
  rw [Text.splitOn_eq_list_splitOn, List.map_map]
  rfl

theorem nameParts_ne_nil
    (name : String) : nameParts quote name ≠ [] := by
  unfold nameParts
  rw [ne_eq, List.map_eq_nil_iff]
  exact List.splitOn_ne_nil _ _

/- A quoted name reads back whole, as the parts of the name. -/
theorem readIdentifier?_quoteIdentifier
    (hQuote : quote ≠ '.')
    (name : String) :
    readIdentifier? quote (quoteIdentifier quote name) =
      some (nameParts quote name) := by
  rw [readIdentifier?_eq_some_iff hQuote]
  exact ⟨nameParts_ne_nil name, quoteIdentifier_eq name⟩

end Sql

------------------------------------------------------------
-- Tables
------------------------------------------------------------

theorem Engine.quote_ne_dot
    (e : Engine) : e.quote ≠ '.' := by
  cases e <;> decide

namespace Sql

/-
  Nothing gets out of the quotes.  A quoted name reads back as
  its parts, whatever they hold, and there are some.  What a
  built-in engine is sent of a command for a table is one such
  name and no arguments.
-/
theorem tables_are_quoted :
    (∀ quote, quote ≠ '.' → ∀ name,
      nameParts quote name ≠ [] ∧
      readIdentifier? quote (quoteIdentifier quote name) =
        some (nameParts quote name)) ∧
    ∀ (e : Engine) (s : Provider.Settings) (c : Command) b,
      c.kind = .table →
      (Provider.ofEngine e s).bind c = .ok b →
      ∃ table,
        b = .single ⟨"SELECT * FROM " ++ table, []⟩ ∧
        readIdentifier? e.quote table =
          some (nameParts e.quote c.text) := by
  constructor
  · intro quote hQuote name
    exact ⟨nameParts_ne_nil name,
      readIdentifier?_quoteIdentifier hQuote name⟩
  · intro e s c b hKind hBound
    have hTable := Engine.bind_table hKind
      (Provider.ofEngine_bind_iff.mp hBound)
    refine ⟨quoteIdentifier e.quote c.text, hTable, ?_⟩
    exact readIdentifier?_quoteIdentifier e.quote_ne_dot c.text

/- A name whose quotes would end it if they were left alone. -/
def oddTable : Command :=
  .ofText .table " \"shop\" .ord\"ers; DROP TABLE x"

theorem oddTable_is_quoted :
    '"' ≠ '.' ∧
    readIdentifier? '"' (quoteIdentifier '"' oddTable.text) =
      some ["shop".toList, "ord\"ers; DROP TABLE x".toList] ∧
    ∃ b table,
      (Provider.ofEngine .postgres ⟨"a", "", none, {}⟩).bind
        oddTable = .ok b ∧
      b = .single ⟨"SELECT * FROM " ++ table, []⟩ ∧
      readIdentifier? '"' table =
        some ["shop".toList,
          "ord\"ers; DROP TABLE x".toList] := by
  have hParts : nameParts '"' oddTable.text =
      ["shop".toList, "ord\"ers; DROP TABLE x".toList] := by
    decide +kernel
  have hDot : '"' ≠ '.' := by
    decide
  have hBound : (Provider.ofEngine .postgres
      ⟨"a", "", none, {}⟩).bind oddTable =
        .ok (.single (.ofTable '"' oddTable)) :=
    rfl
  obtain ⟨hNames, hTables⟩ := tables_are_quoted
  obtain ⟨table, hSent, hReads⟩ := hTables _ _ _ _ rfl hBound
  rw [← hParts]
  exact ⟨hDot, (hNames '"' hDot _).2, _, table, hBound, hSent,
    hReads⟩

end Sql

end Failover
