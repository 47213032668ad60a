import Failover.Proofs.Json.Numeral
import Failover.Proofs.Text.Hex

/-
  The text of a JSON value reads back.  A value is written as a
  text whose document has the strings, the digits and the
  members of the value.

  Key definitions include:
    * `Json.document`
    * `Json.Document.ReadsBack`

  Main statements:
    * `Json.Document.takeString?_escaped`
    * `Json.Document.readValue_number`
    * `Json.Document.readsBack`
    * `Json.Document.ofText?_render`
-/

namespace Failover

namespace Json

namespace Document

------------------------------------------------------------
-- Strings
------------------------------------------------------------

/- A part of a string that stands for one character. -/
def Unit.Denotes (u : Unit) (c : Char) : Prop :=
  ∀ us, joinUnits? (u :: us) = (joinUnits? us).map (c :: ·)

/- A character stands for itself. -/
theorem Unit.char_denotes (c : Char) :
    (Unit.char c).Denotes c :=
  fun _ => rfl

/- Control characters are no halves of a pair. -/
theorem Unit.code_denotes
    {c : Char}
    (hControl : c.toNat < 0x20) :
    (Unit.code c.toNat).Denotes c := by
  intro us
  have hLow : ¬(0xD800 ≤ c.toNat ∧ c.toNat < 0xDC00) := by
    omega
  have hHigh : ¬(0xDC00 ≤ c.toNat ∧ c.toNat < 0xE000) := by
    omega
  conv => lhs; unfold joinUnits?
  rw [if_neg hLow, if_neg hHigh, Char.ofNat_toNat]

/- One part of a string is put before those that follow. -/
def prepend?
    (u : Unit) :
    Option (List Unit × List Char) →
      Option (List Unit × List Char) :=
  Option.map fun x => (u :: x.1, x.2)

/- An escape by a letter is one unit. -/
theorem takeUnits?_short
    {e c : Char}
    (hShort : shortEscape? e = some c)
    (hOther : e ≠ 'u')
    (rest : List Char) :
    takeUnits? ('\\' :: e :: rest) =
      prepend? (.char c) (takeUnits? rest) := by
  rw [takeUnits?.eq_4 e rest fun _ _ _ _ _ h => absurd h hOther,
    hShort]
  cases takeUnits? rest <;> rfl

/- A control character is escaped by its code. -/
theorem takeUnits?_code
    {n : Nat}
    (hLess : n < 0x20)
    (rest : List Char) :
    takeUnits? ('\\' :: 'u' :: '0' :: '0' ::
        Hex.digit (n / 16) :: Hex.digit (n % 16) :: rest) =
      prepend? (.code n) (takeUnits? rest) := by
  have hHigh := Hex.value?_digit (n / 16) (by omega)
  have hLow := Hex.value?_digit (n % 16) (by omega)
  have hZero : Hex.value? '0' = some 0 := by
    decide
  have hCode :
      ((0 * 16 + 0) * 16 + n / 16) * 16 + n % 16 = n := by
    omega
  rw [takeUnits?, hHigh, hLow, hZero]
  simp only [bind, Option.bind_some, hCode]
  cases takeUnits? rest <;> rfl

/- Characters without an escape are units as they are. -/
theorem takeUnits?_plain
    {c : Char}
    (hControl : ¬c.toNat < 0x20)
    (hQuote : c ≠ '"')
    (hSlash : c ≠ '\\')
    (rest : List Char) :
    takeUnits? (c :: rest) =
      prepend? (.char c) (takeUnits? rest) := by
  rw [takeUnits?.eq_5 c rest (fun h => absurd h hQuote)
    (fun _ _ _ _ _ h => absurd h hSlash)
    (fun _ _ h => absurd h hSlash), if_neg]
  · cases takeUnits? rest <;> rfl
  · rw [not_or]
    exact ⟨hControl, hSlash⟩

/- A character that is written is one part of a string. -/
theorem takeUnits?_escape (c : Char) :
    ∃ u : Unit, u.Denotes c ∧ ∀ rest,
      takeUnits? (escape c ++ rest) =
        prepend? u (takeUnits? rest) := by
  have hShort {e : Char}
      (hEscape : shortEscape? e = some c)
      (hOther : e ≠ 'u') :
      ∃ u : Unit, u.Denotes c ∧ ∀ rest,
        takeUnits? (['\\', e] ++ rest) =
          prepend? u (takeUnits? rest) :=
    ⟨.char c, Unit.char_denotes c,
      takeUnits?_short hEscape hOther⟩
  unfold escape
  -- The seven characters with an escape of two characters.
  iterate 7
    split
    · next hThis =>
      subst hThis
      exact hShort rfl (by decide)
  split
  · next hControl =>
    exact ⟨.code c.toNat, Unit.code_denotes hControl,
      takeUnits?_code hControl⟩
  · next hQuote hSlash _ _ _ _ _ hControl =>
    exact ⟨.char c, Unit.char_denotes c,
      takeUnits?_plain hControl hQuote hSlash⟩

/- Escaped characters up to a quote are the string of them. -/
theorem takeString?_escaped
    (cs rest : List Char) :
    takeString? (cs.flatMap escape ++ '"' :: rest) =
      some (some (String.ofList cs), rest) := by
  have hUnits : ∃ us, joinUnits? us = some cs ∧
      takeUnits? (cs.flatMap escape ++ '"' :: rest) =
        some (us, rest) := by
    induction cs with
    | nil => exact ⟨[], rfl, rfl⟩
    | cons c cs ih =>
        obtain ⟨us, hJoined, hTaken⟩ := ih
        obtain ⟨u, hDenotes, hEscape⟩ := takeUnits?_escape c
        refine ⟨u :: us, ?_, ?_⟩
        · rw [hDenotes, hJoined]
          rfl
        · rw [List.flatMap_cons, List.append_assoc, hEscape,
            hTaken]
          rfl
  obtain ⟨us, hJoined, hTaken⟩ := hUnits
  rw [takeString?, hTaken, Option.map_some]
  change some ((joinUnits? us).map String.ofList, rest) = _
  rw [hJoined]
  rfl

end Document

------------------------------------------------------------
-- Values
------------------------------------------------------------

mutual

/- The document of a value. -/
def document : Json → Document
  | .null => .null
  | .bool b => .bool b
  | .integer n => .number (.ofInt n)
  | .float x => ((Number.ofFloating? x).map .number).getD .null
  | .string s => .string (some s)
  | .array items => .array (documents items)
  | .object members => .object (memberDocuments members)

def documents : List Json → List Document
  | [] => []
  | v :: r => document v :: documents r

def memberDocuments :
    List (String × Json) → List (Option String × Document)
  | [] => []
  | m :: r => memberDocument m :: memberDocuments r

def memberDocument :
    String × Json → Option String × Document
  | (n, v) => (some n, document v)

end

/- What begins with a sign or a digit is neither gap nor bracket. -/
theorem first_of_number
    {c : Char}
    (hC : c = '-' ∨ Text.isDigit c = true) :
    Document.isGap c = false ∧ c ≠ ']' := by
  rcases hC with rfl | hDigit
  · decide
  · have hOther (d : Char)
        (hD : Text.isDigit d = false) : c ≠ d := by
      rintro rfl
      rw [hDigit] at hD
      cases hD
    refine ⟨?_, hOther _ (by decide)⟩
    unfold Document.isGap
    rw [decide_eq_false (hOther ' ' (by decide)),
      decide_eq_false (hOther '\t' (by decide)),
      decide_eq_false (hOther '\n' (by decide)),
      decide_eq_false (hOther '\r' (by decide))]
    rfl

/- A written value begins with neither a gap nor a bracket. -/
theorem write_eq_cons (j : Json) :
    ∃ c cs, j.write = c :: cs ∧ Document.isGap c = false ∧
      c ≠ ']' := by
  cases j with
  | null => exact ⟨_, _, rfl, by decide, by decide⟩
  | bool b =>
      cases b <;> exact ⟨_, _, rfl, by decide, by decide⟩
  | integer n =>
      obtain ⟨c, cs, hChars, hC⟩ :=
        Number.signedChars_eq_cons (Number.isFormed_ofInt n)
      rw [Number.write_integer]
      exact ⟨c, cs, hChars, first_of_number hC⟩
  | float x =>
      rw [Number.write_float]
      cases hNumber : Number.ofFloating? x with
      | none => exact ⟨_, _, rfl, by decide, by decide⟩
      | some n =>
          obtain ⟨c, cs, hChars, hC⟩ := Number.signedChars_eq_cons
            (Number.isFormed_ofFloating hNumber)
          exact ⟨c, cs, hChars, first_of_number hC⟩
  | string s => exact ⟨_, _, rfl, by decide, by decide⟩
  | array items => exact ⟨_, _, rfl, by decide, by decide⟩
  | object members => exact ⟨_, _, rfl, by decide, by decide⟩

namespace Document

/- A token has no gap in front of it. -/
theorem skipGap_cons
    {c : Char}
    (hC : isGap c = false)
    (cs : List Char) : skipGap (c :: cs) = c :: cs := by
  unfold skipGap
  rw [List.dropWhile_cons, hC]
  rfl

/- A numeral without a sign is read by its first digit. -/
theorem readValue_digit
    {c : Char}
    (hDigit : Text.isDigit c = true)
    (fuel : Nat)
    (cs : List Char) :
    readValue (fuel + 1) (c :: cs) =
      (takeNumber? false (c :: cs)).map fun x =>
        (.number x.1, x.2) := by
  unfold readValue
  split
  case h_8 => cases takeNumber? false (c :: cs) <;> rfl
  all_goals
    next hSame =>
      cases hSame
      exact absurd hDigit (by decide)

/- A numeral is read up to where it stops. -/
theorem readValue_number
    {n : Number}
    {fuel : Nat}
    {rest : List Char}
    (hFormed : n.IsFormed)
    (hStops : Stops rest) :
    readValue (fuel + 1) (n.signedChars ++ rest) =
      some (.number n, rest) := by
  have hTaken := takeNumber?_chars hFormed hStops
  obtain ⟨c, cs, hWhole⟩ :=
    List.exists_cons_of_ne_nil hFormed.whole.nonempty
  have hDigit : Text.isDigit c = true :=
    hFormed.whole.digits c (by rw [hWhole]; exact .head _)
  unfold Number.signedChars
  cases hNegative : n.negative with
  | true =>
      rw [hNegative] at hTaken
      change readValue (fuel + 1) ('-' :: (n.chars ++ rest)) = _
      unfold readValue
      simp only [hTaken, bind, Option.bind_some]
      rfl
  | false =>
      rw [hNegative] at hTaken
      change readValue (fuel + 1) (n.chars ++ rest) = _
      unfold Number.chars at hTaken ⊢
      rw [hWhole] at hTaken ⊢
      simp only [List.cons_append] at hTaken ⊢
      rw [readValue_digit hDigit, hTaken]
      rfl

/- A floating number is read as what was written of it. -/
theorem readValue_float
    (x : Floating)
    {fuel : Nat}
    {rest : List Char}
    (hStops : Stops rest) :
    readValue (fuel + 1) ((Json.float x).write ++ rest) =
      some ((Json.float x).document, rest) := by
  rw [Number.write_float, document]
  cases hNumber : Number.ofFloating? x with
  | none => rfl
  | some n =>
      exact readValue_number
        (Number.isFormed_ofFloating hNumber) hStops

/- A string is read up to its closing quote. -/
theorem readValue_string
    (s : String)
    (fuel : Nat)
    (rest : List Char) :
    readValue (fuel + 1) (writeString s ++ rest) =
      some (.string (some s), rest) := by
  have hTaken := takeString?_escaped s.toList rest
  rw [String.ofList_toList] at hTaken
  unfold writeString
  rw [List.cons_append, List.append_assoc, List.singleton_append]
  unfold readValue
  simp only [hTaken, bind, Option.bind_some]
  rfl

/- An array whose items are read is read. -/
theorem readValue_array
    {fuel : Nat}
    {c : Char}
    {cs rest : List Char}
    {ds : List Document}
    (hGap : isGap c = false)
    (hBracket : c ≠ ']')
    (hItems : readItems fuel (c :: cs) = some (ds, rest)) :
    readValue (fuel + 1) ('[' :: c :: cs) =
      some (.array ds, rest) := by
  unfold readValue
  simp only [skipGap_cons hGap]
  split
  · next hSame =>
    cases hSame
    exact absurd rfl hBracket
  · simp only [hItems, bind, Option.bind_some]
    rfl

/- An object is read from its first member on. -/
theorem readValue_object
    {fuel : Nat}
    {cs rest : List Char}
    {ms : List (Option String × Document)}
    (hMembers : readMembers fuel ('"' :: cs) = some (ms, rest)) :
    readValue (fuel + 1) ('{' :: '"' :: cs) =
      some (.object ms, rest) := by
  unfold readValue
  simp only [skipGap_cons (show isGap '"' = false by decide)]
  split
  · next hSame => simp at hSame
  · simp only [hMembers, bind, Option.bind_some]
    rfl

/- An item with a bracket behind it is the last one. -/
theorem readItems_last
    {fuel : Nat}
    {cs rest : List Char}
    {d : Document}
    (hValue : readValue fuel cs = some (d, ']' :: rest)) :
    readItems (fuel + 1) cs = some ([d], rest) := by
  unfold readItems
  rw [hValue]
  rfl

/- An item with a comma behind it goes before others. -/
theorem readItems_more
    {fuel : Nat}
    {c : Char}
    {cs more rest : List Char}
    {d : Document}
    {ds : List Document}
    (hValue : readValue fuel cs = some (d, ',' :: c :: more))
    (hGap : isGap c = false)
    (hItems : readItems fuel (c :: more) = some (ds, rest)) :
    readItems (fuel + 1) cs = some (d :: ds, rest) := by
  unfold readItems
  rw [hValue]
  simp only [bind, Option.bind_some,
    skipGap_cons (show isGap ',' = false by decide),
    skipGap_cons hGap, hItems]
  rfl

/- A member is a name, a colon and a value. -/
theorem readMember_written
    {fuel : Nat}
    {c : Char}
    {cs rest : List Char}
    {d : Document}
    (n : String)
    (hGap : isGap c = false)
    (hValue : readValue fuel (c :: cs) = some (d, rest)) :
    readMember (fuel + 1) (writeString n ++ ':' :: c :: cs) =
      some ((some n, d), rest) := by
  have hName := takeString?_escaped n.toList (':' :: c :: cs)
  rw [String.ofList_toList] at hName
  unfold writeString readMember
  rw [List.cons_append, List.append_assoc, List.singleton_append]
  simp only [hName, bind, Option.bind_some,
    skipGap_cons (show isGap ':' = false by decide),
    skipGap_cons hGap, hValue]
  rfl

/- A member with a brace behind it is the last one. -/
theorem readMembers_last
    {fuel : Nat}
    {cs rest : List Char}
    {m : Option String × Document}
    (hMember : readMember fuel cs = some (m, '}' :: rest)) :
    readMembers (fuel + 1) cs = some ([m], rest) := by
  unfold readMembers
  rw [hMember]
  rfl

/- A member with a comma behind it goes before others. -/
theorem readMembers_more
    {fuel : Nat}
    {cs more rest : List Char}
    {m : Option String × Document}
    {ms : List (Option String × Document)}
    (hMember : readMember fuel cs = some (m, ',' :: '"' :: more))
    (hMembers : readMembers fuel ('"' :: more) =
      some (ms, rest)) :
    readMembers (fuel + 1) cs = some (m :: ms, rest) := by
  unfold readMembers
  rw [hMember]
  simp only [bind, Option.bind_some,
    skipGap_cons (show isGap ',' = false by decide),
    skipGap_cons (show isGap '"' = false by decide), hMembers]
  rfl

/-
  With some fuel the text of a value reads back as its
  document, if there is fuel for each of its characters.  What
  follows does not go on with a numeral that ends the text.
-/
structure ReadsBack (fuel : Nat) : Prop where
  value : ∀ (j : Json) (rest : List Char),
    j.write.length ≤ fuel → Stops rest →
    readValue fuel (j.write ++ rest) = some (j.document, rest)
  items : ∀ (v : Json) (r : List Json) (rest : List Char),
    (writeItems (v :: r)).length ≤ fuel →
    readItems fuel (writeItems (v :: r) ++ rest) =
      some (documents (v :: r), rest)
  members : ∀ (m : String × Json) (r : List (String × Json))
    (rest : List Char),
    (writeMembers (m :: r)).length ≤ fuel →
    readMembers fuel (writeMembers (m :: r) ++ rest) =
      some (memberDocuments (m :: r), rest)

/- The text of some items begins with that of the first. -/
theorem writeItems_cons
    (v : Json)
    (r : List Json) :
    ∃ more, writeItems (v :: r) = v.write ++ more := by
  cases r with
  | nil => exact ⟨_, rfl⟩
  | cons u r => exact ⟨_, rfl⟩

/- Written members begin with a quote. -/
theorem writeMembers_cons
    (m : String × Json)
    (r : List (String × Json)) :
    ∃ more, writeMembers (m :: r) = '"' :: more := by
  cases r with
  | nil => exact ⟨_, rfl⟩
  | cons n r => exact ⟨_, rfl⟩

/- A longer value reads back if shorter ones do. -/
theorem ReadsBack.value_succ
    {fuel : Nat}
    (h : ReadsBack fuel)
    (j : Json)
    (rest : List Char)
    (hFuel : j.write.length ≤ fuel + 1)
    (hStops : Stops rest) :
    readValue (fuel + 1) (j.write ++ rest) =
      some (j.document, rest) := by
  cases j with
  | null => rfl
  | bool b => cases b <;> rfl
  | integer n =>
      rw [Number.write_integer, document]
      exact readValue_number (Number.isFormed_ofInt n) hStops
  | float x => exact readValue_float x hStops
  | string s => exact readValue_string s fuel rest
  | array items =>
      cases items with
      | nil => rfl
      | cons v r =>
          have hItems := h.items v r rest
            (Nat.le_of_succ_le_succ hFuel)
          obtain ⟨more, hMore⟩ := writeItems_cons v r
          obtain ⟨c, cs, hWrite, hGap, hBracket⟩ :=
            write_eq_cons v
          unfold write document
          rw [hMore, hWrite] at hItems ⊢
          exact readValue_array hGap hBracket hItems
  | object members =>
      cases members with
      | nil => rfl
      | cons m r =>
          have hMembers := h.members m r rest
            (Nat.le_of_succ_le_succ hFuel)
          obtain ⟨more, hMore⟩ := writeMembers_cons m r
          unfold write document
          rw [hMore] at hMembers ⊢
          exact readValue_object hMembers

/- A comma ends every number. -/
theorem stops_comma (cs : List Char) : Stops (',' :: cs) :=
  stops_cons (by decide) cs

/- Items read back one after the other. -/
theorem ReadsBack.items_succ
    {fuel : Nat}
    (h : ReadsBack fuel)
    (v : Json)
    (r : List Json)
    (rest : List Char)
    (hFuel : (writeItems (v :: r)).length ≤ fuel + 1) :
    readItems (fuel + 1) (writeItems (v :: r) ++ rest) =
      some (documents (v :: r), rest) := by
  cases r with
  | nil =>
      rw [writeItems, List.length_append,
        List.length_singleton] at hFuel
      rw [writeItems, List.append_assoc, List.singleton_append]
      exact readItems_last (h.value v (']' :: rest)
        (Nat.le_of_succ_le_succ hFuel)
        (stops_cons (by decide) rest))
  | cons u r =>
      have hText : writeItems (v :: u :: r) =
          v.write ++ ',' :: writeItems (u :: r) :=
        rfl
      rw [hText, List.length_append, List.length_cons] at hFuel
      rw [hText, List.append_assoc, List.cons_append]
      have hItems := h.items u r rest (by omega)
      have hValue := h.value v
        (',' :: (writeItems (u :: r) ++ rest)) (by omega)
        (stops_comma _)
      obtain ⟨more, hMore⟩ := writeItems_cons u r
      obtain ⟨c, cs, hWrite, hGap, -⟩ := write_eq_cons u
      rw [hMore, hWrite] at hItems hValue ⊢
      exact readItems_more hValue hGap hItems

/-
  A member is read back with one more unit of fuel than its
  value.
-/
theorem readMember_write
    {fuel : Nat}
    (hValue : ∀ (j : Json) (rest : List Char),
      j.write.length ≤ fuel → Stops rest →
      readValue fuel (j.write ++ rest) =
        some (j.document, rest))
    (n : String)
    (v : Json)
    {rest : List Char}
    (hFuel : v.write.length ≤ fuel)
    (hStops : Stops rest) :
    readMember (fuel + 1)
        (writeString n ++ ':' :: (v.write ++ rest)) =
      some (memberDocument (n, v), rest) := by
  have hRead := hValue v rest hFuel hStops
  obtain ⟨c, cs, hWrite, hGap, -⟩ := write_eq_cons v
  rw [hWrite] at hRead ⊢
  exact readMember_written n hGap hRead

/-
  Members are read back with one more unit of fuel, if values
  are with all fuel below.
-/
theorem ReadsBack.members_succ
    {fuel : Nat}
    (h : ∀ k ≤ fuel, ReadsBack k)
    (m : String × Json)
    (r : List (String × Json))
    (rest : List Char)
    (hFuel : (writeMembers (m :: r)).length ≤ fuel + 1) :
    readMembers (fuel + 1) (writeMembers (m :: r) ++ rest) =
      some (memberDocuments (m :: r), rest) := by
  obtain ⟨n, v⟩ := m
  have hName : 2 ≤ (writeString n).length := by
    unfold writeString
    rw [List.length_cons, List.length_append,
      List.length_singleton]
    omega
  cases r with
  | nil =>
      have hText : writeMembers [(n, v)] =
          writeString n ++ ':' :: (v.write ++ ['}']) :=
        rfl
      simp only [hText, List.length_append, List.length_cons,
        List.length_nil] at hFuel
      obtain ⟨k, rfl⟩ : ∃ k, fuel = k + 1 :=
        ⟨fuel - 1, by omega⟩
      simp only [hText, List.append_assoc, List.cons_append,
        List.nil_append]
      exact readMembers_last (readMember_write
        (h k (Nat.le_succ k)).value n v (by omega)
        (stops_cons (by decide) rest))
  | cons m r =>
      have hText : writeMembers ((n, v) :: m :: r) =
          writeString n ++
            ':' :: (v.write ++ ',' :: writeMembers (m :: r)) :=
        rfl
      simp only [hText, List.length_append,
        List.length_cons] at hFuel
      obtain ⟨k, rfl⟩ : ∃ k, fuel = k + 1 :=
        ⟨fuel - 1, by omega⟩
      simp only [hText, List.append_assoc, List.cons_append]
      have hMembers := (h (k + 1) (Nat.le_refl _)).members m r
        rest (by omega)
      have hMember := readMember_write
        (h k (Nat.le_succ k)).value n v (by omega)
        (stops_comma (writeMembers (m :: r) ++ rest))
      obtain ⟨more, hMore⟩ := writeMembers_cons m r
      rw [hMore] at hMembers hMember ⊢
      exact readMembers_more hMember hMembers

/- The induction is on the fuel, as all three call each other. -/
theorem readsBack (fuel : Nat) : ReadsBack fuel := by
  induction fuel using Nat.strongRecOn with
  | _ fuel ih =>
      cases fuel with
      | zero =>
          have hSome (j : Json) : j.write.length ≠ 0 := by
            obtain ⟨c, cs, hWrite, -⟩ := write_eq_cons j
            rw [hWrite]
            exact Nat.succ_ne_zero _
          constructor
          · intro j rest hFuel
            exact absurd (Nat.le_zero.mp hFuel) (hSome j)
          · intro v r rest hFuel
            obtain ⟨more, hMore⟩ := writeItems_cons v r
            rw [hMore, List.length_append] at hFuel
            have hNone := hSome v
            omega
          · intro m r rest hFuel
            obtain ⟨more, hMore⟩ := writeMembers_cons m r
            rw [hMore] at hFuel
            cases hFuel
      | succ fuel =>
          have hLast := ih fuel (Nat.lt_succ_self fuel)
          constructor
          · exact hLast.value_succ
          · exact hLast.items_succ
          · apply ReadsBack.members_succ
            intro k hK
            exact ih k (Nat.lt_succ_of_le hK)

/- The text of a value has the document of the value. -/
theorem ofText?_render (j : Json) :
    ofText? j.render = some j.document := by
  have hValue := (readsBack (3 * j.write.length + 1)).value j []
    (by omega) nofun
  rw [List.append_nil] at hValue
  obtain ⟨c, cs, hWrite, hGap, -⟩ := write_eq_cons j
  unfold ofText? render ofChars?
  rw [String.toList_ofList]
  rw [hWrite] at hValue ⊢
  rw [skipGap_cons hGap, hValue]
  rfl

end Document

end Json

end Failover
