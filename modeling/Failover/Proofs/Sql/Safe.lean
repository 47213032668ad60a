import Failover.Proofs.Sql.Replacement
import Failover.Proofs.Sql.Scan

/-
  The scan of a text by its bytes against the tokens of the
  text.  Between two turns of the main loop the index stands
  behind a token, or inside of a character above ASCII that is
  a token, and what has been made so far, the text since the
  last reference, and the tokens to come make up the result.

  Key definitions include:
    * `Sql.Scan.Stands`
    * `Sql.Scan.finished`
    * `Sql.Scan.Follows`

  Main statements:
    * `Sql.Scan.turn_follows`
    * `Sql.scan_replaces_known`
    * `Sql.scan_is_safe`
-/

namespace Failover

namespace Sql

open Utf8 (size form code isOf)

namespace Scan

variable {cs before rest : List Char}

------------------------------------------------------------
-- Bodies
------------------------------------------------------------

/- A mark that is found ends where reading up to it ends. -/
theorem find?_eq
    {mark : List Char}
    (hMark : mark ≠ [])
    (r : List Char) :
    (∃ place, find? mark r = some place ∧
      size (untilMark mark r).1 = place + size mark) ∨
    (find? mark r = none ∧ untilMark mark r = (r, [])) := by
  induction r with
  | nil =>
      right
      simp [find?, untilMark, hMark]
  | cons c r ih =>
      by_cases hHere : mark.isPrefixOf (c :: r) = true
      · left
        refine ⟨0, by rw [find?, if_pos hHere], ?_⟩
        rw [untilMark, if_pos hHere, Nat.zero_add]
      · rw [find?, if_neg hHere, untilMark, if_neg hHere]
        rcases ih with ⟨place, hFind, hSize⟩ | ⟨hFind, hAll⟩
        · left
          refine ⟨size [c] + place, by rw [hFind]; rfl, ?_⟩
          change size (c :: (untilMark mark r).1) = _
          rw [Utf8.size_cons c, hSize]
          omega
        · right
          rw [hFind, hAll]
          exact ⟨rfl, rfl⟩

theorem isTagChar_above
    {c : Char}
    (h : 0x80 ≤ c.toNat) : isTagChar c = false := by
  have hLine : c ≠ '_' := by
    rintro rfl
    exact absurd h (by decide)
  simp [isTagChar, Utf8.isLetter_above h, hLine]

section Body

variable {name : List Char}

/- The name of a tag is passed over. -/
theorem passing_tag
    (hName : ∀ c ∈ name, isTagChar c = true)
    (hStop : StopsBefore isTagChar rest)
    (hCs : cs = before ++ '$' :: (name ++ rest)) :
    (passing cs isTagChar).run (size cs) (size before + 1) =
      .ok (size (before ++ '$' :: name)) := by
  have hSplit : cs = (before ++ ['$']) ++ (name ++ rest) := by
    simp [hCs]
  have hRun := passing_eq (fun _ => isTagChar_above) hSplit
  rw [takeWhile_append_stop hName hStop, Utf8.size_append _ ['$'],
    Utf8.size_ascii (by decide)] at hRun
  simpa using hRun

/- A tag is cut out, and so is the text that it is looked for in. -/
theorem skipBody_tag
    (hName : ∀ c ∈ name, isTagChar c = true)
    (hCs : cs = before ++ '$' :: (name ++ '$' :: rest)) :
    skipBody cs (size before) =
      .ok (size (before ++
        (tagOf name ++ (untilMark (tagOf name) rest).1))) := by
  have hStop : StopsBefore isTagChar ('$' :: rest) := by
    intro c hC
    obtain rfl : c = '$' := by simpa using hC.symm
    decide
  have hRun := passing_tag hName hStop hCs
  have hSplit : cs = (before ++ '$' :: name) ++ '$' :: rest := by
    simp [hCs]
  have hLast := size_lt hSplit
  have hAt := byteAt_ascii hSplit (by decide)
  rw [Utf8.size_ascii (by decide)] at hLast
  have hEnd : size (before ++ '$' :: name) + 1 =
      size (before ++ tagOf name) := by
    rw [← Utf8.size_ascii (c := '$') (by decide),
      ← Utf8.size_append]
    simp [tagOf]
  have hTag : slice cs (size before)
      (size (before ++ tagOf name)) = .ok (tagOf name) :=
    slice_eq (show cs = before ++ (tagOf name ++ rest) by
      simp [hCs, tagOf]) (Utf8.size_append _ _)
  have hText : cs = (before ++ tagOf name) ++ rest := by
    simp [hCs, tagOf]
  have hRest : slice cs (size (before ++ tagOf name)) (size cs) =
      .ok rest :=
    slice_eq (show cs = (before ++ tagOf name) ++ (rest ++ []) by
      simpa using hText) (by rw [hText, Utf8.size_append])
  have hHere : ¬ size cs ≤ size (before ++ '$' :: name) := by
    omega
  unfold skipBody
  simp only [hRun, bind, Except.bind, hHere, if_false, hAt, hEnd,
    hTag, hRest, not_true_eq_false, ne_eq]
  have hMark : tagOf name ≠ [] := List.cons_ne_nil _ _
  rcases find?_eq hMark rest with
    ⟨place, hFind, hSize⟩ | ⟨hFind, hAll⟩
  · rw [hFind]
    simp only [Utf8.size_append, hSize, pure, Except.pure,
      Except.ok.injEq]
    omega
  · rw [hFind, hAll, hText]
    simp [pure, Except.pure]

/- A dollar sign without a tag is passed over by itself. -/
theorem skipBody_none
    (hName : ∀ c ∈ name, isTagChar c = true)
    (hStop : StopsBefore isTagChar rest)
    (hNot : ∀ r, rest ≠ '$' :: r)
    (hCs : cs = before ++ '$' :: (name ++ rest)) :
    skipBody cs (size before) = .ok (size before + 1) := by
  have hRun := passing_tag hName hStop hCs
  have hSplit : cs = (before ++ '$' :: name) ++ rest := by
    simp [hCs]
  unfold skipBody
  simp only [hRun, bind, Except.bind]
  cases rest with
  | nil =>
      rw [hSplit, List.append_nil, if_pos (Nat.le_refl _)]
      rfl
  | cons d r =>
      have hPos := Utf8.size_char_pos d
      have hLast := size_lt hSplit
      obtain ⟨b, hB, hAt⟩ := byteAt_eq hSplit hPos
      have hNe : b ≠ code '$' := by
        rw [ne_eq, Utf8.eq_code_iff (by decide) hB]
        rintro rfl
        exact hNot r rfl
      rw [Nat.add_zero] at hAt
      rw [if_neg (by omega)]
      simp only [hAt, if_pos hNe]
      rfl

end Body

/- The place behind what a dollar sign begins. -/
theorem skipBody_eq
    {lex : Lexis}
    (hDollar : lex.dollarQuotes = true)
    (hCs : cs = before ++ '$' :: rest) :
    skipBody cs (size before) =
      .ok (size (before ++ (next lex '$' rest).1.chars)) := by
  have hAll : ∀ c ∈ rest.takeWhile isTagChar,
      isTagChar c = true := mem_takeWhile_holds
  have hStop := stopsBefore_dropWhile isTagChar rest
  have hBoth := List.takeWhile_append_dropWhile
    (p := isTagChar) (l := rest)
  by_cases hTag : ∃ r, rest.dropWhile isTagChar = '$' :: r
  · obtain ⟨r, hR⟩ := hTag
    rw [hR] at hBoth
    rw [← hBoth] at hCs ⊢
    rw [skipBody_tag hAll hCs, next_body hDollar hAll]
    rfl
  · have hNone : dollarTag? rest = none := by
      unfold dollarTag?
      split
      · next r hR => exact absurd ⟨r, hR⟩ hTag
      · rfl
    have hNext : next lex '$' rest = (.other '$', rest) := by
      simp [next, hNone]
    rw [hNext, skipBody_none hAll hStop
      (fun r hR => hTag ⟨r, hR⟩) (by rw [hBoth]; exact hCs)]
    simp [Token.chars, Utf8.size_ascii]

------------------------------------------------------------
-- One token
------------------------------------------------------------

/-
  Where a scan stands in a text: references up to `done` are
  replaced, and what is in the middle has been passed over.
-/
structure Stands
    (cs : List Char)
    (s : State)
    (done middle rest : List Char) : Prop where
  text : cs = done ++ (middle ++ rest)
  last : s.last = size done
  index : Reaches (done ++ middle) rest s.index

/- The result of a scan that has some tokens to go. -/
def finished
    (w : Substitution)
    (s : State)
    (middle : List Char)
    (ts : List Token) : Substituted :=
  let r := substituteTokens w s.order ts
  ⟨s.out ++ middle ++ r.sql, r.order,
    s.references + r.references⟩

/-
  The loop goes on from a state to one that stands behind a
  token, and the result stays the same.
-/
def Follows
    (lex : Lexis)
    (w : Substitution)
    (cs : List Char)
    (s : State)
    (middle : List Char)
    (t : Token)
    (rest : List Char) : Prop :=
  ∃ s' done' middle',
    (main cs lex w).run (size cs) s =
      (main cs lex w).run (size cs) s' ∧
    Stands cs s' done' middle' rest ∧
    ∀ ts, finished w s' middle' ts = finished w s middle (t :: ts)

section Step

variable {lex : Lexis} {w : Substitution} {s : State}
variable {done middle : List Char} {t : Token}

/- A token that is no known reference joins the middle. -/
theorem finished_passed
    (hTarget : w.target? t = none)
    (j : Nat)
    (ts : List Token) :
    finished w { s with index := j } (middle ++ t.chars) ts =
      finished w s middle (t :: ts) := by
  simp [finished, substituteTokens, hTarget]

/- A turn that passes over a token and does nothing else. -/
theorem follows_passed
    {j : Nat}
    (hStands : Stands cs s done middle (t.chars ++ rest))
    (hPlace : s.index = size (done ++ middle))
    (hTarget : w.target? t = none)
    (hSome : t.chars ≠ [])
    (hTurn : turn cs lex w s = .ok (.again { s with index := j }))
    (hReach : Reaches (done ++ middle ++ t.chars) rest j) :
    Follows lex w cs s middle t rest := by
  have hText := hStands.text
  have hPos := Nat.pos_of_ne_zero (mt Utf8.size_eq_zero.mp hSome)
  have hAll : size cs = size (done ++ middle) +
      (size t.chars + size rest) := by
    rw [hText]
    simp only [Utf8.size_append]
    omega
  refine ⟨{ s with index := j }, done, middle ++ t.chars,
    Loop.Goes.run_eq ⟨?_, rfl, hTurn, ?_⟩,
    ⟨by simp [hText], hStands.last, by simpa using hReach⟩,
    finished_passed hTarget j⟩
  · change s.index < size cs
    omega
  · change s.index < j
    rw [Reaches, Utf8.size_append (done ++ middle)] at hReach
    omega

/- A turn passes over a region with its quotes. -/
theorem turn_quoted
    {c : Char}
    (hQuote : IsQuote c)
    (hCs : cs = before ++ c :: rest)
    (hPlace : s.index = size before) :
    ∃ j, turn cs lex w s = .ok (.again { s with index := j }) ∧
      Reaches (before ++ (next lex c rest).1.chars)
        (next lex c rest).2 j := by
  have hSplit : cs = (before ++ [c]) ++ rest := by simp [hCs]
  obtain ⟨j, hRun, hReach⟩ :=
    quoted_reaches hQuote (escapesIn lex c) hSplit
  have hAt := byteAt_ascii hCs hQuote.ascii
  have hSame (x : Char) (hX : x.toNat < 0x80) :=
    Utf8.eq_code_iff hX (Utf8.code_mem hQuote.ascii)
  have hEscapes : (lex.backslashEscapes && code c != code '`') =
      escapesIn lex c := by
    rw [escapesIn, bne, bne, beq_eq_decide, beq_eq_decide,
      decide_eq_decide.mpr (hSame '`' (by decide))]
  rw [Utf8.size_append, Utf8.size_ascii hQuote.ascii] at hRun
  refine ⟨j, ?_, ?_⟩
  · have hOpens : code c = code '\'' ∨ code c = code '"' ∨
        code c = code '`' := by
      rw [hSame _ (by decide), hSame _ (by decide),
        hSame _ (by decide)]
      exact hQuote
    unfold turn
    simp only [hPlace, hAt, bind, Except.bind, if_pos hOpens,
      hEscapes, hRun]
    rfl
  · rw [next_region hQuote]
    simpa [Token.chars] using hReach

/- A turn passes over a comment up to the end of its line. -/
theorem turn_line
    (hCs : cs = before ++ '-' :: '-' :: rest)
    (hPlace : s.index = size before) :
    turn cs lex w s = .ok (.again { s with
      index := size (before ++
        '-' :: '-' :: rest.takeWhile (· != '\n')) }) := by
  have hSplit : cs = (before ++ ['-']) ++ '-' :: rest := by
    simp [hCs]
  have hAt := byteAt_ascii hCs (by decide)
  have hNext := (byte?_eq_code_iff hSplit (by decide)).mpr
    ⟨rest, rfl⟩
  have hAbove (c : Char) (h : 0x80 ≤ c.toNat) :
      (c != '\n') = true := by
    rw [bne_iff_ne]
    rintro rfl
    exact absurd h (by decide)
  have hRun := passing_eq hAbove hCs
  rw [Utf8.size_append, Utf8.size_ascii (by decide)] at hNext
  unfold turn
  simp only [hPlace, hAt, bind, Except.bind, hNext]
  rw [if_neg (by decide), if_pos ⟨trivial, trivial⟩, hRun]
  rfl

/- A turn passes over a comment between marks. -/
theorem turn_block
    (hCs : cs = before ++ '/' :: '*' :: rest)
    (hPlace : s.index = size before) :
    turn cs lex w s = .ok (.again { s with
      index := size (before ++
        '/' :: '*' :: (untilMark ['*', '/'] rest).1) }) := by
  have hSplit : cs = (before ++ ['/']) ++ '*' :: rest := by
    simp [hCs]
  have hInside : cs = (before ++ ['/', '*']) ++ rest := by
    simp [hCs]
  have hAt := byteAt_ascii hCs (by decide)
  have hNext := (byte?_eq_code_iff hSplit (by decide)).mpr
    ⟨rest, rfl⟩
  obtain ⟨j, hRun, hEnd⟩ := block_eq hInside
  rw [Utf8.size_append, Utf8.size_ascii (by decide)] at hNext
  rw [Utf8.size_append before,
    Utf8.size_cons_ascii (by decide),
    Utf8.size_ascii (by decide)] at hRun
  unfold turn
  simp only [hPlace, hAt, bind, Except.bind, hNext]
  rw [if_neg (by decide), if_neg (fun h => absurd h.1 (by decide)),
    if_pos ⟨trivial, trivial⟩, hRun]
  simp [hEnd, pure, Except.pure]

/- A turn passes over what a dollar sign begins. -/
theorem turn_dollar
    (hDollar : lex.dollarQuotes = true)
    (hCs : cs = before ++ '$' :: rest)
    (hPlace : s.index = size before) :
    turn cs lex w s = .ok (.again { s with
      index := size (before ++
        (next lex '$' rest).1.chars) }) := by
  have hAt := byteAt_ascii hCs (by decide)
  have hSkip := skipBody_eq hDollar hCs
  unfold turn
  simp only [hPlace, hAt, bind, Except.bind]
  rw [if_neg (by decide), if_neg (fun h => absurd h.1 (by decide)),
    if_neg (fun h => absurd h.1 (by decide)),
    if_pos ⟨trivial, hDollar⟩, hSkip]
  rfl

/- A turn passes over a system variable. -/
theorem turn_system
    (hCs : cs = before ++ '@' :: '@' :: rest)
    (hPlace : s.index = size before) :
    turn cs lex w s = .ok (.again { s with
      index := size (before ++
        '@' :: '@' :: rest.takeWhile Text.isWordChar) }) := by
  have hSplit : cs = (before ++ ['@']) ++ '@' :: rest := by
    simp [hCs]
  have hInside : cs = (before ++ ['@', '@']) ++ rest := by
    simp [hCs]
  have hAt := byteAt_ascii hCs (by decide)
  have hNext := (byte?_eq_code_iff hSplit (by decide)).mpr
    ⟨rest, rfl⟩
  have hRun := passing_eq (fun _ => Utf8.isWordChar_above) hInside
  rw [Utf8.size_append, Utf8.size_ascii (by decide)] at hNext
  rw [Utf8.size_append before,
    Utf8.size_cons_ascii (by decide),
    Utf8.size_ascii (by decide)] at hRun
  unfold turn
  simp only [hPlace, hAt, bind, Except.bind, hNext]
  rw [if_neg (by decide), if_neg (fun h => absurd h.1 (by decide)),
    if_neg (fun h => absurd h.1 (by decide)),
    if_neg (fun h => absurd h.1 (by decide)),
    if_pos ⟨trivial, trivial⟩, hRun]
  simp [pure, Except.pure]

/-
  No other byte of a character begins something: it is the
  byte of an ASCII character only if the character is.
-/
theorem turn_byte
    {c : Char}
    {k : Nat}
    (hCs : cs = before ++ c :: rest)
    (hOpens : ¬ OpensToken lex c rest)
    (hAt : c ≠ '@')
    (hDollar : ¬ (c = '$' ∧ lex.dollarQuotes = true))
    (hK : k < size [c])
    (hPlace : s.index = size before + k) :
    turn cs lex w s =
      .ok (.again { s with index := size before + k + 1 }) := by
  obtain ⟨b, hB, hByte⟩ := byteAt_eq hCs hK
  have hSame {x : Char} (hX : x.toNat < 0x80) (h : b = code x) :
      c = x :=
    (Utf8.eq_code_iff hX hB).mp h
  have hPair {x y : Char} (hX : x.toNat < 0x80)
      (hY : y.toNat < 0x80)
      (hNot : ¬ (c = x ∧ [y] <+: rest)) :
      ¬ (b = code x ∧
        byte? cs (size before + k + 1) = some (code y)) := by
    rintro ⟨hFirst, hSecond⟩
    obtain rfl := hSame hX hFirst
    rw [Utf8.size_ascii hX] at hK
    obtain rfl : k = 0 := by omega
    have hSplit : cs = (before ++ [c]) ++ rest := by simp [hCs]
    have hPlaces : size before + 0 + 1 = size (before ++ [c]) := by
      rw [Utf8.size_append, Utf8.size_ascii hX]
    rw [hPlaces, byte?_eq_code_iff hSplit hY] at hSecond
    obtain ⟨r, rfl⟩ := hSecond
    exact hNot ⟨rfl, r, rfl⟩
  have hQuote : ¬ (b = code '\'' ∨ b = code '"' ∨
      b = code '`') := by
    intro h
    refine hOpens (.inl (h.imp (hSame (by decide)) (Or.imp ?_ ?_)))
    · exact hSame (by decide)
    · exact hSame (by decide)
  have hLine := hPair (by decide) (by decide) fun h =>
    hOpens (.inr (.inl h))
  have hBlock := hPair (by decide) (by decide) fun h =>
    hOpens (.inr (.inr (.inl h)))
  have hBody : ¬ (b = code '$' ∧ lex.dollarQuotes = true) :=
    fun h => hDollar ⟨hSame (by decide) h.1, h.2⟩
  have hNoAt : b ≠ code '@' := fun h => hAt (hSame (by decide) h)
  unfold turn
  simp only [hPlace, hByte, bind, Except.bind]
  rw [if_neg hQuote, if_neg hLine, if_neg hBlock, if_neg hBody,
    if_neg fun h => hNoAt h.1, if_neg hNoAt]
  rfl

variable (lex w) in
/- The name behind an at sign is looked up, if there is one. -/
theorem turn_at
    {name : List Char}
    (hName : rest.takeWhile Text.isWordChar = name)
    (hNot : ∀ r, rest ≠ '@' :: r)
    (hCs : cs = before ++ '@' :: rest)
    (hPlace : s.index = size before) :
    turn cs lex w s =
      (if name = [] then .ok s
        else refer cs w s (size (before ++ '@' :: name))).map
        fun s => .again { s with
          index := size (before ++ '@' :: name) } := by
  have hSplit : cs = (before ++ ['@']) ++ rest := by
    simp [hCs]
  have hAt := byteAt_ascii hCs (by decide)
  have hPlaces : size (before ++ ['@']) = size before + 1 := by
    rw [Utf8.size_append, Utf8.size_ascii (by decide)]
  have hNext : byte? cs (size before + 1) ≠ some (code '@') := by
    intro h
    rw [← hPlaces, byte?_eq_code_iff hSplit (by decide)] at h
    exact h.elim hNot
  have hRun := passing_eq (fun _ => Utf8.isWordChar_above) hSplit
  have hStop : size (before ++ ['@'] ++ name) =
      size before + 1 + size name := by
    rw [Utf8.size_append, hPlaces]
  have hSome : size before + 1 < size before + 1 + size name ↔
      ¬ name = [] := by
    rw [← Utf8.size_eq_zero]
    omega
  have hMax : max (size before + 1 + size name)
      (size before + 1) = size before + 1 + size name := by
    omega
  rw [hPlaces, hName, hStop] at hRun
  rw [List.append_assoc, List.singleton_append] at hStop
  unfold turn
  simp only [hPlace, hAt, bind, Except.bind]
  rw [if_neg (by decide), if_neg (fun h => absurd h.1 (by decide)),
    if_neg (fun h => absurd h.1 (by decide)),
    if_neg (fun h => absurd h.1 (by decide)),
    if_neg (fun h => hNext h.2), if_pos trivial, hRun]
  simp only [hMax, hSome, hStop]
  by_cases hNil : name = []
  · rw [if_neg (not_not_intro hNil), if_pos hNil]
    rfl
  · rw [if_pos hNil, if_neg hNil]
    rfl

section Refer

variable {name : List Char}

/- The name of a reference is cut out. -/
theorem slice_name
    (hCs : cs = before ++ '@' :: (name ++ rest)) :
    slice cs (size before + 1) (size (before ++ '@' :: name)) =
      .ok name := by
  have hSplit : cs = (before ++ ['@']) ++ (name ++ rest) := by
    simp [hCs]
  have hSlice := slice_eq hSplit rfl
  rw [Utf8.size_append, Utf8.size_ascii (by decide)] at hSlice
  rw [Utf8.size_append, Utf8.size_cons_ascii (by decide),
    ← Nat.add_assoc]
  exact hSlice

theorem refer_unknown
    (hCs : cs = before ++ '@' :: (name ++ rest))
    (hPlace : s.index = size before)
    (hNone : w.index? (String.ofList name) = none) :
    refer cs w s (size (before ++ '@' :: name)) = .ok s := by
  unfold refer
  simp only [hPlace, slice_name hCs, bind, Except.bind, hNone]
  rfl

/-
  A known reference is cut out together with what was passed
  over before it.
-/
theorem refer_known
    {index : Nat}
    (hStands : Stands cs s done middle ('@' :: (name ++ rest)))
    (hPlace : s.index = size (done ++ middle))
    (hIndex : w.index? (String.ofList name) = some index) :
    refer cs w s (size (done ++ middle ++ '@' :: name)) =
      .ok { s with
        last := size (done ++ middle ++ '@' :: name)
        out := s.out ++ middle ++ (w.placeholder
          (w.position s.order index).1 index).toList
        order := (w.position s.order index).2
        references := s.references + 1 } := by
  have hText := hStands.text
  have hName : slice cs (size (done ++ middle) + 1)
      (size (done ++ middle ++ '@' :: name)) = .ok name :=
    slice_name (by rw [hText, List.append_assoc])
  have hMiddle : slice cs (size done) (size (done ++ middle)) =
      .ok middle :=
    slice_eq hText (Utf8.size_append _ _)
  unfold refer
  simp only [hPlace, hStands.last, hName, hMiddle, bind,
    Except.bind, hIndex]
  rfl

end Refer

------------------------------------------------------------
-- A turn follows a token
------------------------------------------------------------

section Tokens

variable {c : Char}

/- A known reference is replaced, and an unknown one passed over. -/
theorem follows_reference
    {name : List Char}
    (hSome : name ≠ [])
    (hName : ∀ d ∈ name, Text.isWordChar d = true)
    (hRest : StopsBefore Text.isWordChar rest)
    (hStands : Stands cs s done middle ('@' :: (name ++ rest)))
    (hPlace : s.index = size (done ++ middle)) :
    Follows lex w cs s middle (.reference name) rest := by
  have hText := hStands.text
  have hCs : cs = (done ++ middle) ++ '@' :: (name ++ rest) := by
    rw [hText, List.append_assoc]
  have hNot (r : List Char) : name ++ rest ≠ '@' :: r := by
    intro h
    cases name with
    | nil => exact hSome rfl
    | cons d name =>
        obtain ⟨rfl, -⟩ := List.cons.inj h
        exact absurd (hName '@' List.mem_cons_self) (by decide)
  have hTurn := turn_at lex w
    (takeWhile_append_stop hName hRest) hNot hCs hPlace
  rw [if_neg hSome] at hTurn
  cases hIndex : w.index? (String.ofList name) with
  | none =>
      rw [refer_unknown hCs hPlace hIndex] at hTurn
      exact follows_passed hStands hPlace hIndex
        (List.cons_ne_nil _ _) hTurn (.inl rfl)
  | some index =>
      have hLess : size (done ++ middle) <
          size (done ++ middle ++ '@' :: name) := by
        rw [Utf8.size_append (done ++ middle),
          Utf8.size_cons_ascii (by decide)]
        omega
      have hAll := size_lt hCs
      have hPos := Utf8.size_char_pos '@'
      rw [refer_known hStands hPlace hIndex] at hTurn
      refine ⟨_, done ++ middle ++ '@' :: name, [],
        Loop.Goes.run_eq ⟨?_, rfl, hTurn, ?_⟩,
        ⟨by simp [hCs], rfl, .inl (by simp)⟩, ?_⟩
      · change s.index < size cs
        omega
      · change s.index < _
        rw [hPlace]
        exact hLess
      · intro ts
        simp [finished, substituteTokens, Substitution.target?,
          hIndex, Nat.add_assoc, Nat.add_comm]

/- A character that begins nothing longer is passed over. -/
theorem follows_other
    (hOpens : ¬ OpensToken lex c rest)
    (hDollar : ¬ (c = '$' ∧ lex.dollarQuotes = true))
    (hStands : Stands cs s done middle (c :: rest))
    (hPlace : s.index = size (done ++ middle)) :
    Follows lex w cs s middle (.other c) rest := by
  have hCs : cs = (done ++ middle) ++ c :: rest := by
    rw [hStands.text, List.append_assoc]
  have hAll := size_lt hCs
  by_cases hAt : c = '@'
  · subst hAt
    have hHead : ∀ d ∈ rest.head?,
        d ≠ '@' ∧ Text.isWordChar d = false := by
      intro d hD
      constructor
      · rintro rfl
        exact hOpens (.inr (.inr (.inr (.inl
          ⟨rfl, _, hD, .inl rfl⟩))))
      · rw [Bool.eq_false_iff]
        intro hWord
        exact hOpens (.inr (.inr (.inr (.inl
          ⟨rfl, d, hD, .inr hWord⟩))))
    have hNot (r : List Char) : rest ≠ '@' :: r := by
      rintro rfl
      exact (hHead '@' rfl).1 rfl
    have hName : rest.takeWhile Text.isWordChar = [] :=
      @takeWhile_append_stop Text.isWordChar [] rest
        (by simp) fun d hD => (hHead d hD).2
    have hTurn := turn_at lex w hName hNot hCs hPlace
    exact follows_passed hStands hPlace rfl
      (List.cons_ne_nil _ _) hTurn (.inl rfl)
  · have hPasses := @Loop.run_passes State (main cs lex w)
      (size cs) (fun k => { s with index := size (done ++ middle) + k })
      (size [c]) (fun k hK => ⟨?_, rfl,
        turn_byte hCs hOpens hAt hDollar hK rfl,
        Nat.lt_succ_self _⟩)
    · refine ⟨{ s with
          index := size (done ++ middle) + size [c] },
        done, middle ++ [c], ?_,
        ⟨by simp [hCs], hStands.last, .inl ?_⟩,
        @finished_passed w s middle (.other c) rfl _⟩
      · rw [← hPasses]
        simp only [Nat.add_zero, ← hPlace]
      · simp only [Utf8.size_append]
        omega
    · change size (done ++ middle) + k < size cs
      omega

variable (lex w) in
/-
  Whatever the first token of a text is, the loop gets behind
  it.  The cases are those in which a longer token begins.
-/
theorem turn_follows
    (hStands : Stands cs s done middle (c :: rest)) :
    Follows lex w cs s middle (next lex c rest).1
      (next lex c rest).2 := by
  have hPlace : s.index = size (done ++ middle) := by
    rcases hStands.index with hPlace | ⟨hNil, -⟩
    · exact hPlace
    · cases hNil
  have hCs : cs = (done ++ middle) ++ c :: rest := by
    rw [hStands.text, List.append_assoc]
  have hPass {j : Nat}
      (hTarget : w.target? (next lex c rest).1 = none)
      (hTurn : turn cs lex w s =
        .ok (.again { s with index := j }))
      (hReach : Reaches (done ++ middle ++
        (next lex c rest).1.chars) (next lex c rest).2 j) :
      Follows lex w cs s middle (next lex c rest).1
        (next lex c rest).2 :=
    follows_passed (by rwa [next_append]) hPlace hTarget
      (chars_next_ne_nil lex c rest) hTurn hReach
  by_cases hDollar : c = '$' ∧ lex.dollarQuotes = true
  · obtain ⟨rfl, hDollar⟩ := hDollar
    refine hPass ?_ (turn_dollar hDollar hCs hPlace) (.inl rfl)
    cases hTag : dollarTag? rest <;> simp [next, hDollar, hTag] <;> rfl
  by_cases hOpens : OpensToken lex c rest
  · rcases hOpens with hQuote | ⟨rfl, r, rfl⟩ | ⟨rfl, r, rfl⟩ |
      ⟨rfl, d, hHead, hWord⟩ | ⟨rfl, hBody, -⟩
    · obtain ⟨j, hTurn, hReach⟩ :=
        turn_quoted hQuote hCs hPlace
      exact hPass (by rw [next_region hQuote]; rfl) hTurn hReach
    · exact hPass rfl (turn_line hCs hPlace) (.inl rfl)
    · exact hPass rfl (turn_block hCs hPlace) (.inl rfl)
    · obtain ⟨r, rfl⟩ : ∃ r, rest = d :: r := by
        cases rest with
        | nil => cases hHead
        | cons e r => exact ⟨r, by simpa using hHead⟩
      rcases hWord with rfl | hWord
      · exact hPass rfl (turn_system hCs hPlace) (.inl rfl)
      · have hBegins := begins_next lex '@' (d :: r)
        have hNext : next lex '@' (d :: r) =
            (.reference (d :: r.takeWhile Text.isWordChar),
              r.dropWhile Text.isWordChar) := by
          have hNotAt : d ≠ '@' := by
            rintro rfl
            exact absurd hWord (by decide)
          simp [next, hWord]
        have hText := next_append lex '@' (d :: r)
        rw [hNext] at hBegins hText ⊢
        cases hBegins with
        | reference hSome hName hRest =>
            refine follows_reference hSome hName hRest ?_ hPlace
            rwa [← hText] at hStands
    · exact absurd ⟨rfl, hBody⟩ hDollar
  · rw [next_other hOpens]
    exact follows_other hOpens hDollar hStands hPlace

variable (lex w) in
/-
  The loop runs to the end, token after token, and what is
  left behind the last reference is the tail.
-/
theorem run_finished
    (hStands : Stands cs s done middle rest) :
    ∃ s' tail, (main cs lex w).run (size cs) s = .ok s' ∧
      slice cs s'.last (size cs) = .ok tail ∧
      (⟨s'.out ++ tail, s'.order, s'.references⟩ : Substituted) =
        finished w s middle (tokens lex rest) := by
  fun_induction tokens lex rest generalizing s done middle with
  | case1 =>
      have hText := hStands.text
      have hEnd : size cs ≤ s.index := by
        rw [hText, List.append_nil]
        rcases hStands.index with hPlace | ⟨-, hPast⟩
        · exact Nat.le_of_eq hPlace.symm
        · exact Nat.le_of_lt hPast
      have hTail : slice cs s.last (size cs) = .ok middle := by
        rw [hStands.last]
        exact slice_eq hText (by rw [hText]; simp)
      refine ⟨s, middle, Loop.run_done hEnd, hTail, ?_⟩
      simp [finished, substituteTokens]
  | case2 c r ih =>
      obtain ⟨t, done', middle', hRun, hNext, hFinished⟩ :=
        turn_follows lex w hStands
      obtain ⟨s', tail, hEnd, hTail, hSame⟩ := ih hNext
      exact ⟨s', tail, hRun.trans hEnd, hTail,
        hSame.trans (hFinished _)⟩

end Tokens

end Step

/- A scan that begins makes of tokens what replacing them does. -/
theorem finished_initial
    (w : Substitution)
    (ts : List Token) :
    finished w {} [] ts = substituteTokens w [] ts := by
  simp [finished]

end Scan

/- The whole scan ends with what its tokens come to. -/
theorem scan_finished
    (lex : Lexis)
    (w : Substitution)
    (sql : String) :
    scan lex w sql =
      .ok (Scan.finished w {} [] (tokens lex sql.toList)) := by
  have hStart : Scan.Stands sql.toList {} [] [] sql.toList :=
    ⟨rfl, rfl, .inl rfl⟩
  obtain ⟨s, tail, hRun, hTail, hSame⟩ :=
    Scan.run_finished lex w hStart
  unfold scan
  simp only [hRun, hTail, bind, Except.bind, pure, Except.pure,
    hSame]

/-
  The scan replaces the known references among the tokens of
  the text, as the grammar reads it, and nothing else.
-/
theorem scan_replaces_known
    (lex : Lexis)
    (w : Substitution)
    {sql : String}
    {ts : List Token}
    (hReads : Reads lex sql.toList ts) :
    scan lex w sql =
      .ok
        { sql := w.replaced ts
          order := w.arguments (ts.filterMap w.target?)
          references := (ts.filterMap w.target?).length } := by
  have hTokens := (reads_iff lex sql.toList ts).mp hReads
  have hReplaced := substitute_eq lex w sql
  rw [scan_finished, Scan.finished_initial]
  rw [hTokens] at hReplaced ⊢
  rw [← hReplaced, substitute, hTokens]

/-
  No text makes the scan look at a byte that is not there, cut
  where it must not, or turn without getting on, for no lexis
  and no way to know parameters; and it makes of the text what
  its tokens say.
-/
theorem scan_is_safe
    (lex : Lexis)
    (w : Substitution)
    (sql : String) :
    scan lex w sql = .ok (substitute lex w sql) := by
  rw [scan_finished, Scan.finished_initial, substitute]

end Sql

end Failover
