import Failover.Proofs.Sql.Grammar
import Failover.Proofs.Text.Utf8
import Failover.Sql.Placeholder

/-
  The replacement of references done on the bytes of a text,
  by an index that jumps ahead.  Each look at a byte, each cut
  and each turn of a loop is checked: a byte has to be there,
  a cut has to go forward and between characters, and a turn
  has to take the index on.  The loop over a region leaves the
  index where the token of the region ends.

  Key definitions include:
    * `Sql.Fault`
    * `Sql.Loop`, `Sql.Loop.run`
    * `Sql.Scan.turn`
    * `Sql.scan`

  Main statements:
    * `Sql.slice_eq_ok_iff`
    * `Sql.Scan.passing_eq`
    * `Sql.Scan.block_eq`
    * `Sql.Scan.quoted_reaches`
-/

namespace Failover

namespace Sql

open Utf8 (size form code isOf)

------------------------------------------------------------
-- Checks
------------------------------------------------------------

/- What must not happen to a scan. -/
inductive Fault where
  | outside (index : Nat)
  | cut (start stop : Nat)
  | stalled (index : Nat)
deriving DecidableEq, Repr

/- How a turn of a loop ends. -/
inductive Turn (σ : Type) where
  | again (s : σ)
  | leave (s : σ)

/-
  A loop over an index.  It looks whether to go on before each
  turn, and may leave after one.
-/
structure Loop (σ : Type) where
  index : σ → Nat
  goesOn : σ → Except Fault Bool
  turn : σ → Except Fault (Turn σ)

/-
  The loop runs while the index is below `stop`.  A turn that
  does not take the index on is a fault, so the loop ends.
-/
def Loop.run
    {σ : Type}
    (l : Loop σ)
    (stop : Nat)
    (s : σ) : Except Fault σ :=
  if l.index s < stop then
    match l.goesOn s with
    | .error fault => .error fault
    | .ok false => .ok s
    | .ok true =>
        match l.turn s with
        | .error fault => .error fault
        | .ok (.again next) =>
            if l.index s < l.index next then l.run stop next
            else .error (.stalled (l.index s))
        | .ok (.leave next) =>
            if l.index s < l.index next then .ok next
            else .error (.stalled (l.index s))
  else .ok s
termination_by stop - l.index s

/- The byte at an index, if there is one. -/
def byte?
    (cs : List Char)
    (i : Nat) : Option UInt8 :=
  (form cs)[i]?

/- The byte at an index, which has to be there. -/
def byteAt
    (cs : List Char)
    (i : Nat) : Except Fault UInt8 :=
  match byte? cs i with
  | some b => .ok b
  | none => .error (.outside i)

/- What stands between two places that a text can be cut at. -/
def slice
    (cs : List Char)
    (start stop : Nat) : Except Fault (List Char) :=
  if start ≤ stop then
    match Utf8.splitAt? start cs with
    | some (_, r) =>
        match Utf8.splitAt? (stop - start) r with
        | some (a, _) => .ok a
        | none => .error (.cut start stop)
    | none => .error (.cut start stop)
  else .error (.cut start stop)

------------------------------------------------------------
-- The scan
------------------------------------------------------------

namespace Scan

/- Where a scan stands and what it has made so far. -/
structure State where
  index : Nat := 0
  last : Nat := 0
  out : List Char := []
  order : List Nat := []
  references : Nat := 0

section Loops

variable (cs : List Char)

/- The characters of a class are passed over. -/
def passing (p : Char → Bool) : Loop Nat where
  index := id
  goesOn i := (byteAt cs i).map (isOf p)
  turn i := .ok (.again (i + 1))

/- A region is left behind its closing quote. -/
def quoted
    (escapes : Bool)
    (q : UInt8) : Loop Nat where
  index := id
  goesOn _ := .ok true
  turn i := do
    let b ← byteAt cs i
    if escapes ∧ b = code '\\' then
      return .again (i + 2)
    if b = q then
      if i + 1 < size cs then
        let d ← byteAt cs (i + 1)
        if d = q then return .again (i + 2)
      return .leave (i + 1)
    return .again (i + 1)

/- A comment goes on up to its closing mark. -/
def block : Loop Nat where
  index := id
  goesOn i := do
    let b ← byteAt cs i
    return !(b == code '*' && byte? cs (i + 1) == some (code '/'))
  turn i := .ok (.again (i + 1))

/- The place of the first occurrence of a text. -/
def find?
    (part : List Char) : List Char → Option Nat
  | [] => if part.isEmpty then some 0 else none
  | c :: r =>
      if part.isPrefixOf (c :: r) then some 0
      else (find? part r).map (size [c] + ·)

/-
  The place behind a body in dollar quotes, or behind the sign
  alone if no tag is there.
-/
def skipBody (start : Nat) : Except Fault Nat := do
  let j ← (passing cs isTagChar).run (size cs) (start + 1)
  if size cs ≤ j then return start + 1
  let b ← byteAt cs j
  if b ≠ code '$' then return start + 1
  let tag ← slice cs start (j + 1)
  let rest ← slice cs (j + 1) (size cs)
  match find? tag rest with
  | some place => return j + 1 + place + size tag
  | none => return size cs

/- A reference that is known is replaced. -/
def refer
    (w : Substitution)
    (s : State)
    (stop : Nat) : Except Fault State := do
  let name ← slice cs (s.index + 1) stop
  match w.index? (String.ofList name) with
  | none => return s
  | some index =>
      let before ← slice cs s.last s.index
      let (position, order) := w.position s.order index
      return { s with
        last := stop
        out := s.out ++ before ++
          (w.placeholder position index).toList
        order
        references := s.references + 1 }

/- What the byte at the index begins is passed over. -/
def turn
    (lex : Lexis)
    (w : Substitution)
    (s : State) : Except Fault (Turn State) := do
  let i := s.index
  let b ← byteAt cs i
  if b = code '\'' ∨ b = code '"' ∨ b = code '`' then
    let escapes := lex.backslashEscapes && b != code '`'
    let j ← (quoted cs escapes b).run (size cs) (i + 1)
    return .again { s with index := j }
  else if b = code '-' ∧ byte? cs (i + 1) = some (code '-') then
    let j ← (passing cs (· != '\n')).run (size cs) i
    return .again { s with index := j }
  else if b = code '/' ∧ byte? cs (i + 1) = some (code '*') then
    let j ← (block cs).run (size cs) (i + 2)
    return .again { s with index := min (j + 2) (size cs) }
  else if b = code '$' ∧ lex.dollarQuotes then
    let j ← skipBody cs i
    return .again { s with index := j }
  else if b = code '@' ∧ byte? cs (i + 1) = some (code '@') then
    let j ← (passing cs Text.isWordChar).run (size cs) (i + 2)
    return .again { s with index := j }
  else if b = code '@' then
    let stop ← (passing cs Text.isWordChar).run (size cs) (i + 1)
    let s ← if i + 1 < stop then refer cs w s stop else pure s
    return .again { s with index := max stop (i + 1) }
  else return .again { s with index := i + 1 }

def main
    (lex : Lexis)
    (w : Substitution) : Loop State where
  index := State.index
  goesOn _ := .ok true
  turn := turn cs lex w

end Loops

end Scan

/- A text with its references replaced, by its bytes. -/
def scan
    (lex : Lexis)
    (w : Substitution)
    (sql : String) : Except Fault Substituted := do
  let cs := sql.toList
  let s ← (Scan.main cs lex w).run (size cs) {}
  let tail ← slice cs s.last (size cs)
  return ⟨s.out ++ tail, s.order, s.references⟩

------------------------------------------------------------
-- Loops
------------------------------------------------------------

namespace Loop

variable {σ : Type} {l : Loop σ} {stop : Nat} {s t : σ}

/- A turn that is made and leads on. -/
structure Goes
    (l : Loop σ)
    (stop : Nat)
    (s t : σ) : Prop where
  below : l.index s < stop
  goesOn : l.goesOn s = .ok true
  turn : l.turn s = .ok (.again t)
  less : l.index s < l.index t

theorem run_done
    (h : stop ≤ l.index s) : l.run stop s = .ok s := by
  rw [run, if_neg (by omega)]

theorem run_halts
    (hBelow : l.index s < stop)
    (hOff : l.goesOn s = .ok false) : l.run stop s = .ok s := by
  rw [run, if_pos hBelow, hOff]

theorem run_leaves
    (hBelow : l.index s < stop)
    (hOn : l.goesOn s = .ok true)
    (hTurn : l.turn s = .ok (.leave t))
    (hLess : l.index s < l.index t) : l.run stop s = .ok t := by
  rw [run, if_pos hBelow, hOn, hTurn]
  exact if_pos hLess

theorem Goes.run_eq
    (h : l.Goes stop s t) : l.run stop s = l.run stop t := by
  rw [run, if_pos h.below, h.goesOn, h.turn]
  exact if_pos h.less

/- Turns one after the other. -/
theorem run_passes
    (f : Nat → σ)
    (n : Nat)
    (h : ∀ k < n, l.Goes stop (f k) (f (k + 1))) :
    l.run stop (f 0) = l.run stop (f n) := by
  induction n with
  | zero => rfl
  | succ n ih =>
      rw [ih fun k hK => h k (by omega)]
      exact (h n (by omega)).run_eq

end Loop

------------------------------------------------------------
-- Bytes and cuts
------------------------------------------------------------

section Places

variable {cs before rest : List Char} {c x : Char}

theorem size_lt
    (hCs : cs = before ++ c :: rest) :
    size before + size [c] ≤ size cs := by
  rw [hCs, Utf8.size_append, Utf8.size_cons c rest]
  omega

/- The bytes of a character are there. -/
theorem byteAt_eq
    (hCs : cs = before ++ c :: rest)
    {k : Nat}
    (hK : k < size [c]) :
    ∃ b ∈ Utf8.encodeChar c,
      byteAt cs (size before + k) = .ok b := by
  obtain ⟨b, hB, hByte⟩ := Utf8.form_getElem? before c rest hK
  refine ⟨b, hB, ?_⟩
  rw [byteAt, byte?, hCs, hByte]

theorem byteAt_ascii
    (hCs : cs = before ++ c :: rest)
    (hC : c.toNat < 0x80) :
    byteAt cs (size before) = .ok (code c) := by
  obtain ⟨b, hB, hByte⟩ := byteAt_eq hCs (Utf8.size_char_pos c)
  rw [(Utf8.eq_code_iff hC hB).mpr rfl, Nat.add_zero] at hByte
  exact hByte

/- The byte behind some characters is that of the next one. -/
theorem byte?_eq_code_iff
    (hCs : cs = before ++ rest)
    (hX : x.toNat < 0x80) :
    byte? cs (size before) = some (code x) ↔
      ∃ r, rest = x :: r := by
  cases rest with
  | nil =>
      have hNone : byte? cs (size before) = none := by
        rw [byte?, List.getElem?_eq_none_iff, hCs,
          List.append_nil]
        exact Nat.le_refl _
      simp [hNone]
  | cons c r =>
      obtain ⟨b, hB, hByte⟩ :=
        Utf8.form_getElem? before c r (Utf8.size_char_pos c)
      rw [Nat.add_zero] at hByte
      rw [byte?, hCs, hByte, Option.some.injEq,
        Utf8.eq_code_iff hX hB]
      simp

/-
  A cut succeeds at the ends of some characters of the text and
  nowhere else, and gives these characters.
-/
theorem slice_eq_ok_iff
    {start stop : Nat}
    {middle : List Char} :
    slice cs start stop = .ok middle ↔
      ∃ before rest, cs = before ++ (middle ++ rest) ∧
        start = size before ∧
        stop = size before + size middle := by
  constructor
  · intro h
    unfold slice at h
    split at h
    · next hOrder =>
      split at h
      · next a r hFirst =>
        obtain ⟨rfl, rfl⟩ := Utf8.splitAt?_eq_some_iff.mp hFirst
        split at h
        · next b rest hSecond =>
          cases h
          obtain ⟨rfl, hStop⟩ :=
            Utf8.splitAt?_eq_some_iff.mp hSecond
          exact ⟨a, rest, rfl, rfl, by omega⟩
        · cases h
      · cases h
    · cases h
  · rintro ⟨before, rest, rfl, rfl, rfl⟩
    rw [slice, if_pos (Nat.le_add_right _ _), Utf8.splitAt?_append]
    simp only [Nat.add_sub_cancel_left, Utf8.splitAt?_append]

/- Cuts around some characters give these characters. -/
theorem slice_eq
    {middle : List Char}
    (hCs : cs = before ++ (middle ++ rest))
    {stop : Nat}
    (hStop : stop = size before + size middle) :
    slice cs (size before) stop = .ok middle :=
  slice_eq_ok_iff.mpr ⟨before, rest, hCs, rfl, hStop⟩

end Places

theorem IsQuote.ascii
    {q : Char}
    (h : IsQuote q) : q.toNat < 0x80 := by
  rcases h with rfl | rfl | rfl <;> decide

/- A quote is no backslash, whatever backslashes do. -/
theorem IsQuote.not_escape
    {q : Char}
    (h : IsQuote q)
    (escapes : Bool) :
    ¬ (escapes = true ∧ code q = code '\\') := by
  rw [Utf8.eq_code_iff (by decide) (Utf8.code_mem h.ascii)]
  exact fun hBoth => h.ne_backslash hBoth.2

/-
  An index behind some characters; behind all of them, it may
  be past the end.
-/
def Reaches
    (before rest : List Char)
    (i : Nat) : Prop :=
  i = size before ∨ rest = [] ∧ size before < i

namespace Scan

section Regions

variable {cs before rest : List Char}

/- A loop passes over a character whose bytes all lead on. -/
theorem run_char
    {l : Loop Nat}
    {c : Char}
    (hIndex : l.index = id)
    (hCs : cs = before ++ c :: rest)
    (hGoes : ∀ k < size [c],
      l.goesOn (size before + k) = .ok true ∧
      l.turn (size before + k) = .ok (.again (size before + k + 1))) :
    l.run (size cs) (size before) =
      l.run (size cs) (size (before ++ [c])) := by
  have hLast := size_lt hCs
  rw [Utf8.size_append]
  refine Loop.run_passes (fun k => size before + k) (size [c]) ?_
  intro k hK
  obtain ⟨hOn, hTurn⟩ := hGoes k hK
  refine ⟨?_, hOn, hTurn, ?_⟩
  · rw [hIndex]
    change size before + k < size cs
    omega
  · rw [hIndex]
    exact Nat.lt_succ_self _

/- The characters of a class are passed over as such. -/
theorem passing_eq
    {p : Char → Bool}
    {above : Bool}
    (hAbove : ∀ d : Char, 0x80 ≤ d.toNat → p d = above)
    (hCs : cs = before ++ rest) :
    (passing cs p).run (size cs) (size before) =
      .ok (size (before ++ rest.takeWhile p)) := by
  induction rest generalizing before with
  | nil =>
      rw [List.append_nil] at hCs
      subst hCs
      rw [List.takeWhile_nil, List.append_nil]
      exact Loop.run_done (Nat.le_refl _)
  | cons c r ih =>
      have hByte (k : Nat) (hK : k < size [c]) :
          (passing cs p).goesOn (size before + k) = .ok (p c) := by
        obtain ⟨b, hB, hAt⟩ := byteAt_eq hCs hK
        simp only [passing, hAt, Except.map,
          Utf8.isOf_eq hAbove hB]
      by_cases hP : p c = true
      · rw [run_char rfl hCs fun k hK =>
            ⟨hP ▸ hByte k hK, rfl⟩,
          ih (by simp [hCs]), List.takeWhile_cons_of_pos hP]
        simp
      · have hPos := Utf8.size_char_pos c
        have hLast := size_lt hCs
        have hFirst := hByte 0 hPos
        rw [Bool.not_eq_true] at hP
        rw [List.takeWhile_cons_of_neg (by simp [hP]),
          List.append_nil]
        rw [hP] at hFirst
        refine Loop.run_halts ?_ hFirst
        change size before < size cs
        omega

/- A comment stops at its mark. -/
theorem block_stops
    (hCs : cs = before ++ '*' :: '/' :: rest) :
    (block cs).goesOn (size before) = .ok false := by
  have hSlash : byte? cs (size (before ++ ['*'])) =
      some (code '/') :=
    (byte?_eq_code_iff (by simp [hCs]) (by decide)).mpr
      ⟨rest, rfl⟩
  rw [Utf8.size_append, Utf8.size_ascii (by decide)] at hSlash
  simp only [block, byteAt_ascii hCs (by decide), bind,
    Except.bind, hSlash]
  rfl

/-
  No byte of a character begins a mark where the text has
  none.
-/
theorem block_goesOn
    {c : Char}
    (hCs : cs = before ++ c :: rest)
    (hMark : ¬ ['*', '/'].isPrefixOf (c :: rest) = true)
    {k : Nat}
    (hK : k < size [c]) :
    (block cs).goesOn (size before + k) = .ok true := by
  obtain ⟨b, hB, hAt⟩ := byteAt_eq hCs hK
  have hNot : ¬ (b = code '*' ∧
      byte? cs (size before + k + 1) = some (code '/')) := by
    rintro ⟨hStar, hSlash⟩
    obtain rfl := (Utf8.eq_code_iff (by decide) hB).mp hStar
    rw [Utf8.size_ascii (by decide)] at hK
    obtain rfl : k = 0 := by omega
    have hNext : byte? cs (size (before ++ ['*'])) =
        some (code '/') := by
      rw [Utf8.size_append, Utf8.size_ascii (by decide)]
      exact hSlash
    have hSplit : cs = (before ++ ['*']) ++ rest := by
      simp [hCs]
    obtain ⟨r, rfl⟩ :=
      (byte?_eq_code_iff hSplit (by decide)).mp hNext
    exact hMark rfl
  simp only [block, hAt, bind, Except.bind, pure,
    Except.pure, Except.ok.injEq, Bool.not_eq_true',
    Bool.eq_false_iff, ne_eq, Bool.and_eq_true, beq_iff_eq]
  exact hNot

/-
  A comment is left at its mark or at the end of the text, and
  two bytes on it is behind the comment.
-/
theorem block_eq (hCs : cs = before ++ rest) :
    ∃ j, (block cs).run (size cs) (size before) = .ok j ∧
      min (j + 2) (size cs) =
        size (before ++ (untilMark ['*', '/'] rest).1) := by
  induction rest generalizing before with
  | nil =>
      rw [List.append_nil] at hCs
      subst hCs
      refine ⟨_, Loop.run_done (Nat.le_refl _), ?_⟩
      rw [untilMark, List.append_nil]
      omega
  | cons c r ih =>
      have hPos := Utf8.size_char_pos c
      have hLast := size_lt hCs
      by_cases hMark : ['*', '/'].isPrefixOf (c :: r) = true
      · obtain ⟨r', hR⟩ := List.isPrefixOf_iff_prefix.mp hMark
        obtain ⟨rfl, rfl⟩ := List.cons.inj hR
        refine ⟨_, Loop.run_halts ?_ (block_stops hCs), ?_⟩
        · change size before < size cs
          omega
        · have hMarkSize : size ['*', '/'] = 2 := rfl
          have hAll : size cs = size before + (2 + size r') := by
            rw [hCs, ← hMarkSize, Utf8.size_append before,
              ← Utf8.size_append ['*', '/']]
            rfl
          rw [untilMark, if_pos hMark, Utf8.size_append, hMarkSize]
          omega
      · obtain ⟨j, hRun, hPlace⟩ := @ih (before ++ [c])
          (by simp [hCs])
        refine ⟨j, ?_, ?_⟩
        · rw [run_char rfl hCs fun k hK =>
            ⟨block_goesOn hCs hMark hK, rfl⟩, hRun]
        · rw [hPlace, untilMark, if_neg hMark]
          simp

section Quoted

variable {escapes : Bool} {q c : Char} {i : Nat} {b : UInt8}

/- A backslash takes the next byte with it. -/
theorem quoted_escape
    (hEscape : escapes = true)
    (hCs : cs = before ++ '\\' :: rest) :
    (quoted cs escapes (code q)).run (size cs) (size before) =
      (quoted cs escapes (code q)).run (size cs)
        (size before + 2) := by
  have hAt := byteAt_ascii hCs (by decide)
  have hLast := size_lt hCs
  rw [Utf8.size_ascii (by decide)] at hLast
  refine Loop.Goes.run_eq ⟨?_, rfl, ?_, ?_⟩
  · change size before < size cs
    omega
  · simp only [quoted, hAt, bind, Except.bind, hEscape, and_self,
      if_true]
    rfl
  · exact Nat.lt_add_of_pos_right (by decide)

/- Other bytes than quotes and escaping backslashes lead on. -/
theorem quoted_turn_plain
    (hAt : byteAt cs i = .ok b)
    (hEscape : ¬ (escapes = true ∧ b = code '\\'))
    (hQuote : b ≠ code q) :
    (quoted cs escapes (code q)).turn i =
      .ok (.again (i + 1)) := by
  simp only [quoted, hAt, bind, Except.bind, if_neg hEscape,
    if_neg hQuote]
  rfl

theorem quoted_plain
    (hQ : q.toNat < 0x80)
    (hCs : cs = before ++ c :: rest)
    (hEscape : ¬ (escapes = true ∧ c = '\\'))
    (hQuote : c ≠ q) :
    (quoted cs escapes (code q)).run (size cs) (size before) =
      (quoted cs escapes (code q)).run (size cs)
        (size (before ++ [c])) := by
  refine run_char rfl hCs fun k hK => ⟨rfl, ?_⟩
  obtain ⟨b, hB, hAt⟩ := byteAt_eq hCs hK
  refine quoted_turn_plain hAt ?_ ?_
  · rwa [Utf8.eq_code_iff (by decide) hB]
  · rwa [ne_eq, Utf8.eq_code_iff hQ hB]

/-
  Behind its first byte a character holds no quote and no
  backslash, whatever it is.
-/
theorem quoted_rest
    (escapes : Bool)
    (hQ : q.toNat < 0x80)
    (hCs : cs = before ++ c :: rest) :
    (quoted cs escapes (code q)).run (size cs)
        (size before + 1) =
      (quoted cs escapes (code q)).run (size cs)
        (size (before ++ [c])) := by
  have hPos := Utf8.size_char_pos c
  have hLast := size_lt hCs
  have hSize : size (before ++ [c]) =
      size before + 1 + (size [c] - 1) := by
    rw [Utf8.size_append]
    omega
  rw [hSize]
  refine Loop.run_passes (fun k => size before + 1 + k) _ ?_
  intro k hK
  have hPlace : size before + 1 + k = size before + (1 + k) := by
    omega
  obtain ⟨b, hB, hAt⟩ := byteAt_eq hCs (k := 1 + k) (by omega)
  have hNot {x : Char} (hX : x.toNat < 0x80) : b ≠ code x := by
    intro hSame
    obtain rfl := (Utf8.eq_code_iff hX hB).mp hSame
    rw [Utf8.size_ascii hX] at hK
    omega
  rw [← hPlace] at hAt
  refine ⟨?_, rfl, ?_, ?_⟩
  · change size before + 1 + k < size cs
    omega
  · exact quoted_turn_plain hAt (fun h => hNot (by decide) h.2)
      (hNot hQ)
  · exact Nat.lt_succ_self _

/- Two quotes in a row do not end a quoted region. -/
theorem quoted_doubled
    (hQuote : IsQuote q)
    (hCs : cs = before ++ q :: q :: rest) :
    (quoted cs escapes (code q)).run (size cs) (size before) =
      (quoted cs escapes (code q)).run (size cs)
        (size (before ++ [q, q])) := by
  have hQ := hQuote.ascii
  have hAt := byteAt_ascii hCs hQ
  have hSplit : cs = (before ++ [q]) ++ q :: rest := by
    simp [hCs]
  have hSecond := byteAt_ascii hSplit hQ
  have hLast := size_lt hSplit
  rw [Utf8.size_append, Utf8.size_ascii hQ] at hSecond hLast
  have hEnd : size (before ++ [q, q]) = size before + 2 := by
    rw [Utf8.size_append, Utf8.size_cons_ascii hQ,
      Utf8.size_ascii hQ]
  rw [hEnd]
  refine Loop.Goes.run_eq ⟨?_, rfl, ?_, ?_⟩
  · change size before < size cs
    omega
  · simp only [quoted, hAt, bind, Except.bind, hSecond,
      if_neg (hQuote.not_escape escapes), if_true]
    rw [if_pos (by omega)]
    rfl
  · exact Nat.lt_add_of_pos_right (by decide)

theorem quoted_closed
    (hQuote : IsQuote q)
    (hCs : cs = before ++ q :: rest)
    (hRest : ∀ r, rest ≠ q :: r) :
    (quoted cs escapes (code q)).run (size cs) (size before) =
      .ok (size (before ++ [q])) := by
  have hQ := hQuote.ascii
  have hAt := byteAt_ascii hCs hQ
  have hLast := size_lt hCs
  rw [Utf8.size_ascii hQ] at hLast
  rw [Utf8.size_append, Utf8.size_ascii hQ]
  refine Loop.run_leaves ?_ rfl ?_ (Nat.lt_succ_self _)
  · change size before < size cs
    omega
  · simp only [quoted, hAt, bind, Except.bind,
      if_neg (hQuote.not_escape escapes), if_true]
    cases rest with
    | nil =>
        have hEnd : ¬ size before + 1 < size cs := by
          rw [hCs, Utf8.size_append, Utf8.size_ascii hQ]
          omega
        rw [if_neg hEnd]
        rfl
    | cons d r =>
        have hSplit : cs = (before ++ [q]) ++ d :: r := by
          simp [hCs]
        obtain ⟨b, hB, hNext⟩ :=
          byteAt_eq hSplit (Utf8.size_char_pos d)
        have hMore := size_lt hSplit
        have hPos := Utf8.size_char_pos d
        rw [Utf8.size_append, Utf8.size_ascii hQ] at hNext hMore
        have hNe : b ≠ code q := by
          rw [ne_eq, Utf8.eq_code_iff hQ hB]
          rintro rfl
          exact hRest r rfl
        rw [if_pos (by omega)]
        simp only [Nat.add_zero] at hNext
        simp only [hNext, if_neg hNe]
        rfl

/-
  A region is left behind its closing quote or at the end of
  the text, and past the end if a backslash is the last
  character.  The cases are those of reading the region.
-/
theorem quoted_reaches
    (hQuote : IsQuote q)
    (escapes : Bool)
    (hCs : cs = before ++ rest) :
    ∃ j, (quoted cs escapes (code q)).run (size cs)
        (size before) = .ok j ∧
      Reaches (before ++ (untilQuote escapes q rest).1)
        (untilQuote escapes q rest).2 j := by
  fun_induction untilQuote escapes q rest generalizing before with
  | case1 =>
      rw [List.append_nil] at hCs ⊢
      subst hCs
      exact ⟨_, Loop.run_done (Nat.le_refl _), .inl rfl⟩
  | case2 c hEscape =>
      simp only [Bool.and_eq_true, beq_iff_eq] at hEscape
      obtain ⟨hEscape, rfl⟩ := hEscape
      have hSize : size (before ++ ['\\']) = size before + 1 := by
        rw [Utf8.size_append, Utf8.size_ascii (by decide)]
      refine ⟨_, (quoted_escape hEscape hCs).trans
        (Loop.run_done ?_), .inr ⟨rfl, ?_⟩⟩
      · change size cs ≤ size before + 2
        rw [hCs, hSize]
        omega
      · change size (before ++ ['\\']) < size before + 2
        omega
  | case3 c hEscape d r a b hRest ih =>
      simp only [Bool.and_eq_true, beq_iff_eq] at hEscape
      obtain ⟨hEscape, rfl⟩ := hEscape
      have hSplit : cs = (before ++ ['\\']) ++ d :: r := by
        simp [hCs]
      have hPass := quoted_rest escapes hQuote.ascii hSplit
      rw [Utf8.size_append, Utf8.size_ascii (by decide)] at hPass
      obtain ⟨j, hRun, hReach⟩ :=
        @ih (before ++ ['\\'] ++ [d]) (by simp [hCs])
      rw [hRest] at hReach
      exact ⟨j, (quoted_escape hEscape hCs).trans
        (hPass.trans hRun), by simpa using hReach⟩
  | case4 hEscape =>
      exact ⟨_, quoted_closed hQuote hCs (by simp), .inl rfl⟩
  | case5 r a b hRest hEscape ih =>
      obtain ⟨j, hRun, hReach⟩ :=
        @ih (before ++ [q, q]) (by simp [hCs])
      rw [hRest] at hReach
      exact ⟨j, (quoted_doubled hQuote hCs).trans hRun,
        by simpa using hReach⟩
  | case6 d r hNe hEscape =>
      refine ⟨_, quoted_closed hQuote hCs ?_, .inl rfl⟩
      intro r' hSame
      exact hNe (List.cons.inj hSame).1
  | case7 c r hEscape hNe a b hRest ih =>
      have hPlain : ¬ (escapes = true ∧ c = '\\') := by
        simpa using hEscape
      obtain ⟨j, hRun, hReach⟩ :=
        @ih (before ++ [c]) (by simp [hCs])
      rw [hRest] at hReach
      exact ⟨j, (quoted_plain hQuote.ascii hCs hPlain hNe).trans
        hRun, by simpa using hReach⟩

end Quoted

end Regions

end Scan

end Sql

end Failover
