import Failover.Number.Numeral
import Failover.Proofs.Number.Digits
import Mathlib.Algebra.Field.Rat
import Mathlib.Algebra.Order.Field.Power
import Mathlib.Algebra.Order.Ring.Rat
import Mathlib.Data.List.TakeWhile
import Mathlib.Tactic.Positivity
import Mathlib.Tactic.SplitIfs

/-
  Decimal literals: an optional sign, digits with an optional
  fraction and an optional exponent.  They are exactly the
  numerals that are read, and each of them denotes a rational
  number.

  Key definitions include:
    * `Sign`
    * `Literal`, `Literal.chars`
    * `Numeral.value`, `Literal.value`
    * `Spells`, `SpellsInfinity`

  Main statements:
    * `Numeral.read?_eq_some_iff`
    * `Decimal.integer?_eq_some_iff`
    * `Decimal.render_signed`
    * `Floating.ofChars?_literal`
    * `Floating.ofChars?_cases`
-/

namespace Failover

------------------------------------------------------------
-- Signs
------------------------------------------------------------

/- What may stand in front of a numeral. -/
inductive Sign where
  | absent
  | plus
  | minus
deriving DecidableEq, Repr

namespace Sign

def chars : Sign → List Char
  | .absent => []
  | .plus => ['+']
  | .minus => ['-']

def isNegative : Sign → Bool
  | .minus => true
  | _ => false

/- A text that does not begin with a sign. -/
def IsBare (cs : List Char) : Prop :=
  ∀ c ∈ cs.head?, c ≠ '+' ∧ c ≠ '-'

/- A sign is taken from the text behind it. -/
theorem takeSign_chars
    (sign : Sign)
    {cs : List Char}
    (hBare : IsBare cs) :
    Decimal.takeSign (sign.chars ++ cs) = (sign.isNegative, cs) := by
  cases sign with
  | plus => rfl
  | minus => rfl
  | absent =>
      cases cs with
      | nil => rfl
      | cons c r =>
          have hC := hBare c rfl
          unfold chars Decimal.takeSign
          split
          · next hPlus => exact absurd (List.cons.inj hPlus).1 hC.1
          · next hMinus => exact absurd (List.cons.inj hMinus).1 hC.2
          · rfl

/- A text is the sign that is taken from it and the rest. -/
theorem exists_of_takeSign (cs : List Char) :
    ∃ sign : Sign,
      cs = sign.chars ++ (Decimal.takeSign cs).2 ∧
      (Decimal.takeSign cs).1 = sign.isNegative := by
  unfold Decimal.takeSign
  split
  · exact ⟨.plus, rfl, rfl⟩
  · exact ⟨.minus, rfl, rfl⟩
  · exact ⟨.absent, rfl, rfl⟩

end Sign

------------------------------------------------------------
-- Whole numbers
------------------------------------------------------------

namespace Decimal

/- Digits, at least one of them. -/
structure Digits where
  chars : List Char
  nonempty : chars ≠ []
  areDigits : ∀ c ∈ chars, Text.isDigit c = true

/- Digits are read as the number that they make up. -/
theorem natural?_digits (ds : Digits) :
    natural? ds.chars = some (ofDigits ds.chars) := by
  have hSome : ds.chars.isEmpty = false := by
    simpa using ds.nonempty
  have hAll : ds.chars.all Text.isDigit = true :=
    List.all_eq_true.mpr ds.areDigits
  unfold natural?
  rw [hSome, hAll]
  rfl

/- A text that is read as a natural number consists of digits. -/
theorem exists_of_natural?
    {cs : List Char}
    {n : Nat}
    (h : natural? cs = some n) :
    ∃ ds : Digits, ds.chars = cs ∧ ofDigits cs = n := by
  unfold natural? at h
  split at h
  · cases h
  · next hDigits =>
    simp only [Bool.or_eq_true, not_or, Bool.not_eq_true,
      List.isEmpty_eq_false_iff, Bool.not_eq_false'] at hDigits
    refine ⟨⟨cs, hDigits.1, ?_⟩, rfl, Option.some.inj h⟩
    exact List.all_eq_true.mp hDigits.2

/- A digit is no sign. -/
theorem isBare_of_isDigit
    {c : Char}
    {r : List Char}
    (hC : Text.isDigit c = true) : Sign.IsBare (c :: r) := by
  intro d hD
  cases hD
  constructor
  · rintro rfl
    exact absurd hC (by decide)
  · rintro rfl
    exact absurd hC (by decide)

/- Digits begin with no sign. -/
theorem Digits.isBare (ds : Digits) : Sign.IsBare ds.chars := by
  rcases List.exists_cons_of_ne_nil ds.nonempty with ⟨c, r, hChars⟩
  rw [hChars]
  apply isBare_of_isDigit
  exact ds.areDigits c (by rw [hChars]; exact List.mem_cons_self)

/- The number of digits behind a sign. -/
def signed (sign : Sign) (ds : Digits) : Int :=
  if sign.isNegative then -(ofDigits ds.chars : Int)
  else ofDigits ds.chars

/- A whole number is a sign and digits. -/
theorem integer?_eq_some_iff
    {cs : List Char}
    {n : Int} :
    integer? cs = some n ↔
      ∃ (sign : Sign) (ds : Digits),
        cs = sign.chars ++ ds.chars ∧ n = signed sign ds := by
  unfold integer?
  constructor
  · intro h
    rcases Sign.exists_of_takeSign cs with ⟨sign, hChars, hSign⟩
    rcases Option.map_eq_some_iff.mp h with ⟨k, hLifted, hN⟩
    rcases Option.bind_eq_some_iff.mp hLifted with
      ⟨m, hNatural, hK⟩
    rcases exists_of_natural? hNatural with ⟨ds, hDs, hM⟩
    cases hK
    refine ⟨sign, ds, ?_, ?_⟩
    · rw [hDs]
      exact hChars
    · rw [signed, hDs, hM, ← hSign]
      exact hN.symm
  · rintro ⟨sign, ds, rfl, rfl⟩
    rw [Sign.takeSign_chars sign ds.isBare]
    simp only [natural?_digits ds]
    rfl

/- A written whole number is a sign and digits. -/
theorem render_signed (n : Int) :
    ∃ (sign : Sign) (ds : Digits),
      (render n).toList = sign.chars ++ ds.chars ∧
      signed sign ds = n := by
  have hDigits : (ofDigits (digits n.natAbs) : Int) =
      n.natAbs := by
    rw [ofDigits_digits]
  let ds : Digits :=
    ⟨digits n.natAbs, digits_ne_nil _,
      fun c => isDigit_of_mem_digits⟩
  rw [render_toList]
  by_cases hNegative : n < 0
  · refine ⟨.minus, ds, if_pos hNegative, ?_⟩
    change -(ofDigits (digits n.natAbs) : Int) = n
    omega
  · refine ⟨.absent, ds, if_neg hNegative, ?_⟩
    change (ofDigits (digits n.natAbs) : Int) = n
    omega

end Decimal

------------------------------------------------------------
-- Literals
------------------------------------------------------------

/- An exponent of ten, with the mark in front of it. -/
structure Exponent where
  mark : Char
  sign : Sign
  digits : Decimal.Digits
  isMark : mark = 'e' ∨ mark = 'E'

namespace Exponent

def chars (e : Exponent) : List Char :=
  e.mark :: (e.sign.chars ++ e.digits.chars)

def value (e : Exponent) : Int :=
  Decimal.signed e.sign e.digits

end Exponent

/-
  A decimal literal.  There is a digit in front of the point
  or behind it.
-/
structure Literal where
  sign : Sign
  whole : List Char
  fraction : Option (List Char)
  exponent : Option Exponent
  nonempty : whole ++ fraction.getD [] ≠ []
  areDigits :
    ∀ c ∈ whole ++ fraction.getD [], Text.isDigit c = true

namespace Literal

variable (l : Literal)

/- The digits behind the point. -/
def part : List Char :=
  l.fraction.getD []

/- All digits but those of the exponent. -/
def digits : List Char :=
  l.whole ++ l.part

/- The point and what is behind it, up to the exponent. -/
def pointed : List Char :=
  (l.fraction.map ('.' :: ·)).getD []

def scale : List Char :=
  (l.exponent.map Exponent.chars).getD []

/- The text without the sign. -/
def magnitude : List Char :=
  l.whole ++ (l.pointed ++ l.scale)

/- The text of a literal. -/
def chars : List Char :=
  l.sign.chars ++ l.magnitude

/- The exponent, less the digits behind the point. -/
def power : Int :=
  -(l.part.length : Int) + (l.exponent.map Exponent.value).getD 0

/- The numeral that a literal stands for. -/
def numeral : Numeral :=
  ⟨l.sign.isNegative, Decimal.ofDigits l.digits, l.power⟩

end Literal

/- The rational number that a numeral denotes, without its sign. -/
def Numeral.magnitude (n : Numeral) : ℚ :=
  n.coefficient * 10 ^ n.exponent

/- The rational number that a numeral denotes. -/
def Numeral.value (n : Numeral) : ℚ :=
  if n.negative then -n.magnitude else n.magnitude

/- The rational number that a literal denotes. -/
def Literal.value (l : Literal) : ℚ :=
  l.numeral.value

namespace Numeral

/- A magnitude is not negative. -/
theorem magnitude_nonneg (n : Numeral) : 0 ≤ n.magnitude := by
  unfold magnitude
  positivity

/- The magnitude of a numeral is its value without the sign. -/
theorem abs_value (n : Numeral) : |n.value| = n.magnitude := by
  have hNonneg := magnitude_nonneg n
  unfold value
  split_ifs
  · rw [abs_neg, abs_of_nonneg hNonneg]
  · exact abs_of_nonneg hNonneg

end Numeral

------------------------------------------------------------
-- Reading literals
------------------------------------------------------------

namespace Numeral

/- A text that does not begin with a digit. -/
def StopsDigits (cs : List Char) : Prop :=
  ∀ c ∈ cs.head?, Text.isDigit c = false

/- Digits are taken up to the first that is none. -/
theorem takeDigits
    {ds rest : List Char}
    (hDigits : ∀ c ∈ ds, Text.isDigit c = true)
    (hRest : StopsDigits rest) :
    (ds ++ rest).takeWhile Text.isDigit = ds ∧
    (ds ++ rest).dropWhile Text.isDigit = rest := by
  rw [List.takeWhile_append_of_pos hDigits,
    List.dropWhile_append_of_pos hDigits]
  cases rest with
  | nil => simp
  | cons c r =>
      have hC := hRest c rfl
      simp [hC]

/- An exponent begins with its mark. -/
theorem scale_eq_cons
    (l : Literal)
    {c : Char}
    {r : List Char}
    (h : l.scale = c :: r) : c = 'e' ∨ c = 'E' := by
  unfold Literal.scale at h
  cases hExponent : l.exponent with
  | none =>
      rw [hExponent] at h
      cases h
  | some e =>
      rw [hExponent] at h
      rw [← (List.cons.inj h).1]
      exact e.isMark

/- An exponent begins with a letter, if there is one. -/
theorem stopsDigits_scale (l : Literal) : StopsDigits l.scale := by
  intro c hC
  rcases List.head?_eq_some_iff.mp hC with ⟨r, hScale⟩
  rcases scale_eq_cons l hScale with rfl | rfl
  · rfl
  · rfl

/- The digits of a literal, with the point left out. -/
theorem readDigits?_literal (l : Literal) :
    readDigits? l.magnitude =
      some ((Decimal.ofDigits l.digits,
        -(l.part.length : Int)), l.scale) := by
  have hScale := stopsDigits_scale l
  have hWhole : ∀ c ∈ l.whole, Text.isDigit c = true :=
    fun c hC => l.areDigits c (List.mem_append_left _ hC)
  have hPart : ∀ c ∈ l.part, Text.isDigit c = true :=
    fun c hC => l.areDigits c (List.mem_append_right _ hC)
  have hNonempty := l.nonempty
  unfold readDigits? Literal.magnitude Literal.digits
  cases hFraction : l.fraction with
  | none =>
      have hPointed : l.pointed = [] := by
        rw [Literal.pointed, hFraction]
        rfl
      have hNoPart : l.part = [] := by
        rw [Literal.part, hFraction]
        rfl
      rw [hFraction, Option.getD_none, List.append_nil]
        at hNonempty
      rcases takeDigits hWhole hScale with ⟨hTake, hDrop⟩
      rw [hPointed, hNoPart, List.nil_append, List.append_nil,
        hTake, hDrop]
      split
      · next r hPoint =>
        rcases scale_eq_cons l hPoint with hMark | hMark
        · cases hMark
        · cases hMark
      · next hOther => simp [hNonempty]
  | some cs =>
      have hPointed : l.pointed = '.' :: l.part := by
        rw [Literal.pointed, Literal.part, hFraction]
        rfl
      have hStop : StopsDigits ('.' :: (l.part ++ l.scale)) := by
        intro c hC
        cases hC
        rfl
      rcases takeDigits hWhole hStop with ⟨hTake, hDrop⟩
      rcases takeDigits hPart hScale with ⟨hTakePart, hDropPart⟩
      rw [hPointed, List.cons_append, hTake, hDrop]
      simp only [hTakePart, hDropPart]
      have hSome : (l.whole.isEmpty && l.part.isEmpty) = false := by
        rw [Bool.eq_false_iff]
        intro hNone
        simp only [Bool.and_eq_true, List.isEmpty_iff] at hNone
        apply hNonempty
        rw [hNone.1, ← Literal.part, hNone.2]
        rfl
      rw [hSome]
      rfl

/- The exponent of a literal is read, as zero if there is none. -/
theorem readExponent?_literal (l : Literal) :
    readExponent? l.scale =
      some ((l.exponent.map Exponent.value).getD 0) := by
  unfold Literal.scale
  cases l.exponent with
  | none => rfl
  | some e =>
      change readExponent? e.chars = some e.value
      unfold readExponent? Exponent.chars
      simp only [if_pos e.isMark]
      rw [Decimal.integer?_eq_some_iff]
      exact ⟨e.sign, e.digits, rfl, rfl⟩

/-
  What a literal says without its sign is read from its digits
  and its exponent.
-/
theorem readMagnitude?_literal
    (l : Literal)
    (negative : Bool) :
    readMagnitude? negative l.magnitude =
      some ⟨negative, Decimal.ofDigits l.digits, l.power⟩ := by
  unfold readMagnitude?
  rw [readDigits?_literal l]
  simp only [Option.bind_eq_bind, Option.bind_some,
    readExponent?_literal l]
  rfl

/-
  What is read as digits are whole digits with a fraction or
  without one.
-/
theorem exists_of_readDigits?
    {cs rest : List Char}
    {c : Nat}
    {k : Int}
    (h : readDigits? cs = some ((c, k), rest)) :
    ∃ (whole : List Char) (fraction : Option (List Char)),
      whole ++ fraction.getD [] ≠ [] ∧
      (∀ d ∈ whole ++ fraction.getD [],
        Text.isDigit d = true) ∧
      cs = whole ++ ((fraction.map ('.' :: ·)).getD [] ++ rest) ∧
      c = Decimal.ofDigits (whole ++ fraction.getD []) ∧
      k = -((fraction.getD []).length : Int) := by
  have hSplit := List.takeWhile_append_dropWhile
    (p := Text.isDigit) (l := cs)
  have hWhole : ∀ d ∈ cs.takeWhile Text.isDigit,
      Text.isDigit d = true :=
    fun d hD => List.mem_takeWhile_imp hD
  unfold readDigits? at h
  simp only at h
  split at h
  · next r hPoint =>
    split at h
    · cases h
    · next hSome =>
      cases h
      refine ⟨cs.takeWhile Text.isDigit,
        some (r.takeWhile Text.isDigit), ?_, ?_, ?_, rfl, rfl⟩
      · simpa using hSome
      · intro d hD
        rcases List.mem_append.mp hD with hD | hD
        · exact hWhole d hD
        · exact List.mem_takeWhile_imp hD
      · rw [hPoint] at hSplit
        have hPart := List.takeWhile_append_dropWhile
          (p := Text.isDigit) (l := r)
        simp only [Option.map_some, Option.getD_some,
          List.cons_append, hPart, hSplit]
  · next r hOther =>
    split at h
    · cases h
    · next hSome =>
      cases h
      refine ⟨cs.takeWhile Text.isDigit, none, ?_, ?_, ?_, ?_, rfl⟩
      · simpa using hSome
      · simpa using hWhole
      · exact hSplit.symm
      · simp

/- What is read as an exponent is one, or nothing. -/
theorem exists_of_readExponent?
    {cs : List Char}
    {k : Int}
    (h : readExponent? cs = some k) :
    ∃ exponent : Option Exponent,
      cs = (exponent.map Exponent.chars).getD [] ∧
      k = (exponent.map Exponent.value).getD 0 := by
  unfold readExponent? at h
  split at h
  · cases h
    exact ⟨none, rfl, rfl⟩
  · next c r =>
    split at h
    · next hMark =>
      rcases Decimal.integer?_eq_some_iff.mp h with
        ⟨sign, ds, hChars, hK⟩
      refine ⟨some ⟨c, sign, ds, hMark⟩, ?_, hK⟩
      rw [hChars]
      rfl
    · cases h

/-
  Whatever is read as a magnitude is the magnitude of a
  literal.
-/
theorem exists_of_readMagnitude?
    (sign : Sign)
    {cs : List Char}
    {n : Numeral}
    (h : readMagnitude? sign.isNegative cs = some n) :
    ∃ l : Literal,
      l.sign = sign ∧ l.magnitude = cs ∧ l.numeral = n := by
  unfold readMagnitude? at h
  rcases Option.bind_eq_some_iff.mp h with
    ⟨⟨⟨c, k⟩, rest⟩, hDigits, hRest⟩
  rcases Option.bind_eq_some_iff.mp hRest with
    ⟨e, hExponent, hN⟩
  rcases exists_of_readDigits? hDigits with
    ⟨whole, fraction, hSome, hAll, hChars, hC, hK⟩
  rcases exists_of_readExponent? hExponent with
    ⟨exponent, hScale, hE⟩
  refine ⟨⟨sign, whole, fraction, exponent, hSome, hAll⟩,
    rfl, ?_, ?_⟩
  · rw [hChars, hScale]
    rfl
  · cases hN
    rw [hC, hK, hE]
    rfl

/- The text of a literal begins with a digit or a point. -/
theorem magnitude_eq_cons (l : Literal) :
    ∃ c r, l.magnitude = c :: r ∧
      (Text.isDigit c = true ∨ c = '.') := by
  have hNonempty := l.nonempty
  unfold Literal.magnitude
  cases hWhole : l.whole with
  | cons c r =>
      refine ⟨c, r ++ (l.pointed ++ l.scale), rfl, .inl ?_⟩
      apply l.areDigits
      rw [hWhole]
      exact List.mem_cons_self
  | nil =>
      cases hFraction : l.fraction with
      | none =>
          rw [hWhole, hFraction] at hNonempty
          exact absurd rfl hNonempty
      | some cs =>
          refine ⟨'.', cs ++ l.scale, ?_, .inr rfl⟩
          rw [Literal.pointed, hFraction]
          rfl

/- The magnitude begins with no sign of its own. -/
theorem isBare_magnitude (l : Literal) :
    Sign.IsBare l.magnitude := by
  rcases magnitude_eq_cons l with ⟨c, r, hChars, hC⟩
  rw [hChars]
  rcases hC with hDigit | rfl
  · exact Decimal.isBare_of_isDigit hDigit
  · intro d hD
    cases hD
    decide

/- The numerals that are read are the literals. -/
theorem read?_eq_some_iff
    {cs : List Char}
    {n : Numeral} :
    read? cs = some n ↔
      ∃ l : Literal, l.chars = cs ∧ l.numeral = n := by
  unfold read?
  constructor
  · intro h
    rcases Sign.exists_of_takeSign cs with ⟨sign, hChars, hSign⟩
    simp only [hSign] at h
    rcases exists_of_readMagnitude? sign h with
      ⟨l, hL, hMagnitude, hN⟩
    refine ⟨l, ?_, hN⟩
    rw [Literal.chars, hL, hMagnitude]
    exact hChars.symm
  · rintro ⟨l, rfl, rfl⟩
    rw [Literal.chars,
      Sign.takeSign_chars l.sign (isBare_magnitude l)]
    exact readMagnitude?_literal l l.sign.isNegative

/- A text is that of one numeral only. -/
theorem numeral_unique
    {l l' : Literal}
    (h : l.chars = l'.chars) : l.numeral = l'.numeral := by
  have hLeft := read?_eq_some_iff.mpr ⟨l, rfl, rfl⟩
  have hRight := read?_eq_some_iff.mpr ⟨l', rfl, rfl⟩
  rw [h, hRight] at hLeft
  exact (Option.some.inj hLeft).symm

end Numeral

------------------------------------------------------------
-- Words
------------------------------------------------------------

/- A text is a word behind a sign, in any ASCII case. -/
def Spells
    (word : String)
    (cs : List Char) : Prop :=
  ∃ (sign : Sign) (w : List Char),
    cs = sign.chars ++ w ∧ Text.fold (String.ofList w) = word

/- A text is a word for infinity. -/
def SpellsInfinity (cs : List Char) : Prop :=
  Spells "inf" cs ∨ Spells "infinity" cs

/- A word that is not begun like a numeral. -/
def IsWord (word : String) : Prop :=
  ∃ c r, word.toList = c :: r ∧
    Text.isDigit c = false ∧ c ≠ '.' ∧ c ≠ '+' ∧ c ≠ '-'

theorem isWord_nan : IsWord "nan" :=
  ⟨'n', _, rfl, by decide⟩

theorem isWord_inf : IsWord "inf" :=
  ⟨'i', _, rfl, by decide⟩

theorem isWord_infinity : IsWord "infinity" :=
  ⟨'i', _, rfl, by decide⟩

section Words

variable {w : List Char} {word : String}

/- The word begins with the first character, folded. -/
theorem IsWord.first
    {c : Char}
    {r : List Char}
    (hWord : IsWord word)
    (hFold : Text.fold (String.ofList (c :: r)) = word) :
    Text.isDigit (Text.foldChar c) = false ∧
    Text.foldChar c ≠ '.' ∧ Text.foldChar c ≠ '+' ∧
    Text.foldChar c ≠ '-' := by
  rcases hWord with ⟨d, rest, hChars, hD⟩
  rw [← hFold, Text.fold, String.toList_ofList,
    String.toList_ofList, List.map_cons] at hChars
  rw [(List.cons.inj hChars).1]
  exact hD

/- The words for values that are no numbers have no sign. -/
theorem IsWord.isBare
    (hWord : IsWord word)
    (hFold : Text.fold (String.ofList w) = word) :
    Sign.IsBare w := by
  intro c hC
  rcases List.head?_eq_some_iff.mp hC with ⟨r, rfl⟩
  rcases hWord.first hFold with ⟨-, -, hPlus, hMinus⟩
  constructor
  · rintro rfl
    exact hPlus rfl
  · rintro rfl
    exact hMinus rfl

/- A literal without its sign is no word. -/
theorem IsWord.ne_magnitude
    (hWord : IsWord word)
    (l : Literal) :
    Text.fold (String.ofList l.magnitude) ≠ word := by
  intro hFold
  rcases Numeral.magnitude_eq_cons l with ⟨c, r, hChars, hC⟩
  rw [hChars] at hFold
  rcases hWord.first hFold with ⟨hDigit, hPoint, -, -⟩
  rcases hC with hC | rfl
  · have hKept : Text.foldChar c = c := by
      simp only [Text.isDigit, Bool.and_eq_true,
        decide_eq_true_eq] at hC
      apply if_neg
      intro hLetter
      have hUp := Char.le_trans hLetter.1 hC.2
      exact absurd hUp (by decide)
    rw [hKept, hC] at hDigit
    cases hDigit
  · exact hPoint rfl

/- A literal spells no word. -/
theorem Spells.ne_chars
    {cs : List Char}
    (h : Spells word cs)
    (hWord : IsWord word)
    (l : Literal) : l.chars ≠ cs := by
  rcases h with ⟨sign, w, rfl, hFold⟩
  intro hChars
  have hLeft := Sign.takeSign_chars l.sign
    (Numeral.isBare_magnitude l)
  have hRight := Sign.takeSign_chars sign (hWord.isBare hFold)
  rw [← hChars, Literal.chars, hLeft] at hRight
  rw [← (Prod.mk.inj hRight).2] at hFold
  exact hWord.ne_magnitude l hFold

end Words

namespace Floating

variable {f : Format} {cs : List Char}

/- Each spelling of the word for no number is read as that. -/
theorem ofChars?_nan (h : Spells "nan" cs) :
    ofChars? f cs = some .nan := by
  rcases h with ⟨sign, w, rfl, hFold⟩
  unfold ofChars?
  rw [Sign.takeSign_chars sign (isWord_nan.isBare hFold)]
  simp only [hFold]
  rfl

/- A word for infinity is read as an infinity. -/
theorem ofChars?_infinity (h : SpellsInfinity cs) :
    ∃ negative, ofChars? f cs = some (.infinite negative) := by
  have hRead
      {word : String}
      (hWord : word = "inf" ∨ word = "infinity")
      (hIsWord : IsWord word)
      (hSpells : Spells word cs) :
      ∃ negative, ofChars? f cs = some (.infinite negative) := by
    rcases hSpells with ⟨sign, w, rfl, hFold⟩
    refine ⟨sign.isNegative, ?_⟩
    unfold ofChars?
    rw [Sign.takeSign_chars sign (hIsWord.isBare hFold)]
    simp only [hFold, if_pos hWord]
  rcases h with hShort | hLong
  · exact hRead (.inl rfl) isWord_inf hShort
  · exact hRead (.inr rfl) isWord_infinity hLong

/- A literal is read as the number nearest to it. -/
theorem ofChars?_literal (l : Literal) :
    ofChars? f l.chars = some (l.numeral.round f) := by
  unfold ofChars?
  rw [Literal.chars,
    Sign.takeSign_chars l.sign (Numeral.isBare_magnitude l)]
  simp only
  rw [if_neg, if_neg, Numeral.readMagnitude?_literal]
  · rfl
  · exact isWord_nan.ne_magnitude l
  · exact not_or.mpr ⟨isWord_inf.ne_magnitude l,
      isWord_infinity.ne_magnitude l⟩

/- A text that is read is a word or a literal. -/
theorem ofChars?_cases
    {x : Floating}
    (h : ofChars? f cs = some x) :
    SpellsInfinity cs ∨ Spells "nan" cs ∨
      ∃ l : Literal, l.chars = cs := by
  rcases Sign.exists_of_takeSign cs with ⟨sign, hChars, hSign⟩
  unfold ofChars? at h
  simp only at h
  split at h
  · next hWord =>
    left
    exact hWord.imp (⟨sign, _, hChars, ·⟩) (⟨sign, _, hChars, ·⟩)
  · right
    split at h
    · next hWord =>
      left
      exact ⟨sign, _, hChars, hWord⟩
    · right
      rcases Option.map_eq_some_iff.mp h with ⟨n, hNumeral, -⟩
      rw [hSign] at hNumeral
      rcases Numeral.exists_of_readMagnitude? sign hNumeral with
        ⟨l, hL, hMagnitude, -⟩
      refine ⟨l, ?_⟩
      rw [Literal.chars, hL, hMagnitude]
      exact hChars.symm

end Floating

end Failover
