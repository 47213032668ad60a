import Failover.Value.Conversion
import Failover.Proofs.Number.Nearest

/-
  Textual values converted to whole numbers.  A whole numeral
  of 128 bits is taken as it is.  Any other literal is read as
  the number of 64 bits nearest to it and this is rounded, so
  the result is right exactly if that number rounds like the
  literal.  Infinity is refused, and no number becomes zero.

  Key definitions include:
    * `Literal.IsWide`
    * `IntegerType.Holds`
    * `Value.ConvertsExactly`

  Main statements:
    * `Value.convert_wide`, `Value.convert_literal`
    * `Value.convertsExactly_iff`
-/

namespace Failover

------------------------------------------------------------
-- Whole literals
------------------------------------------------------------

namespace Literal

variable (l : Literal)

/- A literal with neither a fraction nor an exponent. -/
def IsWhole : Prop :=
  l.fraction = none ∧ l.exponent = none

/- A whole literal of 128 bits. -/
def IsWide : Prop :=
  l.IsWhole ∧ Value.leastWide ≤ l.numeral.rounded ∧
    l.numeral.rounded ≤ Value.greatestWide

variable {l : Literal}

/- A whole literal is a sign and digits. -/
theorem IsWhole.integer?
    (h : l.IsWhole) :
    Decimal.integer? l.chars = some l.numeral.rounded := by
  have hNonempty : l.whole ≠ [] := by
    have hSome := l.nonempty
    rw [h.1] at hSome
    simpa using hSome
  have hDigits : ∀ c ∈ l.whole, Text.isDigit c = true :=
    fun c hC => l.areDigits c (List.mem_append_left _ hC)
  have hMagnitude : l.magnitude = l.whole := by
    rw [magnitude, pointed, scale, h.1, h.2]
    simp
  have hNumeral : l.numeral =
      ⟨l.sign.isNegative, Decimal.ofDigits l.whole, 0⟩ := by
    rw [numeral, power, digits, part, h.1, h.2]
    simp
  rw [Decimal.integer?_eq_some_iff]
  refine ⟨l.sign, ⟨l.whole, hNonempty, hDigits⟩, ?_, ?_⟩
  · rw [chars, hMagnitude]
  · rw [hNumeral, Numeral.rounded_eq, Numeral.magnitude,
      Decimal.signed, zpow_zero, mul_one, Floating.halfUp,
      round_natCast]

/- A point is behind the digits of a fraction. -/
theorem point_mem
    {part : List Char}
    (h : l.fraction = some part) : '.' ∈ l.magnitude := by
  rw [magnitude, pointed, h]
  simp

/- A mark is in front of an exponent. -/
theorem mark_mem
    {e : Exponent}
    (h : l.exponent = some e) : e.mark ∈ l.magnitude := by
  rw [magnitude, scale, h]
  simp [Exponent.chars]

/- A literal that is a sign and digits is whole. -/
theorem isWhole_of_integer?
    {n : Int}
    (h : Decimal.integer? l.chars = some n) : l.IsWhole := by
  rcases Decimal.integer?_eq_some_iff.mp h with
    ⟨sign, ds, hChars, -⟩
  have hMagnitude : l.magnitude = ds.chars := by
    have hLeft := Sign.takeSign_chars l.sign
      (Numeral.isBare_magnitude l)
    have hRight := Sign.takeSign_chars sign ds.isBare
    rw [← hChars, chars, hLeft] at hRight
    exact (Prod.mk.inj hRight).2
  have hAll : ∀ c ∈ l.magnitude, Text.isDigit c = true := by
    rw [hMagnitude]
    exact ds.areDigits
  constructor
  · by_contra hFraction
    rcases Option.ne_none_iff_exists'.mp hFraction with
      ⟨part, hPart⟩
    have hPoint := hAll '.' (point_mem hPart)
    exact absurd hPoint (by decide)
  · by_contra hExponent
    rcases Option.ne_none_iff_exists'.mp hExponent with ⟨e, hE⟩
    have hMark := hAll e.mark (mark_mem hE)
    rcases e.isMark with hSmall | hCapital
    · rw [hSmall] at hMark
      exact absurd hMark (by decide)
    · rw [hCapital] at hMark
      exact absurd hMark (by decide)

end Literal

------------------------------------------------------------
-- Ranges
------------------------------------------------------------

/- A whole number is in the range of a type. -/
def IntegerType.Holds
    (w : IntegerType)
    (n : Int) : Prop :=
  w.least ≤ n ∧ n ≤ w.greatest

instance
    (w : IntegerType)
    (n : Int) : Decidable (w.Holds n) := by
  unfold IntegerType.Holds
  infer_instance

namespace Value

/- The nearest number of 128 bits. -/
def clampWide (n : Int) : Int :=
  max leastWide (min greatestWide n)

/- Every integer type has fewer than 128 bits. -/
theorem within_wide (w : IntegerType) :
    leastWide < w.least ∧ w.greatest < greatestWide := by
  cases w <;> decide

theorem clampWide_holds
    (w : IntegerType)
    (n : Int) :
    w.Holds (clampWide n) ↔ w.Holds n := by
  have hWithin := within_wide w
  unfold IntegerType.Holds clampWide
  omega

theorem clampWide_of_holds
    {w : IntegerType}
    {n : Int}
    (h : w.Holds n) : clampWide n = n := by
  have hWithin := within_wide w
  unfold IntegerType.Holds at h
  unfold clampWide
  omega

------------------------------------------------------------
-- Reading
------------------------------------------------------------

/-
  Through a floating number, what is read of a numeral is what
  the number nearest to it rounds to.
-/
theorem wideOfFloating_round (n : Numeral) :
    wideOfFloating (n.round .double) = clampWide n.approximate := by
  have hReads := Numeral.reads_round n
  generalize n.round .double = x at hReads ⊢
  cases hReads with
  | finite hRound =>
      unfold wideOfFloating
      simp only
      rw [Floating.roundHalfAway_finite, hRound]
      rfl
  | infinite hHuge =>
      have hGreat : -leastWide ≤
          Floating.halfUp
            (Floating.Format.double.near n.magnitude) := by
        have hWide :
            ((-leastWide : Int) : ℚ) ≤ 2 ^ (1023 : Int) := by
          calc ((-leastWide : Int) : ℚ) ≤ 2 ^ (127 : Int) := by
                norm_num [leastWide]
            _ ≤ 2 ^ (1023 : Int) :=
                Floating.two_zpow_le (by norm_num)
        rw [Floating.halfUp, round_eq, Int.le_floor]
        linarith
      have hEnds : greatestWide = -leastWide - 1 := rfl
      have hNegative : leastWide < 0 := by decide
      unfold wideOfFloating clampWide Numeral.approximate
      cases n.negative with
      | false =>
          simp only [Bool.false_eq_true, if_false]
          omega
      | true =>
          simp only [if_true]
          omega

/- A literal of 128 bits is read as it is. -/
theorem wideOfText?_wide
    {l : Literal}
    {s : String}
    (hText : l.chars = s.toList)
    (hWide : l.IsWide) :
    wideOfText? s = some l.numeral.rounded := by
  unfold wideOfText?
  rw [← hText, hWide.1.integer?]
  exact if_pos hWide.2

/- Any other literal is read through a floating number. -/
theorem wideOfText?_literal
    {l : Literal}
    {s : String}
    (hText : l.chars = s.toList)
    (hOther : ¬ l.IsWide) :
    wideOfText? s = some (clampWide l.numeral.approximate) := by
  have hFloating :
      (Floating.ofText? .double s).map wideOfFloating =
        some (clampWide l.numeral.approximate) := by
    rw [Floating.ofText?, ← hText, Floating.ofChars?_literal,
      Option.map_some, wideOfFloating_round]
  unfold wideOfText?
  rw [← hText]
  split
  · next n hInteger =>
    have hWhole := Literal.isWhole_of_integer? hInteger
    rw [hWhole.integer?] at hInteger
    rw [if_neg, hFloating]
    rw [← Option.some.inj hInteger]
    exact fun hRange => hOther ⟨hWhole, hRange⟩
  · exact hFloating

/- A text that is no literal is read through a floating number. -/
theorem wideOfText?_other
    {s : String}
    (hOther : ∀ l : Literal, l.chars ≠ s.toList) :
    wideOfText? s =
      (Floating.ofText? .double s).map wideOfFloating := by
  unfold wideOfText?
  split
  · next n hInteger =>
    rcases Decimal.integer?_eq_some_iff.mp hInteger with
      ⟨sign, ds, hChars, -⟩
    refine absurd ?_ (hOther
      ⟨sign, ds.chars, none, none,
        by simpa using ds.nonempty, by simpa using ds.areDigits⟩)
    rw [hChars]
    simp [Literal.chars, Literal.magnitude, Literal.pointed,
      Literal.scale]
  · rfl

------------------------------------------------------------
-- Conversion
------------------------------------------------------------

/-
  A whole number comes out only for the text of a literal, and
  it is the value of the literal rounded to a whole number,
  half-way cases going away from zero.
-/
def ConvertsExactly
    (v : Value)
    (w : IntegerType) : Prop :=
  ∀ n : Int, (Target.integer w).convert v = .ok n →
    ∃ l : Literal,
      v.trimmed?.map String.toList = some l.chars ∧
      n = awayFromZero l.value

section Conversion

variable {v : Value} {s : String} {w : IntegerType}

theorem wideInteger?_of_trimmed
    (hText : v.trimmed? = some s) :
    v.isNull = false ∧ v.wideInteger? = wideOfText? s := by
  cases v with
  | text t =>
      simp only [wideInteger?]
      rw [hText]
      exact ⟨rfl, Option.bind_some s wideOfText?⟩
  | decimal t =>
      simp only [wideInteger?]
      rw [hText]
      exact ⟨rfl, Option.bind_some s wideOfText?⟩
  | _ => cases hText

theorem integer_eq_ok_iff (n : Int) :
    v.integer w = .ok n ↔ v.wideInteger? = some n ∧ w.Holds n := by
  rw [integer]
  cases v.wideInteger? with
  | none => simp
  | some k =>
      simp only [Option.some.injEq]
      by_cases hRange : w.least ≤ k ∧ k ≤ w.greatest
      · rw [if_pos hRange]
        constructor
        · intro hOk
          cases hOk
          exact ⟨rfl, hRange⟩
        · rintro ⟨rfl, -⟩
          rfl
      · rw [if_neg hRange]
        constructor
        · intro hOk
          cases hOk
        · rintro ⟨rfl, hHolds⟩
          exact absurd hHolds hRange

/- A number comes out that is read and in range. -/
theorem convert_eq_ok_iff
    (hText : v.trimmed? = some s)
    (n : Int) :
    (Target.integer w).convert v = .ok n ↔
      wideOfText? s = some n ∧ w.Holds n := by
  rcases wideInteger?_of_trimmed hText with ⟨hPresent, hWide⟩
  rw [Target.convert, hPresent, ← hWide]
  exact integer_eq_ok_iff n

/-
  The word for no number is converted to zero, whatever the
  type is.
-/
theorem convert_nan
    (hText : v.trimmed? = some s)
    (hNan : Spells "nan" s.toList) :
    (Target.integer w).convert v = .ok (0 : Int) := by
  have hRead : Floating.ofText? .double s = some .nan :=
    Floating.ofChars?_nan hNan
  rw [convert_eq_ok_iff hText,
    wideOfText?_other (hNan.ne_chars isWord_nan), hRead]
  exact ⟨rfl, by cases w <;> decide⟩

/- Infinity becomes no whole number of any type. -/
theorem convert_infinity
    (hText : v.trimmed? = some s)
    (hInfinity : SpellsInfinity s.toList)
    (n : Int) : (Target.integer w).convert v ≠ .ok n := by
  have hOther (l : Literal) : l.chars ≠ s.toList :=
    hInfinity.elim (·.ne_chars isWord_inf l)
      (·.ne_chars isWord_infinity l)
  obtain ⟨negative, hRead⟩ :=
    Floating.ofChars?_infinity (f := .double) hInfinity
  rw [Ne, convert_eq_ok_iff hText, wideOfText?_other hOther,
    Floating.ofText?, hRead, Option.map_some, Option.some.injEq]
  have hWithin := within_wide w
  rintro ⟨hN, hLeast, hGreatest⟩
  simp only [wideOfFloating] at hN
  split_ifs at hN <;> omega

/- Other texts become no whole number either. -/
theorem convert_other
    (hText : v.trimmed? = some s)
    (hLiteral : ∀ l : Literal, l.chars ≠ s.toList)
    (hNan : ¬ Spells "nan" s.toList)
    (n : Int) : (Target.integer w).convert v ≠ .ok n := by
  intro hOk
  have hWide := ((convert_eq_ok_iff hText n).mp hOk).1
  rw [wideOfText?_other hLiteral] at hWide
  rcases Option.map_eq_some_iff.mp hWide with ⟨x, hRead, -⟩
  rcases Floating.ofChars?_cases hRead with
    hInfinity | hWord | ⟨l, hChars⟩
  · exact convert_infinity hText hInfinity n hOk
  · exact hNan hWord
  · exact hLiteral l hChars

/- The value of a literal of 128 bits comes out, if in range. -/
theorem convert_wide
    {l : Literal}
    (hText : v.trimmed? = some s)
    (hChars : l.chars = s.toList)
    (hWide : l.IsWide)
    (n : Int) :
    (Target.integer w).convert v = .ok n ↔
      n = l.numeral.rounded ∧ w.Holds n := by
  rw [convert_eq_ok_iff hText, wideOfText?_wide hChars hWide,
    Option.some.injEq, eq_comm]

/-
  Other literals are converted to the whole number that the
  nearest floating number rounds to, if the type holds it.
-/
theorem convert_literal
    {l : Literal}
    (hText : v.trimmed? = some s)
    (hChars : l.chars = s.toList)
    (hOther : ¬ l.IsWide)
    (n : Int) :
    (Target.integer w).convert v = .ok n ↔
      n = l.numeral.approximate ∧ w.Holds n := by
  rw [convert_eq_ok_iff hText, wideOfText?_literal hChars hOther,
    Option.some.injEq]
  constructor
  · rintro ⟨rfl, hHolds⟩
    have hInRange := (clampWide_holds w _).mp hHolds
    rw [clampWide_of_holds hInRange]
    exact ⟨rfl, hInRange⟩
  · rintro ⟨rfl, hHolds⟩
    exact ⟨clampWide_of_holds hHolds, hHolds⟩

/- The text of a literal is that of no other number. -/
theorem convertsExactly_value_iff
    {l : Literal}
    (hText : v.trimmed? = some s)
    (hChars : l.chars = s.toList) :
    v.ConvertsExactly w ↔
      ∀ n : Int, (Target.integer w).convert v = .ok n →
        n = awayFromZero l.value := by
  unfold ConvertsExactly
  rw [hText, Option.map_some, ← hChars]
  constructor
  · intro hAll n hOk
    rcases hAll n hOk with ⟨l', hSame, hN⟩
    have hNumeral :=
      Numeral.numeral_unique (Option.some.inj hSame)
    rw [Literal.value, hNumeral]
    exact hN
  · intro hAll n hOk
    exact ⟨l, rfl, hAll n hOk⟩

/-
  The numbers that come out of a literal are exact if and only
  if it is read exactly or nothing in range is read.
-/
theorem convertsExactly_literal_iff
    {l : Literal}
    (hText : v.trimmed? = some s)
    (hChars : l.chars = s.toList) :
    v.ConvertsExactly w ↔
      l.IsWide ∨ ¬ w.Holds l.numeral.approximate ∨
        l.numeral.approximate = awayFromZero l.value := by
  rw [convertsExactly_value_iff hText hChars]
  by_cases hWide : l.IsWide
  · simp only [convert_wide hText hChars hWide]
    constructor
    · intro _
      exact .inl hWide
    · rintro - n ⟨rfl, -⟩
      rfl
  · simp only [convert_literal hText hChars hWide]
    constructor
    · intro hAll
      by_cases hHolds : w.Holds l.numeral.approximate
      · exact .inr (.inr (hAll _ ⟨rfl, hHolds⟩))
      · exact .inr (.inl hHolds)
    · rintro (hIs | hNot | hSame) n ⟨rfl, hHolds⟩
      · exact absurd hIs hWide
      · exact absurd hHolds hNot
      · exact hSame

/- A text that is no literal must not be one of no number. -/
theorem convertsExactly_other_iff
    (hText : v.trimmed? = some s)
    (hLiteral : ∀ l : Literal, l.chars ≠ s.toList) :
    v.ConvertsExactly w ↔ ¬ Spells "nan" s.toList := by
  constructor
  · intro hExact hNan
    rcases hExact 0 (convert_nan hText hNan) with ⟨l, hSame, -⟩
    rw [hText] at hSame
    exact hLiteral l (Option.some.inj hSame).symm
  · intro hNan n hOk
    exact absurd hOk (convert_other hText hLiteral hNan n)

/-
  Whole numbers come out exactly if and only if the text is
  not that of no number and a literal, unless it is whole with
  128 bits or out of range, rounds like the number of 64 bits
  nearest to it.  This holds of literals whose digits make up
  a number of 53 bits and whose value is in reach of them.
-/
theorem convertsExactly_iff
    (hText : v.trimmed? = some s) :
    (v.ConvertsExactly w ↔
      ¬ Spells "nan" s.toList ∧
      ∀ l : Literal, l.chars = s.toList →
        l.IsWide ∨ ¬ w.Holds l.numeral.approximate ∨
          l.numeral.approximate = awayFromZero l.value) ∧
    ∀ l : Literal, l.chars = s.toList →
      Decimal.ofDigits l.digits < 2 ^ 53 →
      |l.value| ≤ 2 ^ 53 → v.ConvertsExactly w := by
  constructor
  · by_cases hLiteral : ∃ l : Literal, l.chars = s.toList
    · rcases hLiteral with ⟨l, hChars⟩
      rw [convertsExactly_literal_iff hText hChars]
      constructor
      · intro hRead
        constructor
        · intro hNan
          exact hNan.ne_chars isWord_nan l hChars
        · intro l' hChars'
          rw [← convertsExactly_literal_iff hText hChars',
            convertsExactly_literal_iff hText hChars]
          exact hRead
      · rintro ⟨-, hAll⟩
        exact hAll l hChars
    · have hOther (l : Literal) : l.chars ≠ s.toList :=
        fun hChars => hLiteral ⟨l, hChars⟩
      rw [convertsExactly_other_iff hText hOther]
      constructor
      · intro hNan
        exact ⟨hNan, fun l hChars => absurd hChars (hOther l)⟩
      · exact And.left
  · intro l hChars hDigits hReach
    rw [convertsExactly_literal_iff hText hChars]
    right
    right
    apply Numeral.approximate_eq_rounded hDigits
    rw [← Numeral.abs_value]
    exact hReach

/- A fraction of few digits comes out exactly. -/
theorem twelve_and_a_half_converts_exactly :
    (decimal " 12.50").trimmed? = some "12.50" ∧
    (decimal " 12.50").ConvertsExactly .int8 := by
  have hText : (decimal " 12.50").trimmed? = some "12.50" := by
    decide +kernel
  let l : Literal :=
    ⟨.absent, ['1', '2'], some ['5', '0'], none,
      by decide, List.all_eq_true.mp (by decide)⟩
  refine ⟨hText, (convertsExactly_iff hText).2 l ?_ ?_ ?_⟩
  · decide
  · decide
  · have hValue : l.value = 1250 * 10 ^ (-2 : Int) := rfl
    rw [hValue]
    norm_num

/-
  The fraction of a whole number of 54 bits makes it come out
  less by one: no number of 64 bits is equal to it.
-/
theorem great_fraction_is_off_by_one :
    (Target.integer .int64).convert
        (decimal "9007199254740993.0") =
      .ok (9007199254740992 : Int) ∧
    ¬ (decimal "9007199254740993.0").ConvertsExactly .int64 := by
  have hText : (decimal "9007199254740993.0").trimmed? =
      some "9007199254740993.0" := by
    decide +kernel
  have hOk : (Target.integer .int64).convert
        (decimal "9007199254740993.0") =
      .ok (9007199254740992 : Int) := by
    rw [convert_eq_ok_iff hText]
    decide +kernel
  refine ⟨hOk, ?_⟩
  intro hExact
  rcases hExact _ hOk with ⟨l, hSame, hN⟩
  let great : Literal :=
    ⟨.absent, "9007199254740993".toList, some ['0'], none,
      by decide, List.all_eq_true.mp (by decide)⟩
  rw [hText] at hSame
  have hNumeral : l.numeral = great.numeral :=
    Numeral.numeral_unique (Option.some.inj hSame).symm
  have hValue : great.numeral.value =
      90071992547409930 * 10 ^ (-1 : Int) := rfl
  rw [Literal.value, hNumeral, hValue, awayFromZero] at hN
  norm_num [Floating.halfUp] at hN

end Conversion

end Value

end Failover
