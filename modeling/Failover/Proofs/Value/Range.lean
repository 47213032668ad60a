import Failover.Value.Native
import Failover.Proofs.Text.Trim
import Failover.Proofs.Value.Whole

/-
  Conversions to whole numbers.  A value that denotes a whole
  number becomes that number if it is in the range of the type
  and is refused otherwise.  This holds of digits of any count:
  what has more than 128 bits is read as a floating number,
  which is out of the range of every type as well.

  Key definitions include:
    * `Value.Denotes`
    * `Literal.ofDigits`

  Main statements:
    * `Literal.near_out_of_range`
    * `IntegerType.toValue_denotes`
    * `Value.whole_numbers_never_wrap`
-/

namespace Failover

open Floating (Format halfUp)

------------------------------------------------------------
-- Signs and digits
------------------------------------------------------------

namespace Literal

variable (sign : Sign) (ds : Decimal.Digits)

/- A sign and digits are a literal. -/
def ofDigits : Literal where
  sign
  whole := ds.chars
  fraction := none
  exponent := none
  nonempty := by simpa using ds.nonempty
  areDigits := by simpa using ds.areDigits

theorem ofDigits_isWhole : (ofDigits sign ds).IsWhole :=
  ⟨rfl, rfl⟩

theorem ofDigits_chars :
    (ofDigits sign ds).chars = sign.chars ++ ds.chars := by
  simp [chars, magnitude, pointed, scale, ofDigits]

theorem ofDigits_rounded :
    (ofDigits sign ds).numeral.rounded =
      Decimal.signed sign ds := by
  have hRead := (ofDigits_isWhole sign ds).integer?
  rw [ofDigits_chars, Decimal.integer?_eq_some_iff.mpr
    ⟨sign, ds, rfl, rfl⟩] at hRead
  exact (Option.some.inj hRead).symm

variable {l : Literal}

/- The magnitude of a whole literal is a whole number. -/
theorem IsWhole.magnitude
    (h : l.IsWhole) :
    l.numeral.magnitude = (Decimal.ofDigits l.digits : ℚ) := by
  have hPower : l.power = 0 := by
    rw [power, part, h.1, h.2]
    rfl
  rw [Numeral.magnitude, numeral, hPower, zpow_zero, mul_one]

/-
  A whole literal of more than 128 bits is out of the range of
  every type, and so is the number of 64 bits nearest to it.
-/
theorem near_out_of_range
    (hWhole : l.IsWhole)
    (hOther : ¬ l.IsWide)
    (w : IntegerType) :
    ¬ w.Holds l.numeral.rounded ∧
    ¬ w.Holds l.numeral.approximate := by
  have hMagnitude := hWhole.magnitude
  have hRounded := Numeral.rounded_eq l.numeral
  have hWide : ¬ (Value.leastWide ≤ l.numeral.rounded ∧
      l.numeral.rounded ≤ Value.greatestWide) :=
    fun hRange => hOther ⟨hWhole, hRange⟩
  have hWithin := Value.within_wide w
  have hEnds : Value.greatestWide = 2 ^ 127 - 1 ∧
      Value.leastWide = -2 ^ 127 := by
    decide
  generalize Decimal.ofDigits l.digits = k at hMagnitude
  have hHalf : halfUp l.numeral.magnitude = k := by
    rw [hMagnitude, halfUp, round_natCast]
  have hGreat : 2 ^ 127 ≤ k := by
    rw [hRounded, hHalf] at hWide
    split at hWide <;> omega
  have hNear : 2 ^ 127 ≤
      halfUp (Format.double.near l.numeral.magnitude) := by
    have hHuge : (2 : ℚ) ^ (127 : Int) ≤ l.numeral.magnitude := by
      rw [hMagnitude]
      exact_mod_cast hGreat
    have hAbove := Floating.near_huge (by norm_num) hHuge
    rw [halfUp, round_eq, Int.le_floor]
    push_cast
    norm_num at hAbove ⊢
    linarith
  unfold IntegerType.Holds
  rw [hRounded, hHalf, Numeral.approximate]
  cases l.numeral.negative <;> simp <;> omega

end Literal

------------------------------------------------------------
-- Values that denote whole numbers
------------------------------------------------------------

namespace Value

/-
  A number or a truth value denotes a whole number, and so does
  a text that is a sign and digits with white space around.
-/
inductive Denotes : Value → Int → Prop where
  | int (n : Int64) : Denotes (.int n) n.toInt
  | uint (n : UInt64) : Denotes (.uint n) n.toNat
  | bool (b : Bool) : Denotes (.bool b) (if b then 1 else 0)
  | digits
      {v : Value}
      {s : String}
      (sign : Sign)
      (ds : Decimal.Digits)
      (hText : v.trimmed? = some s)
      (hChars : s.toList = sign.chars ++ ds.chars) :
      Denotes v (Decimal.signed sign ds)

/-
  What is read of a value that denotes a number is this number,
  unless both are out of range.
-/
theorem Denotes.wideInteger?
    {v : Value}
    {n : Int}
    (h : v.Denotes n)
    (w : IntegerType) :
    v.isNull = false ∧ ∃ k, v.wideInteger? = some k ∧
      (k = n ∨ ¬ w.Holds k ∧ ¬ w.Holds n) := by
  cases h with
  | int n => exact ⟨rfl, _, rfl, .inl rfl⟩
  | uint n => exact ⟨rfl, _, rfl, .inl rfl⟩
  | bool b => exact ⟨rfl, _, rfl, .inl rfl⟩
  | digits sign ds hText hChars =>
      rcases wideInteger?_of_trimmed hText with ⟨hPresent, hWide⟩
      have hLiteral := (Literal.ofDigits_chars sign ds).trans
        hChars.symm
      refine ⟨hPresent, ?_⟩
      rw [hWide, ← Literal.ofDigits_rounded]
      by_cases hIsWide : (Literal.ofDigits sign ds).IsWide
      · exact ⟨_, wideOfText?_wide hLiteral hIsWide, .inl rfl⟩
      · rcases Literal.near_out_of_range
          (Literal.ofDigits_isWhole sign ds) hIsWide w with
          ⟨hNot, hNotNear⟩
        refine ⟨_, wideOfText?_literal hLiteral hIsWide,
          .inr ⟨?_, hNot⟩⟩
        rw [clampWide_holds]
        exact hNotNear

/- A number in range comes out, and any other is refused. -/
theorem Denotes.convert
    {v : Value}
    {n : Int}
    (h : v.Denotes n)
    (w : IntegerType) :
    (w.Holds n → (Target.integer w).convert v = .ok n) ∧
    (¬ w.Holds n → ∃ k, ¬ w.Holds k ∧
      (Target.integer w).convert v =
        .error (.outOfRange k w.name)) := by
  rcases h.wideInteger? w with ⟨hPresent, k, hRead, hSame⟩
  have hConvert : (Target.integer w).convert v =
      if w.Holds k then .ok k
      else .error (.outOfRange k w.name) := by
    rw [Target.convert, hPresent]
    change v.integer w = _
    rw [Value.integer, hRead]
    rfl
  rw [hConvert]
  constructor
  · intro hHolds
    rcases hSame with rfl | ⟨-, hNot⟩
    · exact if_pos hHolds
    · exact absurd hHolds hNot
  · intro hNot
    have hOut : ¬ w.Holds k := by
      rcases hSame with rfl | ⟨hOut, -⟩
      · exact hNot
      · exact hOut
    exact ⟨k, hOut, if_neg hOut⟩

end Value

------------------------------------------------------------
-- Numbers of a type as values
------------------------------------------------------------

/- A sign and digits have no white space at their ends. -/
theorem Sign.isTight_digits
    (sign : Sign)
    (ds : Decimal.Digits) :
    Text.IsTight (sign.chars ++ ds.chars) := by
  have hDigit (c : Char) (hC : c ∈ ds.chars) :
      Text.isBlank c = false :=
    Text.isBlank_of_isDigit (ds.areDigits c hC)
  constructor
  · intro c hC
    cases sign with
    | absent => exact hDigit c (List.mem_of_mem_head? hC)
    | plus => cases hC; decide
    | minus => cases hC; decide
  · intro c hC
    rw [List.getLast?_append_of_ne_nil _ ds.nonempty] at hC
    exact hDigit c (List.mem_of_mem_getLast? hC)

/- A written whole number denotes itself as a text. -/
theorem Value.text_denotes (n : Int) :
    (Value.text (Decimal.render n)).Denotes n := by
  obtain ⟨sign, ds, hChars, rfl⟩ := Decimal.render_signed n
  have hTrim : Text.trim (Decimal.render (Decimal.signed sign ds)) =
      Decimal.render (Decimal.signed sign ds) :=
    Text.trim_of_isTight (hChars ▸ Sign.isTight_digits sign ds)
      (by simp [hChars, ds.nonempty])
  exact .digits sign ds (congrArg some hTrim) hChars

namespace IntegerType

variable {w : IntegerType} {n : Int}

/- A number of a type is that of a signed or unsigned word. -/
theorem toValue_cases (hHolds : w.Holds n) :
    (∃ k : Int64, w.toValue n = .int k ∧ k.toInt = n) ∨
    ∃ k : UInt64, w.toValue n = .uint k ∧ (k.toNat : Int) = n := by
  have hWord (hRange : 0 ≤ n ∧ n ≤ UInt64.size - 1) :
      (∃ k : Int64,
        Value.ofWord (UInt64.ofNat n.toNat) = .int k ∧
          k.toInt = n) ∨
      ∃ k : UInt64,
        Value.ofWord (UInt64.ofNat n.toNat) = .uint k ∧
          (k.toNat : Int) = n := by
    have hSize : UInt64.size = 2 ^ 64 := rfl
    have hHalf : Int64.size / 2 = 2 ^ 63 := rfl
    have hSame : (UInt64.ofNat n.toNat).toNat = n.toNat :=
      UInt64.toNat_ofNat_of_lt' (by omega)
    unfold Value.ofWord
    rw [hSame, hHalf]
    split
    · next hSmall =>
      refine .inl ⟨_, rfl, ?_⟩
      rw [Int64.toInt_ofNat_of_lt hSmall]
      omega
    · exact .inr ⟨_, rfl, by omega⟩
  have hSigned (hRange : -2 ^ 63 ≤ n ∧ n < 2 ^ 63) :
      ∃ k : Int64, Value.int (Int64.ofInt n) = .int k ∧
        k.toInt = n :=
    ⟨_, rfl, Int64.toInt_ofInt_of_le hRange.1 hRange.2⟩
  have hEnds : -2 ^ 63 ≤ Int64.minValue.toInt ∧
      Int64.maxValue.toInt < 2 ^ 63 := by
    decide
  have hLess : UInt32.size = 2 ^ 32 ∧ UInt16.size = 2 ^ 16 ∧
      UInt8.size = 2 ^ 8 :=
    ⟨rfl, rfl, rfl⟩
  have hMore : Int8.minValue.toInt = -2 ^ 7 ∧
      Int8.maxValue.toInt = 2 ^ 7 - 1 ∧
      Int16.minValue.toInt = -2 ^ 15 ∧
      Int16.maxValue.toInt = 2 ^ 15 - 1 ∧
      Int32.minValue.toInt = -2 ^ 31 ∧
      Int32.maxValue.toInt = 2 ^ 31 - 1 := by
    decide
  unfold Holds at hHolds
  cases w <;> simp only [least, greatest] at hHolds
  case word64 => exact hWord hHolds
  case wordSize => exact hWord hHolds
  all_goals exact .inl (hSigned (by omega))

theorem toValue_denotes (hHolds : w.Holds n) :
    (w.toValue n).Denotes n := by
  rcases toValue_cases hHolds with ⟨k, hValue, rfl⟩ | ⟨k, hValue, rfl⟩
  · rw [hValue]
    exact .int k
  · rw [hValue]
    exact .uint k

theorem toValue_text (hHolds : w.Holds n) :
    Target.text.convert (w.toValue n) =
      .ok (Decimal.render n) := by
  rcases toValue_cases hHolds with ⟨k, hValue, rfl⟩ | ⟨k, hValue, rfl⟩
  · rw [hValue]
    rfl
  · rw [hValue]
    rfl

end IntegerType

namespace Value

/-
  A value that denotes a whole number becomes it exactly if it
  is in the range of a type, and every number of a type comes
  back from its value and from the text of its value.
-/
theorem whole_numbers_never_wrap (w : IntegerType) :
    (∀ (v : Value) (n : Int), v.Denotes n →
      (w.Holds n → (Target.integer w).convert v = .ok n) ∧
      (¬ w.Holds n → ∃ k, ¬ w.Holds k ∧
        (Target.integer w).convert v =
          .error (.outOfRange k w.name))) ∧
    ∀ n : Int, w.Holds n →
      (Target.integer w).convert (w.toValue n) = .ok n ∧
      ∃ s, Target.text.convert (w.toValue n) = .ok s ∧
        (Target.integer w).convert (.text s) = .ok n := by
  constructor
  · intro v n hDenotes
    exact hDenotes.convert w
  · intro n hHolds
    have hBack :=
      ((IntegerType.toValue_denotes hHolds).convert w).1 hHolds
    have hText := ((text_denotes n).convert w).1 hHolds
    exact ⟨hBack, _, IntegerType.toValue_text hHolds, hText⟩

/- Digits of 129 bits are refused by the type of greatest range. -/
theorem digits_of_129_bits_are_refused :
    (decimal " -340282366920938463463374607431768211456").Denotes
      (-340282366920938463463374607431768211456) ∧
    ∃ k, ¬ IntegerType.int64.Holds k ∧
      (Target.integer .int64).convert
          (decimal " -340282366920938463463374607431768211456") =
        .error (.outOfRange k "i64") := by
  let ds : Decimal.Digits :=
    ⟨"340282366920938463463374607431768211456".toList,
      by decide, List.all_eq_true.mp (by decide)⟩
  have hText :
      (decimal " -340282366920938463463374607431768211456").trimmed? =
        some "-340282366920938463463374607431768211456" := by
    decide +kernel
  have hDenotes := Denotes.digits .minus ds hText (by decide)
  exact ⟨hDenotes,
    ((whole_numbers_never_wrap .int64).1 _ _ hDenotes).2 (by decide)⟩

end Value

end Failover
