import Failover.Proofs.Number.Literal
import Failover.Proofs.Number.Rounding

/-
  Numerals read as floating numbers and rounded to whole ones.
  Whatever the size of a numeral is, its number of 64 bits is
  the one nearest to it.  Where the digits make up a number of
  53 bits and the value is in reach of them too, the number of
  64 bits rounds to the same whole number as the value.

  Key definitions include:
    * `awayFromZero`
    * `Numeral.rounded`
    * `Numeral.approximate`
    * `Numeral.Reads`

  Main statements:
    * `Numeral.reads_round`
    * `Numeral.approximate_eq_rounded`
-/

namespace Failover

open Floating (Format halfUp)

------------------------------------------------------------
-- Numbers of 64 bits
------------------------------------------------------------

namespace Floating

/- The numbers around a magnitude below one are close together. -/
theorem near_tiny
    {a : ℚ}
    (hPos : 0 < a)
    (hTiny : a < 1 / 4) :
    halfUp (Format.double.near a) = 0 := by
  have hLog : Int.log 2 a < 0 := by
    by_contra hNot
    have hOne := (Format.le_log_iff hPos 0).mpr (by omega)
    norm_num at hOne
    linarith
  have hSize : Format.double.size a ≤ -1 := by
    have hLeast : Format.double.leastExponent = -1074 := rfl
    have hPrecision : Format.double.precision = 53 := rfl
    unfold Format.size
    omega
  have hSpacing : Format.double.spacing a ≤ 1 / 2 := by
    have hHalf := two_zpow_le hSize
    norm_num at hHalf
    exact hHalf
  have hError := abs_le.mp (Format.near_error .double hPos.le)
  have hNonneg := Format.near_nonneg .double a
  rw [halfUp, round_eq, Int.floor_eq_zero_iff]
  constructor <;> linarith

/- The number nearest to a great magnitude is as great. -/
theorem near_huge
    {a : ℚ}
    {k : Int}
    (hPower : 0 ≤ k)
    (hHuge : 2 ^ k ≤ a) :
    2 ^ k ≤ Format.double.near a := by
  have hPos : 0 < a := lt_of_lt_of_le (two_zpow_pos k) hHuge
  have hLog := (Format.le_log_iff hPos k).mp hHuge
  have hSize : Format.double.leastExponent <
      Format.double.size a := by
    have hLeast : Format.double.leastExponent = -1074 := rfl
    have hPrecision : Format.double.precision = 53 := rfl
    unfold Format.size
    omega
  have hMultiple :=
    Format.log_eq_multiple (f := .double) (by decide) hSize
  apply (two_zpow_le hLog).trans
  rw [hMultiple]
  apply Format.le_near
  rw [← hMultiple]
  exact Format.log_le hPos

end Floating

------------------------------------------------------------
-- Whole numbers
------------------------------------------------------------

/- The nearest whole number; a half-way case goes away from zero. -/
def awayFromZero (q : ℚ) : Int :=
  if q < 0 then -halfUp (-q) else halfUp q

namespace Numeral

/- The whole number nearest to what a numeral denotes. -/
def rounded (n : Numeral) : Int :=
  awayFromZero n.value

/- The whole number nearest to the nearest number of 64 bits. -/
def approximate (n : Numeral) : Int :=
  if n.negative then -halfUp (Format.double.near n.magnitude)
  else halfUp (Format.double.near n.magnitude)

theorem rounded_eq (n : Numeral) :
    n.rounded =
      if n.negative then -halfUp n.magnitude
      else halfUp n.magnitude := by
  have hNonneg := magnitude_nonneg n
  unfold rounded awayFromZero value
  cases n.negative with
  | false =>
      simp only [Bool.false_eq_true, if_false]
      exact if_neg (not_lt.mpr hNonneg)
  | true =>
      simp only [if_true, neg_neg]
      rcases hNonneg.lt_or_eq with hPos | hZero
      · exact if_pos (neg_neg_of_pos hPos)
      · simp [← hZero, halfUp]

------------------------------------------------------------
-- Reading
------------------------------------------------------------

/- The digits tell the size of a number. -/
theorem digits_size
    {c : Nat}
    (hC : 0 < c) :
    (10 : ℚ) ^ ((Decimal.digits c).length - 1 : Int) ≤ c ∧
    (c : ℚ) < 10 ^ ((Decimal.digits c).length : Int) := by
  have hSome : 0 < (Decimal.digits c).length :=
    Nat.length_toDigits_pos
  constructor
  · by_cases hOne : (Decimal.digits c).length = 1
    · rw [hOne, Nat.cast_one, sub_self, zpow_zero]
      exact_mod_cast hC
    · have hLess : ¬ (Decimal.digits c).length ≤
          (Decimal.digits c).length - 1 := by omega
      have hPower : 10 ^ ((Decimal.digits c).length - 1) ≤ c := by
        have hIff := Nat.length_toDigits_le_iff (b := 10) (n := c)
          (k := (Decimal.digits c).length - 1) (by decide)
          (by omega)
        exact not_lt.mp fun hBelow => hLess (hIff.mpr hBelow)
      have hExponent : ((Decimal.digits c).length - 1 : Int) =
          ((Decimal.digits c).length - 1 : Nat) := by omega
      rw [hExponent]
      exact_mod_cast hPower
  · have hIff := Nat.length_toDigits_le_iff (b := 10) (n := c)
      (k := (Decimal.digits c).length) (by decide) hSome
    exact_mod_cast hIff.mp (le_refl _)

/-
  What is read of a numeral rounds like the number nearest to
  it, or is infinite, and then this number is out of reach.
-/
inductive Reads (n : Numeral) : Floating → Prop where
  | finite
      {m : Nat}
      {e : Int}
      (hRound :
        halfUp ((m : ℚ) * 2 ^ e) =
          halfUp (Format.double.near n.magnitude)) :
      Reads n (.finite n.negative m e)
  | infinite
      (hHuge :
        2 ^ (1023 : Int) ≤ Format.double.near n.magnitude) :
      Reads n (.infinite n.negative)

section Reading

variable {n : Numeral}

theorem magnitude_pos (hSome : 0 < n.coefficient) :
    0 < n.magnitude := by
  unfold magnitude
  positivity

/- Zero is read as zero. -/
theorem reads_zero
    (hZero : n.coefficient = 0)
    (e : Int) : Reads n (.finite n.negative 0 e) := by
  have hNone : n.magnitude = 0 := by
    simp [magnitude, hZero]
  have hNear : Format.double.near n.magnitude = n.magnitude := by
    apply Format.near_multiple (n := 0)
    simp [hNone]
  apply Reads.finite
  rw [hNear, hNone, Nat.cast_zero, zero_mul]

/- The digits and the exponent tell the size of a numeral. -/
theorem le_magnitude
    (hSome : 0 < n.coefficient)
    {k : Int}
    (hSize :
      k < n.exponent + (Decimal.digits n.coefficient).length) :
    10 ^ k ≤ n.magnitude := by
  have hTen : (0 : ℚ) < 10 ^ n.exponent := by positivity
  calc (10 : ℚ) ^ k
      ≤ 10 ^ (((Decimal.digits n.coefficient).length - 1 : Int) +
          n.exponent) :=
        zpow_le_zpow_right₀ (by norm_num) (by omega)
    _ = 10 ^ ((Decimal.digits n.coefficient).length - 1 : Int) *
          10 ^ n.exponent := zpow_add₀ (by norm_num) _ _
    _ ≤ n.magnitude :=
        mul_le_mul_of_nonneg_right (digits_size hSome).1 hTen.le

theorem magnitude_lt
    (hSome : 0 < n.coefficient)
    {k : Int}
    (hSize :
      n.exponent + (Decimal.digits n.coefficient).length ≤ k) :
    n.magnitude < 10 ^ k := by
  have hTen : (0 : ℚ) < 10 ^ n.exponent := by positivity
  calc n.magnitude
      < 10 ^ ((Decimal.digits n.coefficient).length : Int) *
          10 ^ n.exponent :=
        mul_lt_mul_of_pos_right (digits_size hSome).2 hTen
    _ = 10 ^ (((Decimal.digits n.coefficient).length : Int) +
          n.exponent) := (zpow_add₀ (by norm_num) _ _).symm
    _ ≤ 10 ^ k := zpow_le_zpow_right₀ (by norm_num) (by omega)

/- A numeral above a power of ten is out of reach. -/
theorem two_zpow_le_magnitude
    (hSome : 0 < n.coefficient)
    (hGreat :
      400 < n.exponent + (Decimal.digits n.coefficient).length) :
    2 ^ (1200 : Int) ≤ n.magnitude := by
  calc (2 : ℚ) ^ (1200 : Int)
      = (2 ^ (3 : Int)) ^ (400 : Int) := zpow_mul _ 3 400
    _ ≤ 10 ^ (400 : Int) :=
        zpow_le_zpow_left₀ (by norm_num) (by norm_num)
          (by norm_num)
    _ ≤ n.magnitude := le_magnitude hSome hGreat

/- A numeral above a power of ten is read as infinity. -/
theorem reads_great
    (hSome : 0 < n.coefficient)
    (hGreat :
      400 < n.exponent + (Decimal.digits n.coefficient).length) :
    Reads n (.infinite n.negative) := by
  apply Reads.infinite
  apply Floating.near_huge (by norm_num)
  exact (Floating.two_zpow_le (by norm_num)).trans
    (two_zpow_le_magnitude hSome hGreat)

/- A numeral below a power of ten is read as zero. -/
theorem reads_small
    (hSome : 0 < n.coefficient)
    (hSmall :
      n.exponent + (Decimal.digits n.coefficient).length < -400)
    (e : Int) : Reads n (.finite n.negative 0 e) := by
  have hTiny : n.magnitude < 1 / 4 := by
    have hTenth := magnitude_lt (k := -1) hSome (by omega)
    norm_num at hTenth
    linarith
  apply Reads.finite
  rw [Floating.near_tiny (magnitude_pos hSome) hTiny,
    Nat.cast_zero, zero_mul, Floating.halfUp, round_zero]

/- The magnitude of a numeral as a ratio of whole numbers. -/
theorem magnitude_eq_ratio (n : Numeral) :
    n.magnitude =
      ((n.coefficient * Nat.pow 10 n.exponent.toNat : Nat) : ℚ) /
        (Nat.pow 10 (-n.exponent).toNat : Nat) := by
  rw [magnitude, Floating.zpow_eq_div (by norm_num) n.exponent]
  simp only [Nat.pow_eq]
  push_cast
  ring

/-
  A numeral that is not zero is rounded as a ratio of two
  whole numbers.
-/
theorem reads_ratio (hSome : 0 < n.coefficient) :
    Reads n (Format.round .double n.negative
      (n.coefficient * Nat.pow 10 n.exponent.toNat)
      (Nat.pow 10 (-n.exponent).toNat)) := by
  have hRatio := n.magnitude_eq_ratio
  have hRound := Format.round_near (f := .double) n.negative
    (by decide)
    (Nat.mul_pos hSome
      (Nat.pow_pos (n := n.exponent.toNat) (by decide : 0 < 10)))
    (Nat.pow_pos (n := (-n.exponent).toNat) (by decide : 0 < 10))
  simp only [Nat.pow_eq] at hRatio hRound ⊢
  rw [← hRatio] at hRound
  rcases hRound with ⟨m, e, -, -, hExponent, hNear, hRead⟩
  rw [hRead]
  by_cases hOver : Format.double.greatestExponent < e
  · rw [if_pos hOver]
    have hLog : 1023 ≤ Int.log 2 n.magnitude := by
      have hGreatest :
          Format.double.greatestExponent = 971 := rfl
      have hLeast : Format.double.leastExponent = -1074 := rfl
      have hPrecision : Format.double.precision = 53 := rfl
      unfold Format.size at hExponent
      omega
    apply Reads.infinite
    apply Floating.near_huge (by norm_num)
    exact (Format.le_log_iff (magnitude_pos hSome) 1023).mpr hLog
  · rw [if_neg hOver]
    apply Reads.finite
    rw [hNear]

end Reading

/- A numeral of any size is read as its rounded value. -/
theorem reads_round (n : Numeral) :
    Reads n (n.round .double) := by
  unfold Numeral.round
  simp only
  by_cases hZero : n.coefficient = 0
  · rw [if_pos hZero]
    exact reads_zero hZero _
  · have hSome : 0 < n.coefficient := Nat.pos_of_ne_zero hZero
    rw [if_neg hZero]
    split_ifs with hGreat hSmall
    · exact reads_great hSome hGreat
    · exact reads_small hSome hSmall _
    · exact reads_ratio hSome

------------------------------------------------------------
-- Short numerals
------------------------------------------------------------

/- A whole number of 53 bits is a number of 64 bits. -/
theorem near_whole
    {k : Nat}
    (hReach : k ≤ 2 ^ 53) :
    Format.double.near (k : ℚ) = k := by
  have hLeast : Format.double.leastExponent = -1074 := rfl
  have hPrecision : Format.double.precision = 53 := rfl
  by_cases hPower : k = 2 ^ 53
  · have hLog : Int.log 2 ((1 : Nat) * 2 ^ (53 : Int) : ℚ) = 53 := by
      have hSame := Int.log_zpow (R := ℚ) (b := 2) (by norm_num) 53
      rw [Nat.cast_one, one_mul]
      exact_mod_cast hSame
    have hSize :
        Format.double.size ((1 : Nat) * 2 ^ (53 : Int)) ≤ 53 := by
      unfold Format.size
      omega
    have hNear := Format.near_eq_self hSize
    rw [hPower]
    norm_num at hNear ⊢
    exact hNear
  · have hSize : Format.double.size (k * 2 ^ (0 : Int)) ≤ 0 := by
      rw [zpow_zero, mul_one]
      by_cases hZero : k = 0
      · rw [hZero, Nat.cast_zero]
        unfold Format.size
        rw [Int.log_zero_right]
        omega
      · have hPos : (0 : ℚ) < k := by
          exact_mod_cast Nat.pos_of_ne_zero hZero
        have hLog : Int.log 2 (k : ℚ) < 53 := by
          by_contra hNot
          have hGreat := (Format.le_log_iff hPos 53).mpr
            (not_lt.mp hNot)
          have hAbove : 2 ^ 53 ≤ k := by exact_mod_cast hGreat
          omega
        unfold Format.size
        omega
    have hNear := Format.near_eq_self hSize
    rw [zpow_zero, mul_one] at hNear
    exact hNear

theorem halfUp_eq_iff
    (a : ℚ)
    (k : Int) :
    halfUp a = k ↔ (k : ℚ) - 1 / 2 ≤ a ∧ a < k + 1 / 2 := by
  rw [halfUp, round_eq, Int.floor_eq_iff]
  constructor
  · rintro ⟨hLow, hHigh⟩
    constructor <;> linarith
  · rintro ⟨hLow, hHigh⟩
    constructor <;> linarith

/-
  A half-way point above a decimal fraction is away from it by
  a unit of its last place at least.
-/
theorem halfway_distance
    {c j : Nat}
    {k : Int}
    (hBelow : (c : ℚ) * 10 ^ (-(j + 1 : Nat) : Int) < k + 1 / 2) :
    (10 : ℚ) ^ (-(j + 1 : Nat) : Int) ≤
      k + 1 / 2 - c * 10 ^ (-(j + 1 : Nat) : Int) := by
  have hPos : (0 : ℚ) < 10 ^ (j + 1) := by positivity
  rw [zpow_neg, zpow_natCast] at hBelow ⊢
  have hHalf : (k : ℚ) + 1 / 2 =
      ((5 * (2 * k + 1) * 10 ^ j : Int) : ℚ) *
        (10 ^ (j + 1))⁻¹ := by
    push_cast
    field_simp
    ring
  rw [hHalf] at hBelow ⊢
  have hLess : (c : ℚ) < ((5 * (2 * k + 1) * 10 ^ j : Int) : ℚ) :=
    lt_of_mul_lt_mul_right hBelow (inv_pos.mpr hPos).le
  have hUnit : (c : ℚ) + 1 ≤
      ((5 * (2 * k + 1) * 10 ^ j : Int) : ℚ) := by
    have hInt : (c : Int) < 5 * (2 * k + 1) * 10 ^ j := by
      exact_mod_cast hLess
    exact_mod_cast Int.add_one_le_of_lt hInt
  have hScaled := mul_le_mul_of_nonneg_right hUnit
    (inv_pos.mpr hPos).le
  rw [add_mul, one_mul] at hScaled
  linarith

/- Half-way points are multiples of a spacing below one. -/
theorem halfway_multiple
    {a : ℚ}
    (j : Nat)
    (hSize : Format.double.size a ≤ -1) :
    ∃ n : Nat, (j : ℚ) + 1 / 2 = n * Format.double.spacing a := by
  have hMultiple := Format.eq_multiple (2 * j + 1) hSize
  have hHalf : (j : ℚ) + 1 / 2 =
      ((2 * j + 1 : Nat) : ℚ) * 2 ^ (-1 : Int) := by
    push_cast
    rw [zpow_neg_one]
    ring
  rw [Int.cast_natCast, ← hHalf] at hMultiple
  exact ⟨_, hMultiple⟩

section Fractions

variable {c j : Nat}

/- A fraction with digits of 53 bits is less than 2^51. -/
theorem log_fraction
    (hDigits : c < 2 ^ 53)
    (hNotTiny : 1 / 4 ≤ (c : ℚ) * 10 ^ (-(j + 1 : Nat) : Int)) :
    -2 ≤ Int.log 2 ((c : ℚ) * 10 ^ (-(j + 1 : Nat) : Int)) ∧
    Int.log 2 ((c : ℚ) * 10 ^ (-(j + 1 : Nat) : Int)) < 51 := by
  have hPos : (0 : ℚ) < c * 10 ^ (-(j + 1 : Nat) : Int) := by
    linarith
  constructor
  · rw [← Format.le_log_iff hPos]
    norm_num at hNotTiny ⊢
    exact hNotTiny
  · by_contra hNot
    have hGreat := (Format.le_log_iff hPos 51).mpr (not_lt.mp hNot)
    have hDigitsQ : (c : ℚ) < 2 ^ (53 : Int) := by
      exact_mod_cast hDigits
    have hTenth : (10 : ℚ) ^ (-(j + 1 : Nat) : Int) ≤
        10 ^ (-1 : Int) :=
      zpow_le_zpow_right₀ (by norm_num) (by omega)
    have hLess : (c : ℚ) * 10 ^ (-(j + 1 : Nat) : Int) ≤
        2 ^ (53 : Int) * 10 ^ (-1 : Int) :=
      mul_le_mul hDigitsQ.le hTenth (by positivity) (by norm_num)
    norm_num at hGreat hLess
    linarith

/-
  The numbers of 64 bits around a fraction with digits of 53
  bits are closer together than its last places.
-/
theorem spacing_fraction
    (hDigits : c < 2 ^ 53)
    (hNotTiny : 1 / 4 ≤ (c : ℚ) * 10 ^ (-(j + 1 : Nat) : Int)) :
    Format.double.size (c * 10 ^ (-(j + 1 : Nat) : Int)) ≤ -1 ∧
    Format.double.spacing (c * 10 ^ (-(j + 1 : Nat) : Int)) / 2 <
      10 ^ (-(j + 1 : Nat) : Int) := by
  have hUnit : (0 : ℚ) < 10 ^ (-(j + 1 : Nat) : Int) := by
    positivity
  have hDigitsQ : (c : ℚ) < 2 ^ (53 : Int) := by
    exact_mod_cast hDigits
  rcases log_fraction hDigits hNotTiny with ⟨hLow, hHigh⟩
  generalize hA : (c : ℚ) * 10 ^ (-(j + 1 : Nat) : Int) = a
    at hNotTiny hLow hHigh ⊢
  have hPos : 0 < a := by linarith
  have hSize : Format.double.size a = Int.log 2 a - 52 := by
    have hLeast : Format.double.leastExponent = -1074 := rfl
    have hPrecision : Format.double.precision = 53 := rfl
    unfold Format.size
    omega
  refine ⟨by omega, ?_⟩
  calc Format.double.spacing a / 2
      = 2 ^ Int.log 2 a * 2 ^ (-53 : Int) := by
        rw [Format.spacing, hSize, ← zpow_add₀ (by norm_num),
          div_eq_mul_inv, ← zpow_neg_one, ← zpow_add₀ (by norm_num)]
        congr 1
        omega
    _ ≤ a * 2 ^ (-53 : Int) :=
        mul_le_mul_of_nonneg_right (Format.log_le hPos)
          (Floating.two_zpow_pos _).le
    _ < 10 ^ (-(j + 1 : Nat) : Int) := by
        rw [← hA, mul_right_comm, zpow_neg 2, ← div_eq_mul_inv]
        apply mul_lt_of_lt_one_left hUnit
        rw [div_lt_one (Floating.two_zpow_pos _)]
        exact hDigitsQ

end Fractions

/- Rounding keeps a magnitude above a half-way point. -/
theorem halfway_le_near
    {a : ℚ}
    {k : Int}
    (hSize : Format.double.size a ≤ -1)
    (hAbove : (k : ℚ) - 1 / 2 ≤ a) :
    (k : ℚ) - 1 / 2 ≤ Format.double.near a := by
  by_cases hFirst : k ≤ 0
  · have hZero : (k : ℚ) ≤ 0 := by exact_mod_cast hFirst
    have hNear := Format.near_nonneg .double a
    linarith
  · obtain ⟨j, hJ⟩ := Int.eq_ofNat_of_zero_le
      (by omega : 0 ≤ k - 1)
    have hPoint : (k : ℚ) - 1 / 2 = j + 1 / 2 := by
      have hNext : k = j + 1 := by omega
      rw [hNext]
      push_cast
      ring
    rcases halfway_multiple j hSize with ⟨n, hN⟩
    rw [hPoint, hN] at hAbove ⊢
    exact Format.le_near hAbove

/-
  A fraction with digits of 53 bits rounds like the number of
  64 bits nearest to it.  That number stays above the
  half-way point below, which is one of its kind, and is
  nearer than the half-way point above.
-/
theorem halfUp_near_fraction
    {c j : Nat}
    (hDigits : c < 2 ^ 53) :
    halfUp (Format.double.near (c * 10 ^ (-(j + 1 : Nat) : Int))) =
      halfUp (c * 10 ^ (-(j + 1 : Nat) : Int)) := by
  have hSpacing := spacing_fraction (j := j) hDigits
  have hDistance (k : Int) := halfway_distance (c := c) (j := j) (k := k)
  have hNonneg : (0 : ℚ) ≤ c * 10 ^ (-(j + 1 : Nat) : Int) := by
    positivity
  generalize (c : ℚ) * 10 ^ (-(j + 1 : Nat) : Int) = a at *
  by_cases hTiny : a < 1 / 4
  · have hNone : halfUp a = 0 := by
      rw [halfUp_eq_iff]
      constructor <;> norm_num <;> linarith
    rw [hNone]
    rcases hNonneg.lt_or_eq with hPos | hZero
    · exact Floating.near_tiny hPos hTiny
    · have hNear := near_whole (k := 0) (by norm_num)
      rw [Nat.cast_zero] at hNear
      rw [← hZero, hNear, Floating.halfUp, round_zero]
  · rcases hSpacing (not_lt.mp hTiny) with ⟨hSize, hClose⟩
    rcases (halfUp_eq_iff a (halfUp a)).mp rfl with
      ⟨hAbove, hBelow⟩
    rw [halfUp_eq_iff]
    refine ⟨halfway_le_near hSize hAbove, ?_⟩
    have hError := abs_le.mp (Format.near_error .double hNonneg)
    have hUnit := hDistance _ hBelow
    linarith

/-
  A numeral of few digits in reach of 53 bits rounds like the
  number of 64 bits nearest to it.
-/
theorem approximate_eq_rounded
    {n : Numeral}
    (hDigits : n.coefficient < 2 ^ 53)
    (hReach : n.magnitude ≤ 2 ^ 53) :
    n.approximate = n.rounded := by
  have hSame : halfUp (Format.double.near n.magnitude) =
      halfUp n.magnitude := by
    unfold magnitude at hReach ⊢
    by_cases hWhole : 0 ≤ n.exponent
    · obtain ⟨j, hJ⟩ := Int.eq_ofNat_of_zero_le hWhole
      have hValue : (n.coefficient : ℚ) * 10 ^ n.exponent =
          (n.coefficient * 10 ^ j : Nat) := by
        rw [hJ]
        push_cast
        rw [zpow_natCast]
      rw [hValue] at hReach ⊢
      rw [near_whole (by exact_mod_cast hReach)]
    · obtain ⟨j, hJ⟩ := Int.eq_ofNat_of_zero_le
        (by omega : 0 ≤ -n.exponent - 1)
      have hExponent : n.exponent = -(j + 1 : Nat) := by omega
      rw [hExponent]
      exact halfUp_near_fraction hDigits
  rw [rounded_eq, approximate, hSame]

end Numeral

end Failover
