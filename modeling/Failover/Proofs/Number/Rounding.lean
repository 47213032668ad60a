import Failover.Number.Floating
import Mathlib.Algebra.Order.Field.Power
import Mathlib.Algebra.Order.Floor.Semifield
import Mathlib.Algebra.Order.Round
import Mathlib.Data.Int.Log
import Mathlib.Data.Rat.Floor
import Mathlib.Tactic.FieldSimp
import Mathlib.Tactic.Linarith
import Mathlib.Tactic.NormNum
import Mathlib.Tactic.Positivity
import Mathlib.Tactic.Ring

/-
  Rounding as a matter of rational numbers.  The numbers of a
  format around a magnitude are multiples of a power of two,
  their spacing; rounding goes to the nearest multiple, and of
  two to the even one.  No number of the format is nearer.

  Key definitions include:
    * `Floating.magnitude`
    * `Floating.halfEven`, `Floating.halfUp`
    * `Floating.Format.spacing`, `Floating.Format.near`
    * `Floating.Format.Fits`

  Main statements:
    * `Floating.Format.near_error`
    * `Floating.Format.near_nearest`
    * `Floating.Format.round_near`
    * `Floating.Format.round_nearest`
-/

namespace Failover

namespace Floating

------------------------------------------------------------
-- Powers
------------------------------------------------------------

/- A power as a ratio of powers with natural exponents. -/
theorem zpow_eq_div
    {b : ℚ}
    (hBase : b ≠ 0)
    (e : Int) :
    b ^ e = b ^ e.toNat / b ^ (-e).toNat := by
  rw [eq_div_iff (pow_ne_zero _ hBase), ← zpow_natCast,
    ← zpow_natCast, ← zpow_add₀ hBase]
  congr 1
  omega

/- Powers of two are positive. -/
theorem two_zpow_pos (e : Int) : (0 : ℚ) < 2 ^ e :=
  zpow_pos (by norm_num) e

/- Powers of two grow with their exponents. -/
theorem two_zpow_le
    {d e : Int}
    (h : d ≤ e) : (2 : ℚ) ^ d ≤ 2 ^ e :=
  zpow_le_zpow_right₀ (by norm_num) h

/- The magnitude of a finite number. -/
def magnitude (x : Floating) : ℚ :=
  x.numerator / x.denominator

/- The magnitude of a number by its significand. -/
theorem magnitude_finite
    (negative : Bool)
    (m : Nat)
    (e : Int) :
    magnitude (.finite negative m e) = m * 2 ^ e := by
  unfold magnitude numerator denominator
  rw [zpow_eq_div (by norm_num) e]
  simp only [Nat.pow_eq]
  push_cast
  ring

------------------------------------------------------------
-- Nearest whole numbers
------------------------------------------------------------

/- The whole number nearest to a magnitude; a tie goes to even. -/
def halfEven (a : ℚ) : Nat :=
  if a - ⌊a⌋₊ < 1 / 2 then ⌊a⌋₊
  else if 1 / 2 < a - ⌊a⌋₊ then ⌊a⌋₊ + 1
  else if ⌊a⌋₊ % 2 = 0 then ⌊a⌋₊
  else ⌊a⌋₊ + 1

section HalfEven

variable {a : ℚ}

/- A whole number is at most one half away. -/
theorem halfEven_error (hA : 0 ≤ a) :
    |(halfEven a : ℚ) - a| ≤ 1 / 2 := by
  have hLow := Nat.floor_le hA
  have hHigh := Nat.lt_floor_add_one a
  rw [abs_le]
  unfold halfEven
  split_ifs
  · constructor <;> linarith
  · push_cast
    constructor <;> linarith
  · constructor <;> linarith
  · push_cast
    constructor <;> linarith

/- Whole numbers stay where they are. -/
@[simp] theorem halfEven_natCast (n : Nat) :
    halfEven (n : ℚ) = n := by
  unfold halfEven
  rw [Nat.floor_natCast, if_pos (by norm_num)]

/- Rounding does not go below a whole number. -/
theorem le_halfEven
    {n : Nat}
    (h : (n : ℚ) ≤ a) : n ≤ halfEven a := by
  have hFloor : n ≤ ⌊a⌋₊ := Nat.le_floor h
  unfold halfEven
  split_ifs <;> omega

/- Rounding does not go above a whole number. -/
theorem halfEven_le
    {n : Nat}
    (hA : 0 ≤ a)
    (h : a ≤ n) : halfEven a ≤ n := by
  by_cases hSame : a = n
  · rw [hSame, halfEven_natCast]
  · have hFloor : ⌊a⌋₊ < n :=
      (Nat.floor_lt hA).mpr (lt_of_le_of_ne h hSame)
    unfold halfEven
    split_ifs <;> omega

/- A rounded number is as near as any whole number. -/
theorem halfEven_nearest
    (hA : 0 ≤ a)
    (n : Int) :
    |(halfEven a : ℚ) - a| ≤ |(n : ℚ) - a| := by
  by_cases hSame : (halfEven a : Int) = n
  · rw [← hSame, Int.cast_natCast]
  · -- Another whole number is at least half a unit away.
    have hApart : (1 : ℚ) ≤ |(n : ℚ) - (halfEven a : Int)| := by
      have hOne : 1 ≤ |n - (halfEven a : Int)| :=
        Int.one_le_abs (sub_ne_zero.mpr (Ne.symm hSame))
      exact_mod_cast hOne
    have hError := halfEven_error hA
    have hTriangle :=
      abs_sub_le (n : ℚ) a ((halfEven a : Int) : ℚ)
    rw [abs_sub_comm a, Int.cast_natCast] at hTriangle
    rw [Int.cast_natCast] at hApart
    linarith

end HalfEven

/- The nearest whole number of a ratio, computed in whole numbers. -/
theorem nearest_eq_halfEven
    (n : Nat)
    {d : Nat}
    (hD : 0 < d) :
    nearest n d = halfEven (n / d : ℚ) := by
  have hPos : (0 : ℚ) < d := by exact_mod_cast hD
  have hFloor : ⌊(n / d : ℚ)⌋₊ = n / d := Nat.floor_div_eq_div n d
  have hRest : (n / d : ℚ) - (n / d : Nat) = (n % d : Nat) / d := by
    have hSplit : ((d * (n / d) + n % d : Nat) : ℚ) = n := by
      rw [Nat.div_add_mod]
    push_cast at hSplit
    rw [eq_div_iff hPos.ne', sub_mul, div_mul_cancel₀ _ hPos.ne']
    linarith
  have hBelow : ((n % d : Nat) / d : ℚ) < 1 / 2 ↔
      2 * (n % d) < d := by
    rw [div_lt_div_iff₀ hPos two_pos]
    norm_cast
    omega
  have hAbove : 1 / 2 < ((n % d : Nat) / d : ℚ) ↔
      d < 2 * (n % d) := by
    rw [div_lt_div_iff₀ two_pos hPos]
    norm_cast
    omega
  unfold nearest halfEven
  rw [hFloor, hRest]
  simp only [hBelow, hAbove]

/- The whole number nearest to a magnitude; a tie goes up. -/
def halfUp (a : ℚ) : Int :=
  round a

/- Half-way cases of a ratio go up, computed in whole numbers. -/
theorem nearestUp_eq_halfUp
    (n : Nat)
    {d : Nat}
    (hD : 0 < d) :
    (nearestUp n d : Int) = halfUp (n / d : ℚ) := by
  have hPos : (0 : ℚ) < d := by exact_mod_cast hD
  have hSum : (n / d : ℚ) + 1 / 2 =
      ((2 * n + d : Nat) : Int) / ((2 * d : Nat) : ℚ) := by
    push_cast
    field_simp
  rw [halfUp, round_eq, hSum, Rat.floor_intCast_div_natCast]
  unfold nearestUp
  norm_cast

/- A floating number is rounded by its magnitude. -/
theorem roundHalfAway_finite
    (negative : Bool)
    (m : Nat)
    (e : Int) :
    roundHalfAway (.finite negative m e) =
      if negative then -halfUp (m * 2 ^ e)
      else halfUp (m * 2 ^ e) := by
  rw [← magnitude_finite negative m e, magnitude,
    ← nearestUp_eq_halfUp _ (denominator_pos _)]
  rfl

------------------------------------------------------------
-- Binary size
------------------------------------------------------------

section Ratios

variable {n d : Nat}

/-
  The quotient of the powers of two below the parts of a ratio
  is at most twice too great or too small.
-/
theorem ratio_bounds
    (hN : 0 < n)
    (hD : 0 < d) :
    (2 : ℚ) ^ ((Nat.log2 n : Int) - Nat.log2 d - 1) ≤ n / d ∧
    (n / d : ℚ) < 2 ^ ((Nat.log2 n : Int) - Nat.log2 d + 1) := by
  have hPosD : (0 : ℚ) < d := by exact_mod_cast hD
  have hLowN : (2 : ℚ) ^ (Nat.log2 n : Int) ≤ n := by
    exact_mod_cast Nat.log2_self_le hN.ne'
  have hHighN : (n : ℚ) < 2 ^ ((Nat.log2 n : Int) + 1) := by
    exact_mod_cast Nat.lt_log2_self
  have hLowD : (2 : ℚ) ^ (Nat.log2 d : Int) ≤ d := by
    exact_mod_cast Nat.log2_self_le hD.ne'
  have hHighD : (d : ℚ) < 2 ^ ((Nat.log2 d : Int) + 1) := by
    exact_mod_cast Nat.lt_log2_self
  constructor
  · rw [le_div_iff₀ hPosD]
    calc (2 : ℚ) ^ ((Nat.log2 n : Int) - Nat.log2 d - 1) * d
        ≤ 2 ^ ((Nat.log2 n : Int) - Nat.log2 d - 1) *
            2 ^ ((Nat.log2 d : Int) + 1) :=
          mul_le_mul_of_nonneg_left hHighD.le
            (two_zpow_pos _).le
      _ = 2 ^ (Nat.log2 n : Int) := by
          rw [← zpow_add₀ (by norm_num)]
          congr 1
          omega
      _ ≤ n := hLowN
  · rw [div_lt_iff₀ hPosD]
    calc (n : ℚ) < 2 ^ ((Nat.log2 n : Int) + 1) := hHighN
      _ = 2 ^ ((Nat.log2 n : Int) - Nat.log2 d + 1) *
            2 ^ (Nat.log2 d : Int) := by
          rw [← zpow_add₀ (by norm_num)]
          congr 1
          omega
      _ ≤ 2 ^ ((Nat.log2 n : Int) - Nat.log2 d + 1) * d :=
          mul_le_mul_of_nonneg_left hLowD (two_zpow_pos _).le

/- A ratio is compared with a power in whole numbers. -/
theorem zpow_le_ratio_iff
    (hD : 0 < d)
    (k : Int) :
    d * Nat.pow 2 k.toNat ≤ n * Nat.pow 2 (-k).toNat ↔
      (2 : ℚ) ^ k ≤ n / d := by
  have hPosD : (0 : ℚ) < d := by exact_mod_cast hD
  rw [zpow_eq_div (by norm_num) k,
    div_le_div_iff₀ (by positivity) hPosD]
  simp only [Nat.pow_eq]
  norm_cast
  rw [Nat.mul_comm d]

/- The logarithm is found by the lengths of two numbers. -/
theorem logRatio_eq_log
    (hN : 0 < n)
    (hD : 0 < d) :
    logRatio n d = Int.log 2 (n / d : ℚ) := by
  have hRatio : (0 : ℚ) < n / d := by positivity
  have hLog (k : Int) :
      (2 : ℚ) ^ k ≤ n / d ↔ k ≤ Int.log 2 (n / d : ℚ) := by
    have h := Int.zpow_le_iff_le_log (b := 2) (by norm_num)
      (x := k) hRatio
    exact_mod_cast h
  rcases ratio_bounds hN hD with ⟨hLeast, hMost⟩
  have hAtLeast := (hLog _).mp hLeast
  have hAtMost := mt (hLog _).mpr (not_le.mpr hMost)
  unfold logRatio
  simp only [zpow_le_ratio_iff hD, hLog]
  split_ifs <;> omega

end Ratios

------------------------------------------------------------
-- Formats
------------------------------------------------------------

namespace Format

/- The exponent of the numbers of a format around a magnitude. -/
def size
    (f : Format)
    (a : ℚ) : Int :=
  max f.leastExponent
    (Int.log 2 a - (f.precision - 1 : Int))

/- The distance of the numbers of a format around a magnitude. -/
def spacing
    (f : Format)
    (a : ℚ) : ℚ :=
  2 ^ f.size a

/-
  A magnitude rounded to a format without a greatest number:
  to the nearest multiple of the spacing, and from half-way
  between two of them to the even one.
-/
def near
    (f : Format)
    (a : ℚ) : ℚ :=
  halfEven (a / f.spacing a) * f.spacing a

/- A finite number of a format. -/
inductive Fits (f : Format) : Floating → Prop where
  | finite
      (negative : Bool)
      {m : Nat}
      {e : Int}
      (hSignificand : m < 2 ^ f.precision)
      (hLeast : f.leastExponent ≤ e)
      (hGreatest : e ≤ f.greatestExponent) :
      Fits f (.finite negative m e)

variable {f : Format} {a : ℚ}

/- Neighbours are apart. -/
theorem spacing_pos (f : Format) (a : ℚ) : 0 < f.spacing a :=
  two_zpow_pos _

/- Rounding keeps magnitudes from being negative. -/
theorem near_nonneg (f : Format) (a : ℚ) : 0 ≤ f.near a :=
  mul_nonneg (Nat.cast_nonneg _) (spacing_pos f a).le

/- Rounding is off by half the spacing at most. -/
theorem near_error
    (f : Format)
    (hA : 0 ≤ a) :
    |f.near a - a| ≤ f.spacing a / 2 := by
  have hPos := spacing_pos f a
  have hError := halfEven_error (div_nonneg hA hPos.le)
  have hScaled : f.near a - a =
      ((halfEven (a / f.spacing a) : ℚ) - a / f.spacing a) *
        f.spacing a := by
    rw [sub_mul, div_mul_cancel₀ _ hPos.ne']
    rfl
  rw [hScaled, abs_mul, abs_of_pos hPos]
  linarith [mul_le_mul_of_nonneg_right hError hPos.le]

/-
  A rounded magnitude is as near as any multiple of the
  spacing.
-/
theorem near_nearest_multiple
    (f : Format)
    (hA : 0 ≤ a)
    (n : Int) :
    |f.near a - a| ≤ |n * f.spacing a - a| := by
  have hPos := spacing_pos f a
  have hNearest := halfEven_nearest (div_nonneg hA hPos.le) n
  have hScaled (k : ℚ) :
      |k * f.spacing a - a| =
        |k - a / f.spacing a| * f.spacing a := by
    rw [← abs_of_pos hPos, ← abs_mul, abs_of_pos hPos, sub_mul,
      div_mul_cancel₀ _ hPos.ne']
  rw [hScaled]
  unfold near
  rw [hScaled]
  exact mul_le_mul_of_nonneg_right hNearest hPos.le

/- Multiples of the spacing stay where they are. -/
theorem near_multiple
    {n : Nat}
    (h : a = n * f.spacing a) : f.near a = a := by
  have hQuotient : a / f.spacing a = n := by
    rw [div_eq_iff (spacing_pos f a).ne']
    exact h
  unfold near
  rw [hQuotient, halfEven_natCast]
  exact h.symm

/- Rounding does not go below a multiple of the spacing. -/
theorem le_near
    {n : Nat}
    (h : n * f.spacing a ≤ a) : n * f.spacing a ≤ f.near a := by
  have hPos := spacing_pos f a
  have hQuotient := le_halfEven ((le_div_iff₀ hPos).mpr h)
  apply mul_le_mul_of_nonneg_right _ hPos.le
  exact_mod_cast hQuotient

/- A magnitude is not below the power of two at its logarithm. -/
theorem log_le
    (hA : 0 < a) :
    (2 : ℚ) ^ Int.log 2 a ≤ a := by
  exact_mod_cast Int.zpow_log_le_self (b := 2) (by norm_num) hA

/- A magnitude is below the next power of two. -/
theorem lt_log (a : ℚ) : a < 2 ^ (Int.log 2 a + 1) := by
  exact_mod_cast
    Int.lt_zpow_succ_log_self (b := 2) (by norm_num) a

/- Smaller powers of two have smaller exponents. -/
theorem le_log_iff
    (hA : 0 < a)
    (k : Int) :
    (2 : ℚ) ^ k ≤ a ↔ k ≤ Int.log 2 a := by
  have h := Int.zpow_le_iff_le_log (b := 2) (by norm_num)
    (x := k) hA
  exact_mod_cast h

/- The power of two below a magnitude, if it is in reach. -/
theorem log_eq_multiple
    (hPrecision : 0 < f.precision)
    (hSize : f.leastExponent < f.size a) :
    (2 : ℚ) ^ Int.log 2 a =
      (2 ^ (f.precision - 1) : Nat) * f.spacing a := by
  have hExponent : Int.log 2 a =
      (f.precision - 1 : Nat) + f.size a := by
    unfold size at hSize ⊢
    omega
  push_cast
  rw [spacing, ← zpow_natCast, ← zpow_add₀ (by norm_num),
    ← hExponent]

/- A number with an exponent in reach is a multiple. -/
theorem eq_multiple
    (m : Nat)
    {e : Int}
    (hExponent : f.size a ≤ e) :
    (m : ℚ) * 2 ^ e =
      ((m * 2 ^ (e - f.size a).toNat : Nat) : Int) *
        f.spacing a := by
  have hPower : (2 : ℚ) ^ e =
      2 ^ (e - f.size a).toNat * 2 ^ f.size a := by
    rw [← zpow_natCast, ← zpow_add₀ (by norm_num)]
    congr 1
    omega
  rw [hPower, spacing]
  push_cast
  ring

/- Numbers with an exponent in reach stay where they are. -/
theorem near_eq_self
    {m : Nat}
    {e : Int}
    (hExponent : f.size (m * 2 ^ e) ≤ e) :
    f.near (m * 2 ^ e) = m * 2 ^ e := by
  have hMultiple := eq_multiple m hExponent
  rw [Int.cast_natCast] at hMultiple
  exact near_multiple hMultiple

/- A number with a smaller exponent is below the power of two. -/
theorem le_log
    {m : Nat}
    {e : Int}
    (hSignificand : m < 2 ^ f.precision)
    (hExponent : e < f.size a)
    (hSize : f.leastExponent < f.size a) :
    (m : ℚ) * 2 ^ e ≤ 2 ^ Int.log 2 a := by
  calc (m : ℚ) * 2 ^ e
      ≤ (2 ^ f.precision : Nat) * 2 ^ (f.size a - 1) := by
        apply mul_le_mul _ (two_zpow_le (by omega))
          (two_zpow_pos _).le (Nat.cast_nonneg _)
        exact_mod_cast hSignificand.le
    _ = 2 ^ Int.log 2 a := by
        push_cast
        rw [← zpow_natCast, ← zpow_add₀ (by norm_num)]
        congr 1
        unfold size at hSize ⊢
        omega

/-
  No number of the format is nearer.  One with a smaller
  exponent is below the power of two below the magnitude,
  and this is a multiple of the spacing.
-/
theorem near_nearest
    {x : Floating}
    (hPrecision : 0 < f.precision)
    (hA : 0 ≤ a)
    (hFits : f.Fits x) :
    |f.near a - a| ≤ |x.magnitude - a| := by
  rcases hFits with ⟨negative, hSignificand, hLeast, -⟩
  rename_i m e
  rw [magnitude_finite]
  by_cases hExponent : f.size a ≤ e
  · rw [eq_multiple m hExponent]
    exact near_nearest_multiple f hA _
  · have hSize : f.leastExponent < f.size a := by omega
    have hBelow := le_log hSignificand (not_le.mp hExponent) hSize
    rcases hA.lt_or_eq with hPos | rfl
    · have hLog := log_le hPos
      have hPower := log_eq_multiple hPrecision hSize
      have hNearest := near_nearest_multiple f hA
        (2 ^ (f.precision - 1) : Nat)
      rw [Int.cast_natCast, ← hPower] at hNearest
      rw [abs_of_nonpos (by linarith : (2 : ℚ) ^ Int.log 2 a - a ≤ 0)]
        at hNearest
      rw [abs_of_nonpos (by linarith : (m : ℚ) * 2 ^ e - a ≤ 0)]
      linarith
    · have hZero : f.near 0 = 0 :=
        near_multiple (n := 0) (by simp)
      rw [hZero, sub_self, abs_zero]
      exact abs_nonneg _

/- The significand is computed in whole numbers. -/
theorem nearest_scaled
    (f : Format)
    (n : Nat)
    {d : Nat}
    (hD : 0 < d) :
    nearest (n * Nat.pow 2 (-f.size (n / d)).toNat)
      (d * Nat.pow 2 (f.size (n / d)).toNat) =
        halfEven ((n / d) / f.spacing (n / d)) := by
  have hDenominator : 0 < d * Nat.pow 2 (f.size (n / d)).toNat :=
    Nat.mul_pos hD (Nat.two_pow_pos _)
  rw [nearest_eq_halfEven _ hDenominator]
  congr 1
  rw [spacing, zpow_eq_div (by norm_num) (f.size (n / d))]
  simp only [Nat.pow_eq]
  push_cast
  field_simp

/- The significand has too many bits only as a power of two. -/
theorem significand_le
    (f : Format)
    (hA : 0 ≤ a) :
    halfEven (a / f.spacing a) ≤ 2 ^ f.precision := by
  apply halfEven_le (div_nonneg hA (spacing_pos f _).le)
  rw [div_le_iff₀ (spacing_pos f _)]
  apply (lt_log a).le.trans
  rw [spacing, Nat.cast_pow, Nat.cast_ofNat, ← zpow_natCast,
    ← zpow_add₀ (by norm_num)]
  apply two_zpow_le
  unfold size
  omega

/- The greatest significand but one is a power of two. -/
theorem half_precision (hPrecision : 0 < f.precision) :
    2 ^ f.precision = 2 ^ (f.precision - 1) * 2 := by
  rw [← pow_succ]
  congr 1
  omega

section Round

variable {n d : Nat}

/- The spacing is found by the lengths of two numbers. -/
theorem size_eq_logRatio
    (f : Format)
    (hN : 0 < n)
    (hD : 0 < d) :
    f.size (n / d) =
      max f.leastExponent
        (logRatio n d - (f.precision - 1 : Int)) := by
  rw [logRatio_eq_log hN hD]
  rfl

/- Rounding keeps the exponent of the spacing. -/
theorem round_short
    (negative : Bool)
    (hN : 0 < n)
    (hD : 0 < d)
    (hShort : halfEven ((n / d : ℚ) / f.spacing (n / d)) ≠
      2 ^ f.precision) :
    f.round negative n d =
      if f.greatestExponent < f.size (n / d) then
        .infinite negative
      else .finite negative
        (halfEven ((n / d : ℚ) / f.spacing (n / d)))
        (f.size (n / d)) := by
  unfold Format.round
  rw [if_neg hN.ne', ← size_eq_logRatio f hN hD]
  simp only [nearest_scaled f n hD]
  simp [hShort]

/- A significand that has become a power of two is halved. -/
theorem round_full
    (negative : Bool)
    (hPrecision : 0 < f.precision)
    (hN : 0 < n)
    (hD : 0 < d)
    (hFull : halfEven ((n / d : ℚ) / f.spacing (n / d)) =
      2 ^ f.precision) :
    f.round negative n d =
      if f.greatestExponent < f.size (n / d) + 1 then
        .infinite negative
      else .finite negative (2 ^ (f.precision - 1))
        (f.size (n / d) + 1) := by
  have hQuotient : 2 ^ f.precision / 2 =
      2 ^ (f.precision - 1) := by
    rw [half_precision hPrecision, Nat.mul_div_cancel _ two_pos]
  unfold Format.round
  rw [if_neg hN.ne', ← size_eq_logRatio f hN hD]
  simp only [nearest_scaled f n hD]
  rw [hFull]
  simp [hQuotient]

/- The magnitude is rounded to a number of the format. -/
theorem round_near
    (negative : Bool)
    (hPrecision : 0 < f.precision)
    (hN : 0 < n)
    (hD : 0 < d) :
    ∃ (m : Nat) (e : Int),
      m < 2 ^ f.precision ∧
      f.size (n / d) ≤ e ∧ e ≤ f.size (n / d) + 1 ∧
      (m : ℚ) * 2 ^ e = f.near (n / d) ∧
      f.round negative n d =
        if f.greatestExponent < e then .infinite negative
        else .finite negative m e := by
  have hPos : (0 : ℚ) < n / d := by positivity
  have hMost := significand_le f hPos.le
  by_cases hFull : halfEven ((n / d : ℚ) / f.spacing (n / d)) =
      2 ^ f.precision
  · refine ⟨2 ^ (f.precision - 1), f.size (n / d) + 1,
      ?_, by omega, le_refl _, ?_,
      round_full negative hPrecision hN hD hFull⟩
    · exact Nat.pow_lt_pow_right (by norm_num) (by omega)
    · rw [near, hFull, half_precision hPrecision, spacing,
        zpow_add₀ (by norm_num)]
      push_cast
      ring
  · exact ⟨_, f.size (n / d), lt_of_le_of_ne hMost hFull,
      le_refl _, by omega, rfl,
      round_short negative hN hD hFull⟩

/- A finite result is the nearest number of the format. -/
theorem round_nearest
    (negative : Bool)
    (hPrecision : 0 < f.precision)
    (hN : 0 < n)
    (hD : 0 < d)
    (hFinite : (f.round negative n d).isFinite = true) :
    f.Fits (f.round negative n d) ∧
    ∀ x, f.Fits x →
      |(f.round negative n d).magnitude - n / d| ≤
        |x.magnitude - n / d| := by
  obtain ⟨m, e, hSignificand, hSize, -, hNear, hRound⟩ :=
    round_near negative hPrecision hN hD
  have hPos : (0 : ℚ) ≤ n / d := by positivity
  have hLeast : f.leastExponent ≤ f.size (n / d) :=
    le_max_left ..
  rw [hRound] at hFinite ⊢
  split at hFinite
  · cases hFinite
  · next hGreatest =>
    rw [if_neg hGreatest, magnitude_finite, hNear]
    exact ⟨.finite _ hSignificand (by omega) (not_lt.mp hGreatest),
      fun x hX => near_nearest hPrecision hPos hX⟩

end Round

end Format

end Floating

end Failover
