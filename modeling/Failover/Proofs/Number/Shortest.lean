import Failover.Number.Shortest
import Failover.Proofs.Number.Nearest
import Mathlib.Tactic.GCongr

/-
  The fewest digits of a floating number read back as it.  All
  the magnitudes of its interval round to the number; the digits
  are a point in the interval, and some grid that is tried has
  such a point, as the finest one has one in each half of it.

  Key definitions include:
    * `Floating.Format.IsForm`
    * `Shortest.Interval.Contains`

  Main statements:
    * `Floating.Format.round_of_contains`
    * `Shortest.search_holds`
    * `Floating.shortest_contains`
    * `Numeral.round_shortest`
-/

namespace Failover

namespace Floating

------------------------------------------------------------
-- Rounding into a number
------------------------------------------------------------

/- A magnitude rounds to the whole number it is nearest to. -/
theorem halfEven_eq
    {m : Nat}
    {b : ℚ}
    (hNonneg : 0 ≤ b)
    (hLow : (m : ℚ) - 1 / 2 ≤ b)
    (hHigh : b ≤ m + 1 / 2)
    (hTie : m % 2 = 1 → (m : ℚ) - 1 / 2 < b ∧ b < m + 1 / 2) :
    halfEven b = m := by
  unfold halfEven
  by_cases hAbove : (m : ℚ) ≤ b
  · have hFloor : ⌊b⌋₊ = m := by
      rw [Nat.floor_eq_iff hNonneg]
      constructor <;> linarith
    rw [hFloor]
    split_ifs with hBelow hOver hEven
    · rfl
    · linarith
    · rfl
    · linarith [(hTie (by omega)).2]
  · obtain ⟨k, rfl⟩ : ∃ k, m = k + 1 := by
      refine ⟨m - 1, ?_⟩
      have hSome : m ≠ 0 := by
        rintro rfl
        exact hAbove (by exact_mod_cast hNonneg)
      omega
    push_cast at hLow hHigh hTie hAbove
    have hFloor : ⌊b⌋₊ = k := by
      rw [Nat.floor_eq_iff hNonneg]
      constructor <;> linarith
    rw [hFloor]
    split_ifs with hBelow hOver hEven
    · linarith
    · rfl
    · linarith [(hTie (by omega)).1]
    · rfl

namespace Format

/-
  A significand and an exponent that a format has: there is a
  bit in the first place, or the exponent is the least one.
-/
structure IsForm
    (f : Format)
    (m : Nat)
    (e : Int) : Prop where
  bits : m < 2 ^ f.precision
  least : f.leastExponent ≤ e
  greatest : e ≤ f.greatestExponent
  normal : 2 ^ (f.precision - 1) ≤ m ∨ e = f.leastExponent

variable {f : Format} {m : Nat} {e : Int} {a : ℚ}

/- The exponent around a magnitude above the first place. -/
theorem size_eq
    (hPrecision : 0 < f.precision)
    (hLeast : f.leastExponent ≤ e)
    (hPos : 0 < a)
    (hLow : (2 : ℚ) ^ (f.precision - 1) * 2 ^ e ≤ a ∨
      e = f.leastExponent)
    (hHigh : a < 2 ^ f.precision * 2 ^ e) :
    f.size a = e := by
  rw [← zpow_natCast, ← zpow_add₀ (by norm_num)] at hHigh
  have hMost : Int.log 2 a < f.precision + e :=
    not_le.mp fun h => not_le.mpr hHigh ((le_log_iff hPos _).mpr h)
  unfold size
  rcases hLow with hLow | rfl
  · rw [← zpow_natCast, ← zpow_add₀ (by norm_num),
      le_log_iff hPos] at hLow
    omega
  · omega

end Format

end Floating

namespace Shortest

variable {f : Floating.Format} {m : Nat} {e : Int} {a : ℚ}

------------------------------------------------------------
-- Intervals
------------------------------------------------------------

/- A magnitude between the ends of an interval. -/
def Interval.Contains
    (i : Interval)
    (a : ℚ) : Prop :=
  if i.closed then
    i.low ≤ a * i.denominator ∧ a * i.denominator ≤ i.high
  else
    i.low < a * i.denominator ∧ a * i.denominator < i.high

/- Points of a grid are compared in whole numbers. -/
theorem Interval.holds_iff
    (i : Interval)
    (c : Nat)
    (k : Int) :
    i.holds c k = true ↔ i.Contains (c * 10 ^ k) := by
  have hPos : (0 : ℚ) < 10 ^ (-k).toNat := by positivity
  have hPoint : (c : ℚ) * 10 ^ k * i.denominator =
      (c * 10 ^ k.toNat * i.denominator : Nat) /
        10 ^ (-k).toNat := by
    rw [Floating.zpow_eq_div (by norm_num) k]
    push_cast
    ring
  unfold holds Contains
  rw [hPoint, le_div_iff₀ hPos, div_le_iff₀ hPos,
    lt_div_iff₀ hPos, div_lt_iff₀ hPos]
  simp only [Nat.pow_eq]
  split_ifs
  · simp only [Bool.and_eq_true, decide_eq_true_eq]
    norm_cast
  · simp only [Bool.and_eq_true, decide_eq_true_eq]
    norm_cast

/- How far the interval of a number reaches down. -/
def reach
    (f : Floating.Format)
    (m : Nat)
    (e : Int) : ℚ :=
  if m = 2 ^ (f.precision - 1) ∧ f.leastExponent < e then 1 / 4
  else 1 / 2

theorem reach_le
    (f : Floating.Format)
    (m : Nat)
    (e : Int) : reach f m e ≤ 1 / 2 := by
  unfold reach
  split_ifs <;> norm_num

theorem low_eq
    (f : Floating.Format)
    (hM : 0 < m)
    (e : Int) :
    ((interval f m e).low : ℚ) =
      (m - reach f m e) * (4 * 2 ^ e.toNat) := by
  unfold interval reach
  simp only [Nat.pow_eq]
  split_ifs
  · push_cast [show 1 ≤ 4 * m by omega]
    ring
  · push_cast [show 2 ≤ 4 * m by omega]
    ring

theorem high_eq
    (f : Floating.Format)
    (m : Nat)
    (e : Int) :
    ((interval f m e).high : ℚ) =
      (m + 1 / 2) * (4 * 2 ^ e.toNat) := by
  unfold interval
  simp only [Nat.pow_eq]
  push_cast
  ring

theorem scaled_eq
    (f : Floating.Format)
    (m : Nat)
    (e : Int)
    (a : ℚ) :
    a * (interval f m e).denominator =
      a / 2 ^ e * (4 * 2 ^ e.toNat) := by
  rw [Floating.zpow_eq_div (by norm_num) e]
  unfold interval
  simp only [Nat.pow_eq]
  push_cast
  field_simp

/- A magnitude in the interval, in units of the number's own. -/
theorem bounds_of_contains
    (hM : 0 < m)
    (hContains : (interval f m e).Contains a) :
    (m : ℚ) - reach f m e ≤ a / 2 ^ e ∧
    a / 2 ^ e ≤ m + 1 / 2 ∧
    (m % 2 = 1 →
      (m : ℚ) - reach f m e < a / 2 ^ e ∧
      a / 2 ^ e < m + 1 / 2) := by
  have hUnit : (0 : ℚ) < 4 * 2 ^ e.toNat := by positivity
  unfold Interval.Contains at hContains
  rw [low_eq f hM, high_eq, scaled_eq] at hContains
  by_cases hEven : m % 2 = 0
  · have hClosed : (interval f m e).closed = true :=
      decide_eq_true hEven
    rw [if_pos hClosed] at hContains
    exact ⟨le_of_mul_le_mul_right hContains.1 hUnit,
      le_of_mul_le_mul_right hContains.2 hUnit,
      fun hOdd => by omega⟩
  · have hOpen : (interval f m e).closed = false :=
      decide_eq_false hEven
    rw [hOpen, if_neg Bool.false_ne_true] at hContains
    have hLow := lt_of_mul_lt_mul_right hContains.1 hUnit.le
    have hHigh := lt_of_mul_lt_mul_right hContains.2 hUnit.le
    exact ⟨hLow.le, hHigh.le, fun _ => ⟨hLow, hHigh⟩⟩

/- An interval spans few powers of two. -/
theorem le_of_contains
    (hM : 0 < m)
    (hContains : (interval f m e).Contains a) :
    (2 : ℚ) ^ (e - 1) ≤ a := by
  have hLow := (bounds_of_contains hM hContains).1
  have hReach := reach_le f m e
  have hM' : (1 : ℚ) ≤ m := by exact_mod_cast hM
  rw [zpow_sub_one₀ (by norm_num), mul_comm,
    ← le_div_iff₀ (Floating.two_zpow_pos e)]
  linarith

theorem lt_of_contains
    (hM : 0 < m)
    (hBits : m < 2 ^ f.precision)
    (hContains : (interval f m e).Contains a) :
    a < 2 ^ (f.precision + e) := by
  have hHigh := (bounds_of_contains hM hContains).2.1
  have hBits' : (m : ℚ) + 1 ≤ 2 ^ f.precision := by
    exact_mod_cast hBits
  rw [zpow_add₀ (by norm_num), zpow_natCast,
    ← div_lt_iff₀ (Floating.two_zpow_pos e)]
  linarith

end Shortest

namespace Floating.Format

open Shortest

variable {f : Format} {m n d : Nat} {e : Int}

/- A magnitude whose spacing has the exponent of a number. -/
theorem round_of_size
    (negative : Bool)
    (hForm : f.IsForm m e)
    (hN : 0 < n)
    (hD : 0 < d)
    (hSize : f.size (n / d) = e)
    (hLow : (m : ℚ) - 1 / 2 ≤ n / d / 2 ^ e)
    (hHigh : (n / d : ℚ) / 2 ^ e ≤ m + 1 / 2)
    (hTie : m % 2 = 1 →
      (m : ℚ) - 1 / 2 < n / d / 2 ^ e ∧
      (n / d : ℚ) / 2 ^ e < m + 1 / 2) :
    f.round negative n d = .finite negative m e := by
  have hSignificand :
      halfEven ((n / d : ℚ) / f.spacing (n / d)) = m := by
    rw [spacing, hSize]
    have hUnit := two_zpow_pos e
    exact halfEven_eq (by positivity) hLow hHigh hTie
  have hShort := hForm.bits.ne
  rw [← hSignificand] at hShort
  rw [round_short negative hN hD hShort, hSignificand, hSize,
    if_neg (not_lt.mpr hForm.greatest)]

/-
  Below a power of two the numbers are closer together, so a
  magnitude just below rounds to it with one bit too many.
-/
theorem round_below_power
    (negative : Bool)
    (hPrecision : 0 < f.precision)
    (hForm : f.IsForm (2 ^ (f.precision - 1)) e)
    (hAbove : f.leastExponent < e)
    (hN : 0 < n)
    (hD : 0 < d)
    (hLow : (2 : ℚ) ^ (f.precision - 1) - 1 / 4 ≤ n / d / 2 ^ e)
    (hHigh : (n / d : ℚ) / 2 ^ e < 2 ^ (f.precision - 1)) :
    f.round negative n d =
      .finite negative (2 ^ (f.precision - 1)) e := by
  have hPos : (0 : ℚ) < n / d := by positivity
  have hOne : (1 : ℚ) ≤ 2 ^ (f.precision - 1) :=
    one_le_pow₀ (by norm_num)
  have hFull := half_precision hPrecision
  have hFullQ : (2 : ℚ) ^ f.precision =
      2 ^ (f.precision - 1) * 2 := by exact_mod_cast hFull
  have hHalfPos := two_zpow_pos (e - 1)
  have hScaled : (n / d : ℚ) / 2 ^ e * 2 =
      n / d / 2 ^ (e - 1) := by
    have hUnit : (2 : ℚ) ^ e = 2 ^ (e - 1) * 2 := by
      rw [← zpow_add_one₀ (by norm_num), Int.sub_add_cancel]
    rw [hUnit]
    field_simp
  have hSize : f.size (n / d) = e - 1 := by
    apply size_eq hPrecision (by omega) hPos
    · rw [← le_div_iff₀ hHalfPos, ← hScaled]
      exact .inl (by linarith)
    · rw [← div_lt_iff₀ hHalfPos, ← hScaled]
      linarith
  have hSignificand :
      halfEven ((n / d : ℚ) / f.spacing (n / d)) =
        2 ^ f.precision := by
    rw [spacing, hSize, ← hScaled]
    apply halfEven_eq
    · linarith
    · push_cast
      linarith
    · push_cast
      linarith
    · intro hOdd
      omega
  rw [round_full negative hPrecision hN hD hSignificand, hSize,
    Int.sub_add_cancel, if_neg (not_lt.mpr hForm.greatest)]

/- A magnitude in the interval of a number rounds to it. -/
theorem round_of_contains
    (negative : Bool)
    (hPrecision : 0 < f.precision)
    (hForm : f.IsForm m e)
    (hM : 0 < m)
    (hN : 0 < n)
    (hD : 0 < d)
    (hContains : (interval f m e).Contains (n / d)) :
    f.round negative n d = .finite negative m e := by
  have hPos : (0 : ℚ) < n / d := by positivity
  have hUnit := two_zpow_pos e
  obtain ⟨hLow, hHigh, hTie⟩ := bounds_of_contains hM hContains
  have hReach := reach_le f m e
  by_cases hFirst : (2 : ℚ) ^ (f.precision - 1) ≤ n / d / 2 ^ e ∨
      e = f.leastExponent
  · have hBits : (m : ℚ) + 1 ≤ 2 ^ f.precision := by
      exact_mod_cast hForm.bits
    have hSize : f.size (n / d) = e := by
      apply size_eq hPrecision hForm.least hPos
      · rwa [← le_div_iff₀ hUnit]
      · rw [← div_lt_iff₀ hUnit]
        linarith
    apply round_of_size negative hForm hN hD hSize _ hHigh
    · intro hOdd
      have hStrict := hTie hOdd
      constructor <;> linarith
    · linarith
  · obtain ⟨hBelow, hLeast⟩ := not_or.mp hFirst
    -- Only a power of two has smaller magnitudes than itself.
    have hM' : m = 2 ^ (f.precision - 1) := by
      have hNormal := hForm.normal.resolve_right hLeast
      by_contra hOther
      have hMore : (2 : ℚ) ^ (f.precision - 1) + 1 ≤ m := by
        exact_mod_cast (by omega : 2 ^ (f.precision - 1) + 1 ≤ m)
      linarith
    have hAbove := lt_of_le_of_ne hForm.least (Ne.symm hLeast)
    rw [reach, if_pos ⟨hM', hAbove⟩, hM'] at hLow
    push_cast at hLow
    rw [hM'] at hForm ⊢
    exact round_below_power negative hPrecision hForm hAbove hN
      hD hLow (not_le.mp hBelow)

end Floating.Format

------------------------------------------------------------
-- Grids
------------------------------------------------------------

namespace Shortest

variable {tie : Tie} {i : Interval} {k least : Int}
  {s : Scientific}

/- The point that is taken of a grid lies in the interval. -/
theorem onGrid?_holds
    (hTaken : onGrid? tie i k = some s) :
    i.holds s.coefficient s.exponent = true := by
  unfold onGrid? at hTaken
  simp only at hTaken
  split at hTaken
  · cases hTaken
  · next hBelow _ =>
    cases hTaken
    exact hBelow
  · next _ hAbove =>
    cases hTaken
    exact hAbove
  · next hBelow hAbove =>
    split_ifs at hTaken <;> cases hTaken
    · exact hBelow
    · exact hAbove
    · exact hBelow
    · exact hAbove

/- The search finds a point, or gives up. -/
theorem search_cases
    (tie : Tie)
    (i : Interval)
    (least : Int)
    (n : Nat) :
    i.holds (search tie i least n).coefficient
      (search tie i least n).exponent = true ∨
    search tie i least n = ⟨0, 0⟩ := by
  induction n with
  | zero =>
      unfold search
      cases hTaken : onGrid? tie i least with
      | none => exact .inr rfl
      | some s => exact .inl (onGrid?_holds hTaken)
  | succ n ih =>
      unfold search
      split
      · next hTaken => exact .inl (onGrid?_holds hTaken)
      · exact ih

/- If the finest grid has a point, the search finds one. -/
theorem search_holds
    (hFinest : (onGrid? tie i least).isSome = true)
    (n : Nat) :
    i.holds (search tie i least n).coefficient
      (search tie i least n).exponent = true := by
  induction n with
  | zero =>
      obtain ⟨s, hTaken⟩ := Option.isSome_iff_exists.mp hFinest
      unfold search
      rw [hTaken]
      exact onGrid?_holds hTaken
  | succ n ih =>
      unfold search
      split
      · next hTaken => exact onGrid?_holds hTaken
      · exact ih

theorem Interval.holds_of_lt
    {c : Nat}
    (hLow : i.low * Nat.pow 10 (-k).toNat <
      c * Nat.pow 10 k.toNat * i.denominator)
    (hHigh : c * Nat.pow 10 k.toNat * i.denominator <
      i.high * Nat.pow 10 (-k).toNat) :
    i.holds c k = true := by
  unfold holds
  simp only
  split_ifs
  · simp only [Bool.and_eq_true, decide_eq_true_eq]
    exact ⟨hLow.le, hHigh.le⟩
  · simp only [Bool.and_eq_true, decide_eq_true_eq]
    exact ⟨hLow, hHigh⟩

/-
  A grid whose unit fits above the number in its interval has
  a point there: the first one after the number.
-/
theorem onGrid?_isSome
    (tie : Tie)
    (hPos : 0 < i.denominator)
    (hValue : i.low ≤ i.value)
    (hFine : i.value * Nat.pow 10 (-k).toNat +
        Nat.pow 10 k.toNat * i.denominator <
      i.high * Nat.pow 10 (-k).toNat) :
    (onGrid? tie i k).isSome = true := by
  have hUnit : 0 < Nat.pow 10 k.toNat * i.denominator :=
    Nat.mul_pos (Nat.pow_pos (by decide)) hPos
  have hLow : i.low * Nat.pow 10 (-k).toNat ≤
      i.value * Nat.pow 10 (-k).toNat :=
    Nat.mul_le_mul_right _ hValue
  have hHolds : i.holds
      (i.value * Nat.pow 10 (-k).toNat /
        (Nat.pow 10 k.toNat * i.denominator) + 1) k = true := by
    generalize i.value * Nat.pow 10 (-k).toNat = v at *
    have hNext := Nat.lt_mul_div_succ v hUnit
    have hFloor := Nat.mul_div_le v
      (Nat.pow 10 k.toNat * i.denominator)
    rw [Nat.mul_add, Nat.mul_one] at hNext
    apply Interval.holds_of_lt <;>
      rw [Nat.mul_assoc, Nat.mul_comm (_ + 1), Nat.mul_add,
        Nat.mul_one] <;>
      omega
  unfold onGrid?
  simp only
  split
  · next hAbove => cases hHolds.symm.trans hAbove
  · rfl
  · rfl
  · split_ifs <;> rfl

/- A grid finer than half the unit of a number has a point. -/
theorem onGrid?_fine
    (tie : Tie)
    (f : Floating.Format)
    (m : Nat)
    {e : Int}
    (hFine : (10 : ℚ) ^ k * 2 < 2 ^ e) :
    (onGrid? tie (interval f m e) k).isSome = true := by
  have hUnit : 10 ^ k.toNat * (4 * 2 ^ (-e).toNat) <
      2 * 2 ^ e.toNat * 10 ^ (-k).toNat := by
    rw [Floating.zpow_eq_div (by norm_num) k,
      Floating.zpow_eq_div (by norm_num) e, div_mul_eq_mul_div,
      div_lt_div_iff₀ (by positivity) (by positivity)] at hFine
    have hWhole : 10 ^ k.toNat * 2 * 2 ^ (-e).toNat <
        2 ^ e.toNat * 10 ^ (-k).toNat := by exact_mod_cast hFine
    linarith
  apply onGrid?_isSome
  · exact Nat.mul_pos (by decide) (Nat.pow_pos (by decide))
  · exact Nat.mul_le_mul_right _ (Nat.sub_le _ _)
  · change 4 * m * 2 ^ e.toNat * 10 ^ (-k).toNat +
      10 ^ k.toNat * (4 * 2 ^ (-e).toNat) <
        (4 * m + 2) * 2 ^ e.toNat * 10 ^ (-k).toNat
    linarith

end Shortest

------------------------------------------------------------
-- Numbers of 64 bits
------------------------------------------------------------

namespace Floating

/-
  Ten lies between the powers of two with the exponents 93/28
  and 10/3.
-/
theorem ten_zpow_le
    {a b : Int}
    (hAbove : 10 * a ≤ 3 * b)
    (hBelow : 93 * a ≤ 28 * b) :
    (10 : ℚ) ^ a ≤ 2 ^ b := by
  have hTen : (0 : ℚ) ≤ 10 ^ a := by positivity
  rcases le_total 0 a with hSign | hSign
  · apply le_of_pow_le_pow_left₀ (n := 3) (by decide)
      (two_zpow_pos b).le
    obtain ⟨n, rfl⟩ := Int.eq_ofNat_of_zero_le hSign
    calc ((10 : ℚ) ^ (n : Int)) ^ 3
        = (10 ^ 3) ^ n := by
          rw [zpow_natCast, ← pow_mul, Nat.mul_comm, pow_mul]
      _ ≤ (2 ^ 10) ^ n :=
          pow_le_pow_left₀ (by norm_num) (by norm_num) n
      _ = 2 ^ ((10 * n : Nat) : Int) := by
          rw [zpow_natCast, pow_mul]
      _ ≤ 2 ^ (b * 3) := two_zpow_le (by push_cast; omega)
      _ = (2 ^ b) ^ 3 := by
          rw [zpow_mul]
          rfl
  · apply le_of_pow_le_pow_left₀ (n := 28) (by decide)
      (two_zpow_pos b).le
    obtain ⟨n, hN⟩ := Int.eq_ofNat_of_zero_le
      (Int.neg_nonneg_of_nonpos hSign)
    have hA : a = -(n : Int) := by omega
    subst hA
    calc ((10 : ℚ) ^ (-(n : Int))) ^ 28
        = ((10 ^ 28) ^ n)⁻¹ := by
          rw [zpow_neg, inv_pow, zpow_natCast, ← pow_mul,
            ← pow_mul, Nat.mul_comm]
      _ ≤ ((2 ^ 93) ^ n)⁻¹ := by
          apply inv_anti₀ (by positivity)
          exact pow_le_pow_left₀ (by norm_num) (by norm_num) n
      _ = 2 ^ (-((93 * n : Nat) : Int)) := by
          rw [zpow_neg, zpow_natCast, pow_mul]
      _ ≤ 2 ^ (b * 28) := two_zpow_le (by push_cast; omega)
      _ = (2 ^ b) ^ 28 := by
          rw [zpow_mul]
          rfl

section Double

open Shortest (interval)

variable {m : Nat} {e : Int}

/- The digits are a point in the interval of their number. -/
theorem shortest_contains
    (tie : Shortest.Tie)
    (hForm : Format.double.IsForm m e)
    (hM : 0 < m) :
    (interval .double m e).Contains
      ((shortest .double tie m e).coefficient *
        10 ^ (shortest .double tie m e).exponent) := by
  rw [← Shortest.Interval.holds_iff]
  have hBits : Nat.log2 m < 53 :=
    (Nat.log2_lt hM.ne').mpr hForm.bits
  have hLeast : -1074 ≤ e := hForm.least
  have hGreatest : e ≤ 971 := hForm.greatest
  unfold shortest
  rw [if_neg hM.ne']
  apply Shortest.search_holds
  apply Shortest.onGrid?_fine
  generalize hK : (e + Nat.log2 m) * 30103 / 100000 + 1 - 19 = k
  have hPower : (10 : ℚ) ^ k ≤ 2 ^ (e - 2) :=
    ten_zpow_le (by omega) (by omega)
  calc (10 : ℚ) ^ k * 2
      ≤ 2 ^ (e - 2) * 2 := by linarith
    _ = 2 ^ (e - 1) := by
        rw [← zpow_add_one₀ (by norm_num)]
        congr 1
        omega
    _ < 2 ^ e := zpow_lt_zpow_right₀ (by norm_num) (by omega)

end Double

/-
  Only zero has no digit but zero, and no zeros are written
  after it.
-/
theorem shortest_eq_zero
    {f : Format}
    {tie : Shortest.Tie}
    {m : Nat}
    {e : Int}
    (hZero : (shortest f tie m e).coefficient = 0) :
    (shortest f tie m e).exponent = 0 := by
  by_cases hM : m = 0
  · rw [shortest, if_pos hM]
  · unfold shortest at hZero ⊢
    rw [if_neg hM] at hZero ⊢
    rcases Shortest.search_cases tie (Shortest.interval f m e)
      ((e + Nat.log2 m) * 30103 / 100000 + 1 - 19) 20 with
      hHolds | hNone
    · rw [hZero, Shortest.Interval.holds_iff, Nat.cast_zero,
        zero_mul] at hHolds
      have hPos := Shortest.le_of_contains
        (Nat.pos_of_ne_zero hM) hHolds
      exact absurd hPos (not_le.mpr (two_zpow_pos _))
    · rw [hNone]

end Floating

------------------------------------------------------------
-- Numerals
------------------------------------------------------------

namespace Numeral

open Floating (Format two_zpow_le two_zpow_pos)
open Shortest (interval)

variable {n : Numeral} {m : Nat} {e : Int}

/- A numeral in the interval of a number is read as it. -/
theorem round_of_contains
    (hForm : Format.double.IsForm m e)
    (hM : 0 < m)
    (hContains : (interval .double m e).Contains n.magnitude) :
    n.round .double = .finite n.negative m e := by
  have hLeast : -1074 ≤ e := hForm.least
  have hGreatest : e ≤ 971 := hForm.greatest
  have hMore : (2 : ℚ) ^ (-1076 : Int) < n.magnitude :=
    (zpow_lt_zpow_right₀ (by norm_num) (by omega)).trans_le
      (Shortest.le_of_contains hM hContains)
  have hLess : n.magnitude < 2 ^ (1200 : Int) :=
    (Shortest.lt_of_contains hM hForm.bits hContains).trans_le
      (two_zpow_le (by
        change ((53 : Nat) : Int) + e ≤ 1200
        omega))
  have hSome : 0 < n.coefficient := by
    by_contra hNone
    have hZero : n.magnitude = 0 := by
      simp [magnitude, Nat.eq_zero_of_not_pos hNone]
    rw [hZero] at hMore
    exact absurd hMore (not_lt.mpr (two_zpow_pos _).le)
  unfold Numeral.round
  simp only
  rw [if_neg hSome.ne']
  split_ifs with hGreat hSmall
  · exact absurd (two_zpow_le_magnitude hSome hGreat)
      (not_le.mpr hLess)
  · have hTiny := (magnitude_lt (k := -401) hSome (by omega)).trans_le
      (Floating.ten_zpow_le (b := -1076) (by norm_num) (by norm_num))
    exact absurd hTiny (not_lt.mpr hMore.le)
  · apply Format.round_of_contains _ (by decide) hForm hM
    · exact Nat.mul_pos hSome (Nat.pow_pos (by decide))
    · exact Nat.pow_pos (by decide)
    · rw [← magnitude_eq_ratio]
      exact hContains

/-
  A numeral of the digits of a number, with whatever exponent
  it is written, is read as the number.
-/
theorem round_shortest
    (tie : Shortest.Tie)
    (hForm : Format.double.IsForm m e)
    (hMagnitude : n.magnitude =
      (Floating.shortest .double tie m e).coefficient *
        10 ^ (Floating.shortest .double tie m e).exponent) :
    n.round .double = .finite n.negative m e := by
  by_cases hM : m = 0
  · have hLeast : e = Format.double.leastExponent := by
      apply hForm.normal.resolve_left
      rw [hM]
      decide
    have hZero : n.coefficient = 0 := by
      by_contra hSome
      have hPos := magnitude_pos (Nat.pos_of_ne_zero hSome)
      simp [hMagnitude, hM, Floating.shortest] at hPos
    rw [Numeral.round, if_pos hZero, hM, hLeast]
  · have hPos := Nat.pos_of_ne_zero hM
    apply round_of_contains hForm hPos
    rw [hMagnitude]
    exact Floating.shortest_contains tie hForm hPos

end Numeral

end Failover
