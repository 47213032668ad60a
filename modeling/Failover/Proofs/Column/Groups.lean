import Failover.Column.Numeric
import Failover.Proofs.Number.Digits
import Mathlib.Algebra.BigOperators.Group.Finset.Basic
import Mathlib.Algebra.Field.Rat
import Mathlib.Algebra.Order.Field.Power
import Mathlib.Data.Rat.Floor
import Mathlib.Tactic.Linarith
import Mathlib.Tactic.Positivity
import Mathlib.Tactic.Ring

/-
  Digits to the base 10000.  Digits with a point among them,
  before them or behind them denote a rational number, and the
  ones up to the point are the whole part of it.  In text a
  digit is a group of four decimal ones.

  Key definitions include:
    * `Numeric.IsGroup`
    * `Numeric.number`, `Numeric.sum`
    * `Numeric.places`
    * `Numeric.IsGroupText`, `Numeric.IsWholeText`

  Main statements:
    * `Numeric.floor_sum`
    * `Numeric.isWholeText_whole`
    * `Numeric.ofDigits_whole_decimals`
-/

namespace Failover

namespace Numeric

------------------------------------------------------------
-- Numbers
------------------------------------------------------------

/- A digit to the base 10000. -/
def IsGroup (d : Int) : Prop :=
  0 ≤ d ∧ d ≤ 9999

instance (d : Int) : Decidable (IsGroup d) := by
  unfold IsGroup
  infer_instance

/- The whole number of digits. -/
def number : List Int → Int
  | [] => 0
  | d :: r => d * 10000 ^ r.length + number r

/-
  The number of digits of which the given number of places
  stand before the point.
-/
def sum : List Int → Int → ℚ
  | [], _ => 0
  | d :: r, k => d * 10000 ^ (k - 1) + sum r (k - 1)

/- The digits at some places, zero where there is none. -/
def places
    (ds : List Int)
    (start : Int)
    (n : Nat) : List Int :=
  (List.range n).map fun (i : Nat) => digitAt ds (start + i)

theorem number_append (ds es : List Int) :
    number (ds ++ es) =
      number ds * 10000 ^ es.length + number es := by
  induction ds with
  | nil => simp [number]
  | cons d r ih =>
      rw [List.cons_append, number, number, ih,
        List.length_append, pow_add]
      ring

theorem number_zeros (n : Nat) :
    number (List.replicate n 0) = 0 := by
  induction n with
  | zero => rfl
  | succ n ih =>
      rw [List.replicate_succ, number, ih]
      simp

/- Leading zeros denote nothing. -/
theorem number_dropWhile (ds : List Int) :
    number (ds.dropWhile (· == 0)) = number ds := by
  induction ds with
  | nil => rfl
  | cons d r ih =>
      by_cases hZero : d = 0
      · subst hZero
        rw [List.dropWhile_cons_of_pos (by decide), ih, number]
        simp
      · rw [List.dropWhile_cons_of_neg (by simpa using hZero)]

------------------------------------------------------------
-- Places
------------------------------------------------------------

section Places

variable {ds : List Int} {d : Int}

@[simp] theorem length_places
    (ds : List Int)
    (start : Int)
    (n : Nat) : (places ds start n).length = n := by
  simp [places]

theorem places_add
    (ds : List Int)
    (start : Int)
    (m n : Nat) :
    places ds start (m + n) =
      places ds start m ++ places ds (start + m) n := by
  unfold places
  rw [List.range_add, List.map_append, List.map_map]
  congr 1
  apply List.map_congr_left
  intro i _
  simp [Int.add_assoc]

/- There are no digits before the first place. -/
theorem places_before
    (ds : List Int)
    {start : Int}
    {n : Nat}
    (hBefore : start + n ≤ 0) :
    places ds start n = List.replicate n 0 := by
  rw [List.eq_replicate_iff]
  refine ⟨length_places .., ?_⟩
  intro d hD
  rcases List.mem_map.mp hD with ⟨i, hI, rfl⟩
  have hLess := List.mem_range.mp hI
  exact if_pos (by omega)

theorem places_nil
    (start : Int)
    (n : Nat) : places [] start n = List.replicate n 0 := by
  rw [List.eq_replicate_iff]
  refine ⟨length_places .., ?_⟩
  intro d hD
  rcases List.mem_map.mp hD with ⟨i, -, rfl⟩
  simp [digitAt]

/- The first place is that of the first digit. -/
theorem places_cons
    (d : Int)
    (ds : List Int)
    (n : Nat) :
    places (d :: ds) 0 (n + 1) = d :: places ds 0 n := by
  unfold places
  rw [List.range_succ_eq_map, List.map_cons, List.map_map]
  rfl

/- The places around the point make up one number. -/
theorem number_places
    (ds : List Int)
    (k : Int)
    (n : Nat) :
    number (places ds 0 k.toNat ++ places ds k n) =
      number (places ds 0 (k + n).toNat) := by
  by_cases hBefore : k < 0
  · have hNone : places ds 0 k.toNat = [] := by
      have hZero : k.toNat = 0 := by omega
      rw [hZero]
      rfl
    rw [hNone, List.nil_append]
    by_cases hAll : k + n ≤ 0
    · have hZero : (k + n).toNat = 0 := by omega
      rw [places_before ds hAll, number_zeros, hZero]
      rfl
    · have hSplit : n = (-k).toNat + (k + n).toNat := by omega
      have hStart : k + ((-k).toNat : Int) = 0 := by omega
      have hPlaces : places ds k n =
          List.replicate (-k).toNat 0 ++
            places ds 0 (k + n).toNat := by
        conv_lhs => rw [hSplit]
        rw [places_add, hStart,
          places_before ds (by omega : k + ((-k).toNat : Int) ≤ 0)]
      rw [hPlaces, number_append, number_zeros, Int.zero_mul,
        Int.zero_add]
  · have hSum : (k + n).toNat = k.toNat + n := by omega
    have hStart : (0 : Int) + (k.toNat : Int) = k := by omega
    rw [hSum, places_add, hStart]

theorem isGroup_places
    (hGroups : ∀ d ∈ ds, IsGroup d)
    (start : Int)
    (n : Nat) : ∀ d ∈ places ds start n, IsGroup d := by
  intro d hD
  rcases List.mem_map.mp hD with ⟨i, -, rfl⟩
  unfold digitAt
  split_ifs
  · decide
  · cases hDigit : ds[(start + i).toNat]? with
    | none => exact (by decide : IsGroup 0)
    | some e => exact hGroups e (List.mem_of_getElem? hDigit)

end Places

------------------------------------------------------------
-- Whole parts
------------------------------------------------------------

section Floors

variable {ds : List Int}

theorem sum_bounds
    (hGroups : ∀ d ∈ ds, IsGroup d)
    (k : Int) :
    0 ≤ sum ds k ∧ sum ds k < 10000 ^ k := by
  induction ds generalizing k with
  | nil =>
      unfold sum
      exact ⟨le_refl _, by positivity⟩
  | cons d r ih =>
      rw [List.forall_mem_cons] at hGroups
      rcases ih hGroups.2 (k - 1) with ⟨hLow, hHigh⟩
      have hUnit : (0 : ℚ) < 10000 ^ (k - 1) := by positivity
      have hLeast : (0 : ℚ) ≤ d := by exact_mod_cast hGroups.1.1
      have hMost : (d : ℚ) ≤ 9999 := by
        exact_mod_cast hGroups.1.2
      have hPower : (10000 : ℚ) ^ k = 10000 * 10000 ^ (k - 1) := by
        rw [← zpow_one_add₀ (by norm_num)]
        congr 1
        omega
      have hProduct :=
        mul_le_mul_of_nonneg_right hMost hUnit.le
      unfold sum
      rw [hPower]
      constructor
      · positivity
      · linarith

/- The point is moved by powers of the base. -/
theorem sum_shift
    (ds : List Int)
    (k : Int)
    (n : Nat) :
    sum ds k * 10000 ^ n = sum ds (k + n) := by
  induction ds generalizing k with
  | nil => simp [sum]
  | cons d r ih =>
      have hNext : k + n - 1 = k - 1 + n := by omega
      unfold sum
      rw [hNext, ← ih, zpow_add₀ (by norm_num), zpow_natCast]
      ring

/- The digits before the point are the whole part. -/
theorem floor_sum
    (hGroups : ∀ d ∈ ds, IsGroup d)
    (k : Int) :
    ⌊sum ds k⌋ = number (places ds 0 k.toNat) := by
  induction ds generalizing k with
  | nil =>
      rw [places_nil, number_zeros, sum, Int.floor_zero]
  | cons d r ih =>
      by_cases hBefore : k ≤ 0
      · have hNone : k.toNat = 0 := by omega
        rcases sum_bounds hGroups k with ⟨hLow, hHigh⟩
        have hOne : (10000 : ℚ) ^ k ≤ 1 :=
          zpow_le_one_of_nonpos₀ (by norm_num) hBefore
        have hZero : ⌊sum (d :: r) k⌋ = 0 := by
          rw [Int.floor_eq_zero_iff]
          exact ⟨hLow, by linarith⟩
        rw [hZero, hNone]
        rfl
      · obtain ⟨j, hJ⟩ := Int.eq_ofNat_of_zero_le
          (by omega : 0 ≤ k - 1)
        have hPlaces : k.toNat = j + 1 := by omega
        have hRest := ih (fun e hE =>
          hGroups e (List.mem_cons_of_mem d hE)) (k - 1)
        have hFirst : (d : ℚ) * 10000 ^ (k - 1) =
            ((d * 10000 ^ j : Int) : ℚ) := by
          rw [hJ]
          push_cast
          rw [zpow_natCast]
        have hNat : (k - 1).toNat = j := by omega
        rw [hNat] at hRest
        rw [hPlaces, places_cons, number, length_places, sum,
          hFirst, Int.floor_intCast_add, hRest]

/- The sum over the places of the digits. -/
theorem sum_eq
    (ds : List Int)
    (k : Int) :
    sum ds k =
      ∑ i ∈ Finset.range ds.length,
        (ds.getD i 0 : ℚ) * 10000 ^ (k - 1 - i) := by
  induction ds generalizing k with
  | nil => simp [sum]
  | cons d r ih =>
      rw [sum, ih, List.length_cons, Finset.sum_range_succ',
        add_comm]
      congr 1
      · apply Finset.sum_congr rfl
        intro i _
        have hPlace : k - 1 - 1 - (i : Int) =
            k - 1 - ((i + 1 : Nat) : Int) := by omega
        rw [hPlace, List.getD_cons_succ]
      · simp

end Floors

------------------------------------------------------------
-- Texts
------------------------------------------------------------

/- Digits in groups of four, in text. -/
structure IsGroupText
    (ds : List Int)
    (cs : List Char) : Prop where
  areDigits : ∀ c ∈ cs, Text.isDigit c = true
  length : cs.length = 4 * ds.length
  number : (Decimal.ofDigits cs : Int) = number ds

theorem isGroupText_group
    {d : Int}
    (hGroup : IsGroup d) : IsGroupText [d] (group d) := by
  rcases hGroup with ⟨hLow, hHigh⟩
  have hNegative : ¬ d < 0 := by omega
  unfold group
  rw [if_neg hNegative]
  constructor
  · exact fun c hC => Decimal.isDigit_of_mem_padded hC
  · exact Decimal.length_padded (by decide) (by omega)
  · rw [Decimal.ofDigits_padded]
    unfold number number
    simp [abs_of_nonneg hLow]

theorem IsGroupText.append
    {ds es : List Int}
    {cs bs : List Char}
    (hLeft : IsGroupText ds cs)
    (hRight : IsGroupText es bs) :
    IsGroupText (ds ++ es) (cs ++ bs) := by
  constructor
  · exact List.forall_mem_append.mpr
      ⟨hLeft.areDigits, hRight.areDigits⟩
  · rw [List.length_append, List.length_append, hLeft.length,
      hRight.length, Nat.mul_add]
  · rw [Decimal.ofDigits_append, number_append, hRight.length,
      pow_mul]
    push_cast
    rw [hLeft.number, hRight.number]

theorem isGroupText_groups
    {ds : List Int}
    (hGroups : ∀ d ∈ ds, IsGroup d) :
    IsGroupText ds (ds.flatMap group) := by
  induction ds with
  | nil => exact ⟨by simp, rfl, rfl⟩
  | cons d r ih =>
      rw [List.forall_mem_cons] at hGroups
      exact (isGroupText_group hGroups.1).append
        (ih hGroups.2)

/- The text of a whole number, without superfluous zeros. -/
structure IsWholeText
    (n : Int)
    (cs : List Char) : Prop where
  areDigits : ∀ c ∈ cs, Text.isDigit c = true
  nonempty : cs ≠ []
  leading : ∀ r, cs = '0' :: r → r = []
  number : (Decimal.ofDigits cs : Int) = n

/- Groups behind a decimal number, which is not zero. -/
theorem isWholeText_cons
    {d : Int}
    {r : List Int}
    (hFirst : 0 < d)
    (hRest : ∀ e ∈ r, IsGroup e) :
    IsWholeText (number (d :: r))
      ((Decimal.render d).toList ++ r.flatMap group) := by
  have hNegative : ¬ d < 0 := by omega
  have hGroups := isGroupText_groups hRest
  have hRender : (Decimal.render d).toList =
      Decimal.digits d.natAbs := by
    rw [Decimal.render_toList, if_neg hNegative]
  rw [hRender]
  constructor
  · exact List.forall_mem_append.mpr
      ⟨fun c hC => Decimal.isDigit_of_mem_digits hC,
        hGroups.areDigits⟩
  · intro hNone
    exact Decimal.digits_ne_nil _
      (List.append_eq_nil_iff.mp hNone).1
  · intro rest hZero
    rcases Decimal.digits_eq_cons d.natAbs with ⟨c, cs, hCs, -⟩
    rw [hCs, List.cons_append, List.cons.injEq] at hZero
    rw [hZero.1] at hCs
    have hNone := Decimal.eq_zero_of_digits hCs
    omega
  · rw [Decimal.ofDigits_append, Decimal.ofDigits_digits,
      hGroups.length, number, pow_mul]
    push_cast
    rw [hGroups.number, abs_of_pos hFirst]

------------------------------------------------------------
-- The whole part and the decimals
------------------------------------------------------------

section Parts

variable {ds : List Int}

/- The whole part is in the places up to the weight. -/
theorem isWholeText_whole
    (hGroups : ∀ d ∈ ds, IsGroup d)
    (weight : Int) :
    IsWholeText (number (places ds 0 (weight + 1).toNat))
      (whole ds weight) := by
  have hPlaces : (List.range (weight + 1).toNat).map
      (fun (i : Nat) => digitAt ds i) =
        places ds 0 (weight + 1).toNat := by
    simp [places]
  have hDigits := isGroup_places hGroups 0 (weight + 1).toNat
  unfold whole
  simp only [hPlaces]
  generalize places ds 0 (weight + 1).toNat = all at hDigits ⊢
  rw [← number_dropWhile all]
  have hKept : ∀ d ∈ all.dropWhile (· == 0), IsGroup d :=
    fun d hD => hDigits d ((List.dropWhile_suffix _).mem hD)
  cases hDrop : all.dropWhile (· == 0) with
  | nil =>
      have hDigits : ∀ c ∈ ['0'], Text.isDigit c = true :=
        List.all_eq_true.mp (by decide)
      exact ⟨hDigits, by decide, by simp, rfl⟩
  | cons d r =>
      have hNotZero : d ≠ 0 := by
        have hSome : all.dropWhile (· == 0) ≠ [] := by
          rw [hDrop]
          exact List.cons_ne_nil d r
        have hHead := List.head_dropWhile_not (· == 0) hSome
        simpa [hDrop] using hHead
      rw [hDrop, List.forall_mem_cons] at hKept
      have hLow := hKept.1.1
      exact isWholeText_cons (by omega) hKept.2

/- The decimals are in the places past the weight. -/
theorem decimals_eq
    (ds : List Int)
    (weight : Int)
    (scale : Nat) :
    decimals ds weight scale =
      ((places ds (weight + 1)
        ((scale + 3) / 4)).flatMap group).take scale := by
  unfold decimals places
  rw [List.flatMap_map]

/-
  The groups before the point and some behind it make up the
  sum without the rest behind them.
-/
theorem ofDigits_whole_groups
    (hGroups : ∀ d ∈ ds, IsGroup d)
    (weight : Int)
    (n : Nat) :
    (Decimal.ofDigits (whole ds weight ++
      (places ds (weight + 1) n).flatMap group) : Int) =
      ⌊sum ds (weight + 1) * 10000 ^ n⌋ := by
  have hWhole := isWholeText_whole hGroups weight
  have hPart := isGroupText_groups
    (isGroup_places hGroups (weight + 1) n)
  rw [sum_shift, floor_sum hGroups, ← number_places,
    number_append, length_places, Decimal.ofDigits_append,
    hPart.length, length_places, pow_mul]
  push_cast
  rw [hWhole.number, hPart.number]

/- Digits that are cut off do not count. -/
theorem floor_cut
    (x : ℚ)
    (m : Nat) : ⌊x * 10 ^ m⌋ / 10 ^ m = ⌊x⌋ := by
  have hCut := Int.floor_div_natCast (x * 10 ^ m) (10 ^ m)
  push_cast at hCut
  rw [← hCut, mul_div_assoc, div_self (by positivity), mul_one]

/-
  Up to as many decimals as there shall be, the digits in the
  text are those of the sum: whole groups are, and those of
  the last one that are cut off are decimals further on.
-/
theorem ofDigits_whole_decimals
    (hGroups : ∀ d ∈ ds, IsGroup d)
    (weight : Int)
    (scale : Nat) :
    (Decimal.ofDigits
      (whole ds weight ++ decimals ds weight scale) : Int) =
      ⌊sum ds (weight + 1) * 10 ^ scale⌋ := by
  have hAll := ofDigits_whole_groups hGroups weight
    ((scale + 3) / 4)
  have hWhole := isWholeText_whole hGroups weight
  have hPart := isGroupText_groups
    (isGroup_places hGroups (weight + 1) ((scale + 3) / 4))
  have hLength := hPart.length
  rw [decimals_eq]
  rw [length_places] at hLength
  generalize (places ds (weight + 1)
    ((scale + 3) / 4)).flatMap group = cs at *
  have hTake : whole ds weight ++ cs.take scale =
      (whole ds weight ++ cs).take
        ((whole ds weight).length + scale) :=
    (List.take_length_add_append scale).symm
  have hRest : (whole ds weight ++ cs).length -
      ((whole ds weight).length + scale) =
        4 * ((scale + 3) / 4) - scale := by
    rw [List.length_append]
    omega
  have hPower : (10000 : ℚ) ^ ((scale + 3) / 4) =
      10 ^ scale * 10 ^ (4 * ((scale + 3) / 4) - scale) := by
    have hSum : scale + (4 * ((scale + 3) / 4) - scale) =
        4 * ((scale + 3) / 4) := by omega
    rw [← pow_add, hSum, pow_mul]
    norm_num
  have hDigits := List.forall_mem_append.mpr
    ⟨hWhole.areDigits, hPart.areDigits⟩
  rw [hTake, Decimal.ofDigits_take hDigits, hRest]
  push_cast
  rw [hAll, hPower, ← mul_assoc, floor_cut]

/- The text of the whole part begins with a sign or a digit. -/
theorem whole_eq_cons
    (ds : List Int)
    (weight : Int) :
    ∃ c r, whole ds weight = c :: r ∧ c ≠ 'N' := by
  unfold whole
  simp only
  split
  · exact ⟨'0', [], rfl, by decide⟩
  · next d r _ =>
    rw [Decimal.render_toList]
    by_cases hNegative : d < 0
    · rw [if_pos hNegative]
      exact ⟨'-', _, rfl, by decide⟩
    · rw [if_neg hNegative]
      rcases Decimal.digits_eq_cons d.natAbs with
        ⟨c, cs, hCs, hDigit⟩
      rw [hCs]
      refine ⟨c, _, rfl, ?_⟩
      rintro rfl
      exact absurd hDigit (by decide)

end Parts

end Numeric

end Failover
