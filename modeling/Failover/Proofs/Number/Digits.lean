import Failover.Number.Decimal
import Mathlib.Algebra.Group.Nat.Defs

/-
  The decimal digits of a number.  They are digits indeed, they
  denote the number, and the first one is zero only if the
  number is.  Digits count by what follows them, so the first
  ones of a text denote a quotient of what all of them do.

  Main statements:
    * `Decimal.ofDigits_digits`
    * `Decimal.isDigit_of_mem_digits`
    * `Decimal.eq_zero_of_digits`
    * `Decimal.ofDigits_append`
    * `Decimal.ofDigits_take`
    * `Decimal.ofDigits_padded`
-/

namespace Failover

namespace Decimal

theorem digits_ne_nil (n : Nat) : digits n ≠ [] :=
  List.ne_nil_of_length_pos Nat.length_toDigits_pos

/- Numbers are written in digits. -/
theorem isDigit_of_mem_digits
    {n : Nat}
    {c : Char}
    (hC : c ∈ digits n) : Text.isDigit c = true := by
  have hCore : c.isDigit = true :=
    Nat.isDigit_of_mem_toDigits (by decide) (by decide) hC
  unfold Char.isDigit at hCore
  unfold Text.isDigit
  exact hCore

/- A number has a first digit. -/
theorem digits_eq_cons (n : Nat) :
    ∃ c cs, digits n = c :: cs ∧ Text.isDigit c = true := by
  obtain ⟨c, cs, hDigits⟩ :=
    List.exists_cons_of_ne_nil (digits_ne_nil n)
  refine ⟨c, cs, hDigits, ?_⟩
  apply isDigit_of_mem_digits (n := n)
  rw [hDigits]
  exact List.mem_cons_self ..

/- A negative number has a sign in front. -/
theorem render_toList (n : Int) :
    (render n).toList =
      if n < 0 then '-' :: digits n.natAbs
      else digits n.natAbs := by
  unfold render
  exact String.toList_ofList

/- The digits of a number denote it. -/
theorem ofDigits_digits (n : Nat) : ofDigits (digits n) = n := by
  have hCore : Nat.ofDigitChars 10 (digits n) 0 = n :=
    Nat.ofDigitChars_toDigits (by decide) (by decide)
  have hStep : (fun n c => n * 10 + digitValue c) =
      fun n c => 10 * n + (c.toNat - '0'.toNat) := by
    funext n c
    rw [Nat.mul_comm]
    rfl
  unfold ofDigits
  rw [hStep]
  exact hCore

/- A number whose first digit is zero is zero. -/
theorem eq_zero_of_digits
    {n : Nat}
    {rest : List Char}
    (h : digits n = '0' :: rest) : n = 0 := by
  induction n using Nat.strongRecOn generalizing rest with
  | _ n ih =>
      unfold digits at h ih
      by_cases hLess : n < 10
      · rw [Nat.toDigits_of_lt_base hLess, List.cons.injEq] at h
        exact Nat.digitChar_eq_zero.mp h.1
      · have hMore : 10 ≤ n := Nat.not_lt.mp hLess
        rw [Nat.toDigits_of_base_le (by decide) hMore] at h
        cases hTop : Nat.toDigits 10 (n / 10) with
        | nil => exact absurd hTop (digits_ne_nil _)
        | cons c cs =>
            rw [hTop, List.cons_append, List.cons.injEq] at h
            rw [h.1] at hTop
            have hNone := ih (n / 10) (by omega) hTop
            omega

------------------------------------------------------------
-- Texts of digits
------------------------------------------------------------

/- Digits are read one by one, each ten times as much. -/
theorem foldl_ofDigits
    (n : Nat)
    (cs : List Char) :
    cs.foldl (fun n c => n * 10 + digitValue c) n =
      n * 10 ^ cs.length + ofDigits cs := by
  induction cs generalizing n with
  | nil => simp [ofDigits]
  | cons c r ih =>
      have hDigits : ofDigits (c :: r) =
          (0 * 10 + digitValue c) * 10 ^ r.length +
            ofDigits r := ih _
      rw [hDigits, List.foldl_cons, ih, List.length_cons,
        Nat.pow_succ, Nat.zero_mul, Nat.zero_add, Nat.add_mul,
        Nat.mul_assoc, Nat.mul_comm 10, Nat.add_assoc]

/- The digits in front count by the length of the rest. -/
theorem ofDigits_append (cs ds : List Char) :
    ofDigits (cs ++ ds) =
      ofDigits cs * 10 ^ ds.length + ofDigits ds := by
  rw [ofDigits, List.foldl_append, foldl_ofDigits]
  rfl

/-
  A digit in front counts with the power of ten of the digits
  behind it.
-/
theorem ofDigits_cons
    (c : Char)
    (cs : List Char) :
    ofDigits (c :: cs) =
      digitValue c * 10 ^ cs.length + ofDigits cs := by
  rw [ofDigits, List.foldl_cons, foldl_ofDigits, Nat.zero_mul,
    Nat.zero_add]

/- The value of a digit is nine at most. -/
theorem digitValue_le
    {c : Char}
    (hC : Text.isDigit c = true) : digitValue c ≤ 9 := by
  simp only [Text.isDigit, Bool.and_eq_true,
    decide_eq_true_eq] at hC
  have hLast : c.toNat ≤ 57 := hC.2
  unfold digitValue
  omega

/- A number is bounded by the count of its digits. -/
theorem ofDigits_lt
    {cs : List Char}
    (hDigits : ∀ c ∈ cs, Text.isDigit c = true) :
    ofDigits cs < 10 ^ cs.length := by
  induction cs with
  | nil => simp [ofDigits]
  | cons c r ih =>
      rw [List.forall_mem_cons] at hDigits
      have hFirst := digitValue_le hDigits.1
      have hRest := ih hDigits.2
      have hProduct : digitValue c * 10 ^ r.length ≤
          9 * 10 ^ r.length := Nat.mul_le_mul_right _ hFirst
      rw [ofDigits_cons, List.length_cons, Nat.pow_succ]
      omega

/- Digits that are cut off are those of a remainder. -/
theorem ofDigits_take
    {cs : List Char}
    (hDigits : ∀ c ∈ cs, Text.isDigit c = true)
    (k : Nat) :
    ofDigits (cs.take k) =
      ofDigits cs / 10 ^ (cs.length - k) := by
  have hRest : ofDigits (cs.drop k) < 10 ^ (cs.length - k) := by
    rw [← List.length_drop]
    apply ofDigits_lt
    exact fun c hC => hDigits c (List.mem_of_mem_drop hC)
  have hAll : ofDigits cs =
      ofDigits (cs.take k) * 10 ^ (cs.length - k) +
        ofDigits (cs.drop k) := by
    rw [← List.length_drop, ← ofDigits_append,
      List.take_append_drop]
  rw [hAll, Nat.add_comm, Nat.add_mul_div_right _ _
    (Nat.pow_pos (by decide)), Nat.div_eq_of_lt hRest,
    Nat.zero_add]

------------------------------------------------------------
-- Leading zeros
------------------------------------------------------------

/- Padding is made of digits. -/
theorem isDigit_of_mem_padded
    {w n : Nat}
    {c : Char}
    (hC : c ∈ padded w n) : Text.isDigit c = true := by
  rcases List.mem_append.mp hC with hZero | hDigit
  · rw [List.eq_of_mem_replicate hZero]
    rfl
  · exact isDigit_of_mem_digits hDigit

theorem padded_ne_nil (w n : Nat) : padded w n ≠ [] :=
  List.append_ne_nil_of_right_ne_nil _ (digits_ne_nil n)

/- A padded number has a first digit. -/
theorem padded_eq_cons (w n : Nat) :
    ∃ c cs, padded w n = c :: cs ∧ Text.isDigit c = true := by
  obtain ⟨c, cs, hPadded⟩ :=
    List.exists_cons_of_ne_nil (padded_ne_nil w n)
  refine ⟨c, cs, hPadded, ?_⟩
  apply isDigit_of_mem_padded (w := w) (n := n)
  rw [hPadded]
  exact List.mem_cons_self ..

/- Zeros count nothing. -/
theorem ofDigits_zeros (k : Nat) :
    ofDigits (List.replicate k '0') = 0 := by
  induction k with
  | zero => rfl
  | succ k ih =>
      rw [List.replicate_succ, ofDigits_cons, ih]
      simp [digitValue]

/- Leading zeros denote nothing. -/
theorem ofDigits_padded (w n : Nat) :
    ofDigits (padded w n) = n := by
  unfold padded
  rw [ofDigits_append, ofDigits_zeros, Nat.zero_mul,
    Nat.zero_add, ofDigits_digits]

/- Padding gives the exact width. -/
theorem length_padded
    {w n : Nat}
    (hWidth : 0 < w)
    (hN : n < 10 ^ w) : (padded w n).length = w := by
  have hLength : (digits n).length ≤ w :=
    (Nat.length_toDigits_le_iff (by decide) hWidth).mpr hN
  unfold padded
  rw [List.length_append, List.length_replicate]
  omega

end Decimal

end Failover
