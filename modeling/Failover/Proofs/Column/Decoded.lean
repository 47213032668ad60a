import Failover.Proofs.Column.Groups
import Failover.Proofs.Number.Literal

/-
  PostgreSQL's binary NUMERIC values in text.  The text of a
  number is a literal that is equal to it up to as many
  decimals as it has.  A text is made of all bytes that reach
  far enough and are not marked as no number, whether or not
  what they contain is in range.

  Key definitions include:
    * `Numeric.IsComplete`, `Numeric.InRange`
    * `Numeric.magnitude`
    * `Numeric.Shows`
    * `Numeric.IsInvented`

  Main statements:
    * `Numeric.decode_eq_ok_iff`
    * `Numeric.decode_exact`
    * `Numeric.isInvented_iff`
-/

namespace Failover

namespace Numeric

------------------------------------------------------------
-- Numbers in bytes
------------------------------------------------------------

section Bytes

variable (bs : Bytes)

/- The bytes reach as far as the header says. -/
def IsComplete : Prop :=
  8 + (word bs 0).toNat * 2 ≤ bs.length

/- The sign is the mark of no number. -/
def IsNan : Prop :=
  word bs 4 = 0xC000 - 0x10000

/- The sign is that of negative numbers. -/
def IsNegative : Prop :=
  word bs 4 = 0x4000

/- How many decimals the text shall have. -/
def scale : Nat :=
  (word bs 6).toNat

/- The digits to the base 10000. -/
def groups : List Int :=
  (List.range (word bs 0).toNat).map fun i => word bs (8 + i * 2)

/- The header and the digits are those of a number. -/
structure InRange : Prop where
  count : 0 ≤ word bs 0
  sign : word bs 4 = 0 ∨ IsNegative bs
  places : 0 ≤ word bs 6
  digits : ∀ i < (word bs 0).toNat, IsGroup (word bs (8 + i * 2))

/- The sum of the digits by their weights. -/
def magnitude : ℚ :=
  ∑ i ∈ Finset.range (word bs 0).toNat,
    (word bs (8 + i * 2) : ℚ) * 10000 ^ (word bs 2 - i)

instance : Decidable (IsComplete bs) := by
  unfold IsComplete
  infer_instance

instance : Decidable (IsNan bs) := by
  unfold IsNan
  infer_instance

instance : Decidable (IsNegative bs) := by
  unfold IsNegative
  infer_instance

end Bytes

section Ranges

variable {bs : Bytes}

theorem inRange_iff :
    InRange bs ↔
      0 ≤ word bs 0 ∧ (word bs 4 = 0 ∨ IsNegative bs) ∧
        0 ≤ word bs 6 ∧
        ∀ i < (word bs 0).toNat, IsGroup (word bs (8 + i * 2)) :=
  ⟨fun h => ⟨h.count, h.sign, h.places, h.digits⟩,
    fun h => ⟨h.1, h.2.1, h.2.2.1, h.2.2.2⟩⟩

instance : Decidable (InRange bs) :=
  decidable_of_iff' _ inRange_iff

theorem InRange.isGroup
    (h : InRange bs) :
    ∀ d ∈ groups bs, IsGroup d := by
  intro d hD
  rcases List.mem_map.mp hD with ⟨i, hI, rfl⟩
  exact h.digits i (List.mem_range.mp hI)

theorem InRange.not_isNan
    (h : InRange bs) : ¬ IsNan bs := by
  have hSign := h.sign
  unfold IsNan
  unfold IsNegative at hSign
  omega

/- The weight is that of the first digit. -/
theorem sum_groups (bs : Bytes) :
    sum (groups bs) (word bs 2 + 1) = magnitude bs := by
  have hLength : (groups bs).length = (word bs 0).toNat := by
    simp [groups]
  rw [sum_eq, hLength, magnitude]
  apply Finset.sum_congr rfl
  intro i hI
  have hDigit : (groups bs).getD i 0 = word bs (8 + i * 2) := by
    simp [groups, Finset.mem_range.mp hI]
  have hPlace : word bs 2 + 1 - 1 - (i : Int) =
      word bs 2 - i := by omega
  rw [hDigit, hPlace]

end Ranges

------------------------------------------------------------
-- Texts
------------------------------------------------------------

section Texts

variable {bs : Bytes}

/- The text of the bytes of a number. -/
def shown (bs : Bytes) : List Char :=
  (if IsNegative bs then ['-'] else []) ++
    whole (groups bs) (word bs 2) ++
    (if scale bs = 0 then []
      else '.' :: decimals (groups bs) (word bs 2) (scale bs))

/-
  The decoder by cases: too short, not a number, complete, or
  truncated.
-/
theorem decode_eq (bs : Bytes) :
    decode bs =
      if bs.length < 8 then .error .tooShort
      else if IsNan bs then .ok "NaN"
      else if IsComplete bs then
        .ok (String.ofList (shown bs))
      else .error .truncated := by
  have hTruncated : bs.length < 8 + (word bs 0).toNat * 2 ↔
      ¬ IsComplete bs := Nat.not_le.symm
  unfold decode
  simp only [hTruncated, ite_not]
  rfl

theorem decode_shown
    (hComplete : IsComplete bs)
    (hMarked : ¬ IsNan bs) :
    decode bs = .ok (String.ofList (shown bs)) := by
  have hHeader : ¬ bs.length < 8 := by
    unfold IsComplete at hComplete
    omega
  rw [decode_eq, if_neg hHeader, if_neg hMarked,
    if_pos hComplete]

/- The text of a number is not that of no number. -/
theorem shown_ne (bs : Bytes) :
    String.ofList (shown bs) ≠ "NaN" := by
  rcases whole_eq_cons (groups bs) (word bs 2) with
    ⟨c, r, hWhole, hC⟩
  intro hSame
  have hChars := congrArg String.toList hSame
  unfold shown at hChars
  rw [String.toList_ofList, hWhole] at hChars
  by_cases hNegative : IsNegative bs
  · rw [if_pos hNegative] at hChars
    have hSign : '-' = 'N' := (List.cons.inj hChars).1
    exact absurd hSign (by decide)
  · rw [if_neg hNegative] at hChars
    exact hC (List.cons.inj hChars).1

/- A number is decoded of all complete bytes not marked. -/
theorem decode_eq_ok_iff
    {s : String} :
    decode bs = .ok s ∧ s ≠ "NaN" ↔
      IsComplete bs ∧ ¬ IsNan bs ∧
        s = String.ofList (shown bs) := by
  constructor
  · rintro ⟨hOk, hNumber⟩
    rw [decode_eq] at hOk
    split_ifs at hOk with hShort hNan hComplete
    · cases hOk
      exact absurd rfl hNumber
    · cases hOk
      exact ⟨hComplete, hNan, rfl⟩
  · rintro ⟨hComplete, hMarked, rfl⟩
    exact ⟨decode_shown hComplete hMarked, shown_ne bs⟩

end Texts

------------------------------------------------------------
-- Exact texts
------------------------------------------------------------

section Exact

variable {bs : Bytes}

/-
  A literal shows a number: it has its sign, a whole part
  without superfluous zeros and as many decimals as it shall
  have, and without its sign it denotes the number cut off
  after these decimals.
-/
structure Shows
    (bs : Bytes)
    (l : Literal) : Prop where
  sign : l.sign = if IsNegative bs then .minus else .absent
  nonempty : l.whole ≠ []
  leading : ∀ r, l.whole = '0' :: r → r = []
  fraction :
    l.fraction.map List.length =
      if scale bs = 0 then none else some (scale bs)
  exponent : l.exponent = none
  value :
    |l.value| =
      ⌊magnitude bs * 10 ^ scale bs⌋ / 10 ^ scale bs

theorem isDigit_of_mem_decimals
    {ds : List Int}
    {weight : Int}
    {n : Nat}
    (hGroups : ∀ d ∈ ds, IsGroup d) :
    ∀ c ∈ decimals ds weight n, Text.isDigit c = true := by
  have hPart := isGroupText_groups
    (isGroup_places hGroups (weight + 1) ((n + 3) / 4))
  intro c hC
  rw [decimals_eq] at hC
  exact hPart.areDigits c (List.mem_of_mem_take hC)

theorem length_decimals
    {ds : List Int}
    (hGroups : ∀ d ∈ ds, IsGroup d)
    (weight : Int)
    (n : Nat) : (decimals ds weight n).length = n := by
  have hPart := isGroupText_groups
    (isGroup_places hGroups (weight + 1) ((n + 3) / 4))
  rw [decimals_eq, List.length_take, hPart.length, length_places]
  omega

/- The digits behind the point, if there is one. -/
def fraction (bs : Bytes) : Option (List Char) :=
  if scale bs = 0 then none
  else some (decimals (groups bs) (word bs 2) (scale bs))

theorem fraction_getD (bs : Bytes) :
    (fraction bs).getD [] =
      decimals (groups bs) (word bs 2) (scale bs) := by
  unfold fraction
  by_cases hScale : scale bs = 0
  · rw [if_pos hScale, hScale, decimals, List.take_zero]
    rfl
  · rw [if_neg hScale]
    rfl

/- The literal in the text of a number. -/
def literal
    (bs : Bytes)
    (hRange : InRange bs) : Literal where
  sign := if IsNegative bs then .minus else .absent
  whole := whole (groups bs) (word bs 2)
  fraction := fraction bs
  exponent := none
  nonempty := by
    have hWhole := isWholeText_whole hRange.isGroup (word bs 2)
    intro hNone
    exact hWhole.nonempty (List.append_eq_nil_iff.mp hNone).1
  areDigits := by
    have hWhole := isWholeText_whole hRange.isGroup (word bs 2)
    rw [fraction_getD, List.forall_mem_append]
    exact ⟨hWhole.areDigits,
      isDigit_of_mem_decimals hRange.isGroup⟩

theorem chars_literal (hRange : InRange bs) :
    (literal bs hRange).chars = shown bs := by
  have hSign : (literal bs hRange).sign.chars =
      if IsNegative bs then ['-'] else [] := by
    unfold literal
    split_ifs
    · rfl
    · rfl
  have hPointed : (literal bs hRange).pointed =
      if scale bs = 0 then []
      else '.' :: decimals (groups bs) (word bs 2) (scale bs) := by
    unfold Literal.pointed literal fraction
    simp only
    split_ifs
    · rfl
    · rfl
  unfold Literal.chars Literal.magnitude shown
  rw [hSign, hPointed, List.append_assoc]
  simp [Literal.scale, literal]

/- The literal denotes the number up to its decimals. -/
theorem abs_value_literal (hRange : InRange bs) :
    |(literal bs hRange).value| =
      ⌊magnitude bs * 10 ^ scale bs⌋ / 10 ^ scale bs := by
  have hPart : (literal bs hRange).part =
      decimals (groups bs) (word bs 2) (scale bs) :=
    fraction_getD bs
  have hDigits := ofDigits_whole_decimals hRange.isGroup
    (word bs 2) (scale bs)
  rw [sum_groups] at hDigits
  have hCoefficient :
      (Decimal.ofDigits (literal bs hRange).digits : ℚ) =
        (⌊magnitude bs * 10 ^ scale bs⌋ : Int) := by
    rw [← hDigits, Literal.digits, hPart]
    rfl
  have hPower : (literal bs hRange).power = -(scale bs : Int) := by
    rw [Literal.power, hPart, length_decimals hRange.isGroup]
    exact Int.add_zero _
  rw [Literal.value, Numeral.abs_value, Numeral.magnitude,
    Literal.numeral]
  simp only
  rw [hCoefficient, hPower, zpow_neg, zpow_natCast,
    div_eq_mul_inv]

/-
  The text of a number is a literal that shows it.
-/
theorem decode_exact
    (hComplete : IsComplete bs)
    (hRange : InRange bs) :
    ∃ l : Literal,
      decode bs = .ok (String.ofList l.chars) ∧ Shows bs l := by
  have hWhole := isWholeText_whole hRange.isGroup (word bs 2)
  refine ⟨literal bs hRange, ?_, ?_⟩
  · rw [chars_literal hRange]
    exact decode_shown hComplete hRange.not_isNan
  · constructor
    · rfl
    · exact hWhole.nonempty
    · exact hWhole.leading
    · change (fraction bs).map List.length = _
      unfold fraction
      split_ifs
      · rfl
      · rw [Option.map_some, length_decimals hRange.isGroup]
    · rfl
    · exact abs_value_literal hRange

/- The number 12345.678 of three digits. -/
theorem three_groups_are_exact :
    IsComplete [0, 3, 0, 1, 0, 0, 0, 3, 0, 1,
      0x09, 0x29, 0x1A, 0x7C] ∧
    InRange [0, 3, 0, 1, 0, 0, 0, 3, 0, 1,
      0x09, 0x29, 0x1A, 0x7C] ∧
    ∃ l : Literal,
      decode [0, 3, 0, 1, 0, 0, 0, 3, 0, 1,
        0x09, 0x29, 0x1A, 0x7C] =
        .ok (String.ofList l.chars) ∧
      Shows [0, 3, 0, 1, 0, 0, 0, 3, 0, 1,
        0x09, 0x29, 0x1A, 0x7C] l := by
  have hComplete : IsComplete [0, 3, 0, 1, 0, 0, 0, 3, 0, 1,
      0x09, 0x29, 0x1A, 0x7C] := by decide
  have hRange : InRange [0, 3, 0, 1, 0, 0, 0, 3, 0, 1,
      0x09, 0x29, 0x1A, 0x7C] := by decide
  exact ⟨hComplete, hRange, decode_exact hComplete hRange⟩

example :
    decode [0, 1, 0xFF, 0xFF, 0x40, 0, 0, 2, 0x01, 0xF4] =
      .ok "-0.05" := by decide

end Exact

------------------------------------------------------------
-- Invented numbers
------------------------------------------------------------

/- A number comes out of bytes that are out of range. -/
def IsInvented (bs : Bytes) : Prop :=
  ∃ s, decode bs = .ok s ∧ s ≠ "NaN" ∧ ¬ InRange bs

/-
  Numbers are invented of all bytes out of range that reach
  far enough and are not marked as no number.
-/
theorem isInvented_iff (bs : Bytes) :
    IsInvented bs ↔
      IsComplete bs ∧ ¬ IsNan bs ∧ ¬ InRange bs := by
  unfold IsInvented
  constructor
  · rintro ⟨s, hOk, hNumber, hOut⟩
    rcases decode_eq_ok_iff.mp ⟨hOk, hNumber⟩ with
      ⟨hComplete, hMarked, -⟩
    exact ⟨hComplete, hMarked, hOut⟩
  · rintro ⟨hComplete, hMarked, hOut⟩
    exact ⟨_, decode_shown hComplete hMarked, shown_ne bs, hOut⟩

/- Infinity is decoded as zero with 32 decimals. -/
theorem infinity_is_decoded_as_zero :
    decode [0, 0, 0, 0, 0xD0, 0, 0, 0x20] =
      .ok "0.00000000000000000000000000000000" ∧
    IsInvented [0, 0, 0, 0, 0xD0, 0, 0, 0x20] := by
  have hOk : decode [0, 0, 0, 0, 0xD0, 0, 0, 0x20] =
      .ok "0.00000000000000000000000000000000" := by decide
  exact ⟨hOk, _, hOk, by decide, by decide⟩

end Numeric

end Failover
