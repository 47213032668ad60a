import Failover.Uuid

/-
  Hexadecimal texts of bytes, and identifiers in groups of such
  digits.  The bytes are found again in the pairs of their
  digits, and an identifier in its groups.

  Key definitions include:
    * `Hex.pairs`

  Main statements:
    * `Hex.value?_digit`
    * `Hex.decodeChars_pairs`
    * `Uuid.ofText?_write`
-/

namespace Failover

------------------------------------------------------------
-- Bytes
------------------------------------------------------------

namespace Hex

theorem value?_digit :
    ∀ n < 16, value? (digit n) = some n := by
  decide

/- The two digits of each byte. -/
def pairs (bs : Bytes) : List Char :=
  bs.flatMap fun b =>
    [digit (b.toNat / 16), digit (b.toNat % 16)]

theorem toList_encode (bs : Bytes) :
    (encode bs).toList = pairs bs :=
  String.toList_ofList

theorem length_pairs (bs : Bytes) :
    (pairs bs).length = 2 * bs.length := by
  induction bs with
  | nil => rfl
  | cons b r ih =>
      rw [pairs, List.flatMap_cons, ← pairs, List.length_append,
        ih, List.length_cons]
      simp only [List.length_cons, List.length_nil]
      omega

/- Pairs of digits stand for their bytes. -/
theorem decodeChars_pairs (bs : Bytes) :
    decodeChars (pairs bs) = some bs := by
  induction bs with
  | nil => rfl
  | cons b r ih =>
      have hByte := b.toNat_lt
      have hHigh := value?_digit (b.toNat / 16) (by omega)
      have hLow := value?_digit (b.toNat % 16) (by omega)
      have hSum : b.toNat / 16 * 16 + b.toNat % 16 = b.toNat := by
        omega
      change decodeChars (digit (b.toNat / 16) ::
        digit (b.toNat % 16) :: pairs r) = _
      rw [decodeChars, hHigh, hLow, ih]
      simp only [bind, Option.bind_some, hSum]
      exact congrArg (fun b => some (b :: r)) (UInt8.ofNat_toNat)

theorem pairs_append (as bs : Bytes) :
    pairs (as ++ bs) = pairs as ++ pairs bs :=
  List.flatMap_append

/- A digit is neither a brace nor the first letter of a name. -/
theorem digit_plain :
    ∀ n < 16, digit n ≠ '{' ∧ digit n ≠ 'u' := by
  decide

end Hex

------------------------------------------------------------
-- Identifiers
------------------------------------------------------------

namespace Uuid

open Hex (pairs)

/- Five groups with hyphens between are their digits. -/
theorem ofGroups?_append
    {a b c d e : List Char}
    (hA : a.length = 8)
    (hB : b.length = 4)
    (hC : c.length = 4)
    (hD : d.length = 4)
    (hE : e.length = 12) :
    ofGroups? (a ++ '-' :: (b ++ '-' :: (c ++ '-' ::
        (d ++ '-' :: e)))) =
      ofDigits? (a ++ b ++ c ++ d ++ e) := by
  have hDrop {ds : List Char} {n k : Nat} (hDs : ds.length = n)
      (hK : n ≤ k) : ds.drop k = [] :=
    List.drop_of_length_le (by omega)
  unfold ofGroups?
  simp [hA, hB, hC, hD, hE, List.getElem?_append,
    List.drop_append, hDrop hA, hDrop hB, hDrop hC, hDrop hD]

theorem toList_write (u : Uuid) :
    u.write.toList =
      pairs (u.bytes.take 4) ++ '-' ::
        (pairs ((u.bytes.drop 4).take 2) ++ '-' ::
          (pairs ((u.bytes.drop 6).take 2) ++ '-' ::
            (pairs ((u.bytes.drop 8).take 2) ++ '-' ::
              pairs ((u.bytes.drop 10).take 6)))) := by
  have hWrite : u.write =
      Hex.encode (u.bytes.take 4) ++ "-" ++
        Hex.encode ((u.bytes.drop 4).take 2) ++ "-" ++
        Hex.encode ((u.bytes.drop 6).take 2) ++ "-" ++
        Hex.encode ((u.bytes.drop 8).take 2) ++ "-" ++
        Hex.encode ((u.bytes.drop 10).take 6) := rfl
  simp [hWrite, Hex.toList_encode]

/- The groups have all the bytes in their order. -/
theorem append_groups (bs : Bytes) :
    bs.take 4 ++ (bs.drop 4).take 2 ++ (bs.drop 6).take 2 ++
        (bs.drop 8).take 2 ++ bs.drop 10 = bs := by
  have hStep (j k : Nat) :
      (bs.drop j).take k ++ bs.drop (j + k) = bs.drop j := by
    rw [← List.drop_drop, List.take_append_drop]
  simp only [List.append_assoc]
  rw [hStep 8 2, hStep 6 2, hStep 4 2, List.take_append_drop]

/- The text of an identifier begins with a digit. -/
theorem write_eq_cons (u : Uuid) :
    ∃ c cs, u.write.toList = c :: cs ∧ c ≠ '{' ∧ c ≠ 'u' := by
  obtain ⟨b, r, hBytes⟩ := List.exists_cons_of_ne_nil
    (List.ne_nil_of_length_eq_add_one u.size_eq)
  have hByte := b.toNat_lt
  obtain ⟨hBrace, hName⟩ :=
    Hex.digit_plain (b.toNat / 16) (by omega)
  rw [toList_write, hBytes]
  exact ⟨_, _, rfl, hBrace, hName⟩

/- An identifier is read from its text. -/
theorem ofText?_write (u : Uuid) :
    ofText? u.write = some u := by
  have hSize := u.size_eq
  have hGroups : ofGroups? u.write.toList = some u := by
    have hLast : (u.bytes.drop 10).take 6 = u.bytes.drop 10 :=
      List.take_of_length_le (by rw [List.length_drop]; omega)
    rw [toList_write, hLast, ofGroups?_append,
      ← Hex.pairs_append, ← Hex.pairs_append, ← Hex.pairs_append,
      ← Hex.pairs_append, append_groups, ofDigits?,
      Hex.decodeChars_pairs, Option.bind_some]
    · exact dif_pos hSize
    all_goals
      rw [Hex.length_pairs]
      simp only [List.length_take, List.length_drop]
      omega
  have hLength : u.write.toList.length = 36 := by
    rw [toList_write]
    simp only [List.length_append, List.length_cons,
      Hex.length_pairs, List.length_take, List.length_drop]
    omega
  obtain ⟨c, cs, hChars, hBrace, hName⟩ := u.write_eq_cons
  unfold ofText?
  simp only
  split
  · next hSame =>
    rw [hChars] at hSame
    exact absurd (List.cons.inj hSame).1 hBrace
  · next hSame =>
    rw [hChars] at hSame
    exact absurd (List.cons.inj hSame).1 hName
  · rw [if_neg (by omega)]
    exact hGroups

end Uuid

end Failover
