import Failover.Text.Fold
import Failover.Text.Lower

/-
  The two ways in which names are compared: in lower case, and
  up to ASCII case.  Names that are the same up to ASCII case
  have one lower-case form.  The converse holds where that form
  is ASCII and has no letter k, which is also the small letter
  of the Kelvin sign.

  Main statements:
    * `Text.lower_of_sameName`
    * `Text.sameName_of_lower`
-/

namespace Failover

namespace Text

------------------------------------------------------------
-- From ASCII case to lower case
------------------------------------------------------------

/- The capital letters of ASCII, by their places. -/
theorem foldChar_cases (c : Char) :
    foldChar c = c ∨ ∃ n < 26, c = Char.ofNat (65 + n) := by
  by_cases hCapital : 'A' ≤ c ∧ c ≤ 'Z'
  · right
    have hFirst : 65 ≤ c.toNat := hCapital.1
    have hLast : c.toNat ≤ 90 := hCapital.2
    refine ⟨c.toNat - 65, by omega, ?_⟩
    rw [Nat.add_sub_cancel' hFirst, Char.ofNat_toNat]
  · left
    rw [foldChar, if_neg hCapital]

/- A function that takes each capital as its small letter. -/
theorem apply_foldChar
    {α : Type}
    (f : Char → α)
    (hCapital : ∀ n < 26,
      f (foldChar (Char.ofNat (65 + n))) = f (Char.ofNat (65 + n)))
    (c : Char) : f (foldChar c) = f c := by
  rcases foldChar_cases c with hFold | ⟨n, hLess, rfl⟩
  · rw [hFold]
  · exact hCapital n hLess

theorem lowerChar_foldChar (c : Char) :
    lowerChar (foldChar c) = lowerChar c :=
  apply_foldChar lowerChar (by decide +kernel) c

theorem isCased_foldChar (c : Char) :
    inRanges casedRanges (foldChar c) =
      inRanges casedRanges c :=
  apply_foldChar (inRanges casedRanges) (by decide +kernel) c

theorem isIgnorable_foldChar (c : Char) :
    inRanges ignorableRanges (foldChar c) =
      inRanges ignorableRanges c :=
  apply_foldChar (inRanges ignorableRanges) (by decide +kernel) c

theorem foldChar_eq_sigma (c : Char) :
    foldChar c = 'Σ' ↔ c = 'Σ' :=
  decide_eq_decide.mp
    (apply_foldChar (fun c => decide (c = 'Σ'))
      (by decide +kernel) c)

/- Case of ASCII does not matter to what is cased. -/
theorem casedNext_fold (cs : List Char) :
    casedNext (cs.map foldChar) = casedNext cs := by
  unfold casedNext
  induction cs with
  | nil => rfl
  | cons c r ih =>
      rw [List.map_cons, List.dropWhile_cons, List.dropWhile_cons,
        isIgnorable_foldChar]
      by_cases hIgnored : inRanges ignorableRanges c = true
      · rw [if_pos hIgnored, if_pos hIgnored]
        exact ih
      · rw [if_neg hIgnored, if_neg hIgnored]
        exact isCased_foldChar c

/- The induction is on what is still to be read. -/
theorem lowerFrom_fold (before cs : List Char) :
    lowerFrom (before.map foldChar) (cs.map foldChar) =
      lowerFrom before cs := by
  induction cs generalizing before with
  | nil => rfl
  | cons c r ih =>
      have hSigma :
          lowerSigma (before.map foldChar) (r.map foldChar) =
            lowerSigma before r := by
        unfold lowerSigma
        rw [casedNext_fold before, casedNext_fold r]
      rw [List.map_cons, lowerFrom, lowerFrom, ← ih, hSigma,
        lowerChar_foldChar, List.map_cons]
      simp only [foldChar_eq_sigma]

/- Names that agree up to ASCII case agree in lower case. -/
theorem lower_of_sameName
    {a b : String}
    (h : sameName a b = true) : lower a = lower b := by
  unfold lower
  rw [← lowerFrom_fold [] a.toList, ← lowerFrom_fold [] b.toList,
    (sameName_iff a b).mp h]

------------------------------------------------------------
-- From lower case to ASCII case
------------------------------------------------------------

/- An ASCII character that is the small letter of no other. -/
def isOwnLower (c : Char) : Bool :=
  decide (c.toNat < 128) && c != 'k'

/-
  A range of the table is within ASCII, is the Kelvin sign, or
  has only characters outside of ASCII as small letters.
-/
def CaseRange.staysOutside (r : CaseRange) : Bool :=
  decide (r.last < 128) ||
  decide (r.first = 0x212A ∧ r.last = 0x212A ∧ r.shift = -8383) ||
  decide (128 ≤ (r.first : Int) + r.shift ∧
    ((r.last : Int) + r.shift < 0xD800 ∨
      0xE000 ≤ (r.first : Int) + r.shift ∧
        (r.last : Int) + r.shift < 0x110000))

theorem lowerRanges_stayOutside :
    lowerRanges.all (·.staysOutside) = true := by
  decide +kernel

/- A capital letter outside of ASCII has no such small letter. -/
theorem CaseRange.not_isOwnLower
    {r : CaseRange}
    {n : Nat}
    (hOutside : r.staysOutside = true)
    (hHolds : r.holds n = true)
    (hN : 128 ≤ n) :
    isOwnLower (Char.ofNat (n + r.shift).toNat) = false := by
  simp only [CaseRange.holds, Bool.and_eq_true,
    decide_eq_true_eq] at hHolds
  obtain ⟨⟨hFirst, hLast⟩, -⟩ := hHolds
  simp only [staysOutside, Bool.or_eq_true,
    decide_eq_true_eq] at hOutside
  rcases hOutside with (hAscii | ⟨hOne, hOnly, hShift⟩) |
    ⟨hAbove, hValid⟩
  · omega
  · have hKelvin : n = 0x212A := by omega
    rw [hKelvin, hShift]
    rfl
  · have hCode : ((n : Int) + r.shift).toNat.isValidChar := by
      rw [Nat.isValidChar]
      omega
    have hNot : ¬ (Char.ofNat ((n : Int) + r.shift).toNat).toNat <
        128 := by
      rw [Char.ofNat, dif_pos hCode]
      change ¬ ((n : Int) + r.shift).toNat < 128
      omega
    rw [isOwnLower, decide_eq_false hNot, Bool.false_and]

/- Small letters that are ASCII come of ASCII alone. -/
theorem lowerChar_of_isOwnLower
    {c : Char}
    (h : ∀ x ∈ lowerChar c, isOwnLower x = true) :
    lowerChar c = [foldChar c] := by
  unfold lowerChar at h ⊢
  by_cases hAscii : c.toNat < 128
  · rw [if_pos hAscii, foldChar]
    split <;> rfl
  · rw [if_neg hAscii] at h ⊢
    exfalso
    by_cases hDotted : c.toNat = 0x130
    · rw [if_pos hDotted] at h
      exact absurd (h (Char.ofNat 0x307) (by simp)) (by decide)
    · rw [if_neg hDotted] at h
      cases hRange : lowerRanges.find? (·.holds c.toNat) with
      | none =>
          rw [hRange] at h
          have hOwn := h c (List.mem_singleton_self c)
          rw [isOwnLower, decide_eq_false hAscii] at hOwn
          exact absurd hOwn (by simp)
      | some r =>
          rw [hRange] at h
          have hOwn := h _ (List.mem_singleton_self _)
          have hOutside := List.all_eq_true.mp
            lowerRanges_stayOutside r
            (List.mem_of_find?_eq_some hRange)
          have hHolds := List.find?_some hRange
          rw [CaseRange.not_isOwnLower hOutside hHolds
            (by omega)] at hOwn
          exact absurd hOwn (by decide)

/- The induction is on what is still to be read. -/
theorem lowerFrom_of_isOwnLower
    {before cs : List Char}
    (h : ∀ x ∈ lowerFrom before cs, isOwnLower x = true) :
    lowerFrom before cs = cs.map foldChar := by
  induction cs generalizing before with
  | nil => rfl
  | cons c r ih =>
      rw [lowerFrom] at h ⊢
      by_cases hSigma : c = 'Σ'
      · have hOwn := h (lowerSigma before r) (by simp [hSigma])
        unfold lowerSigma at hOwn
        split at hOwn <;> exact absurd hOwn (by decide)
      · rw [if_neg hSigma] at h ⊢
        rw [lowerChar_of_isOwnLower fun x hX =>
            h x (List.mem_append_left _ hX),
          ih fun x hX => h x (List.mem_append_right _ hX)]
        rfl

/- A lower-case form of this kind is that of ASCII case. -/
theorem sameName_of_lower
    {a b : String}
    (hOwn : ∀ x ∈ (lower a).toList, isOwnLower x = true)
    (h : lower a = lower b) : sameName a b = true := by
  have hFold (s : String)
      (hS : ∀ x ∈ (lower s).toList, isOwnLower x = true) :
      s.toList.map foldChar = (lower s).toList := by
    unfold lower at hS ⊢
    rw [String.toList_ofList] at hS ⊢
    exact (lowerFrom_of_isOwnLower hS).symm
  rw [sameName_iff, hFold a hOwn, hFold b (h ▸ hOwn), h]

end Text

end Failover
