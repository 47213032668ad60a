import Failover.Text.Blank
import Failover.Text.Fold
import Mathlib.Data.List.Basic

/-
  Text with white space around it.  Trimming takes away all of
  it and nothing else.

  Key definitions include:
    * `Text.IsTight`

  Main statements:
    * `Text.IsTight.around`
    * `Text.trim_surrounded`
    * `Text.isTight_trim`
-/

namespace Failover

namespace Text

/- A text has no white space at its ends. -/
structure IsTight (cs : List Char) : Prop where
  head : ∀ c ∈ cs.head?, isBlank c = false
  last : ∀ c ∈ cs.getLast?, isBlank c = false

theorem isTight_of_forall
    {cs : List Char}
    (hNone : ∀ c ∈ cs, isBlank c = false) : IsTight cs where
  head c hC := hNone c (List.mem_of_mem_head? hC)
  last c hC := hNone c (List.mem_of_getLast? hC)

/- Two tight texts around another one make a tight text. -/
theorem IsTight.around
    {xs ys : List Char}
    (hXs : IsTight xs)
    (hYs : IsTight ys)
    (hXs' : xs ≠ [])
    (hYs' : ys ≠ [])
    (between : List Char) :
    IsTight (xs ++ (between ++ ys)) where
  head c hC := by
    rw [List.head?_append_of_ne_nil _ hXs'] at hC
    exact hXs.head c hC
  last c hC := by
    rw [List.getLast?_append_of_ne_nil _
        (List.append_ne_nil_of_right_ne_nil _ hYs'),
      List.getLast?_append_of_ne_nil _ hYs'] at hC
    exact hYs.last c hC

/- A digit is no white space. -/
theorem isBlank_of_isDigit
    {c : Char}
    (hC : isDigit c = true) : isBlank c = false := by
  simp only [isDigit, Bool.and_eq_true, decide_eq_true_eq] at hC
  have hFirst : 48 ≤ c.toNat := hC.1
  have hLast : c.toNat ≤ 57 := hC.2
  simp only [isBlank, Bool.or_eq_false_iff, Bool.and_eq_false_iff,
    decide_eq_false_iff_not, beq_eq_false_iff_ne]
  omega

/- Dropping blanks ends at a text that begins with none. -/
theorem dropBlanks_append
    {before cs : List Char}
    (hBefore : ∀ c ∈ before, isBlank c = true)
    (hHead : ∀ c ∈ cs.head?, isBlank c = false) :
    (before ++ cs).dropWhile isBlank = cs := by
  rw [List.dropWhile_append_of_pos hBefore]
  cases cs with
  | nil => rfl
  | cons c r =>
      rw [List.dropWhile_cons_of_neg]
      rw [hHead c rfl]
      exact Bool.false_ne_true

/- White space around a text is trimmed. -/
theorem trim_surrounded
    {before after : List Char}
    {s : String}
    (hBefore : ∀ c ∈ before, isBlank c = true)
    (hAfter : ∀ c ∈ after, isBlank c = true)
    (hTight : IsTight s.toList)
    (hSome : s.toList ≠ []) :
    trim (String.ofList (before ++ (s.toList ++ after))) = s := by
  have hHead : ∀ c ∈ (s.toList ++ after).head?,
      isBlank c = false := by
    obtain ⟨d, r, hChars⟩ := List.exists_cons_of_ne_nil hSome
    have hFirst := hTight.head
    rw [hChars] at hFirst ⊢
    exact hFirst
  have hLast : ∀ c ∈ s.toList.reverse.head?,
      isBlank c = false := by
    rw [List.head?_reverse]
    exact hTight.last
  have hReversed : ∀ c ∈ after.reverse, isBlank c = true :=
    fun c hC => hAfter c (List.mem_reverse.mp hC)
  unfold trim trimBoth
  rw [String.toList_ofList, dropBlanks_append hBefore hHead,
    List.reverse_append, dropBlanks_append hReversed hLast,
    List.reverse_reverse, String.ofList_toList]

/- A text without white space at its ends stays the same. -/
theorem trim_of_isTight
    {s : String}
    (hTight : IsTight s.toList)
    (hSome : s.toList ≠ []) : trim s = s := by
  have hSame := @trim_surrounded [] [] s nofun nofun hTight hSome
  rw [List.nil_append, List.append_nil,
    String.ofList_toList] at hSame
  exact hSame

/- A trimmed text has no white space at its ends. -/
theorem isTight_trim (s : String) : IsTight (trim s).toList := by
  rw [trim, String.toList_ofList, trimBoth]
  constructor
  · intro c hC
    have hPrefix : ((s.toList.dropWhile isBlank).reverse.dropWhile
        isBlank).reverse <+: s.toList.dropWhile isBlank := by
      rw [← List.reverse_suffix, List.reverse_reverse]
      exact List.dropWhile_suffix _
    obtain ⟨r, hText⟩ := hPrefix
    have hHead := List.head?_dropWhile_not isBlank s.toList
    rw [← hText, List.head?_append, Option.mem_def.mp hC] at hHead
    simpa using hHead
  · intro c hC
    rw [List.getLast?_reverse] at hC
    have hHead := List.head?_dropWhile_not isBlank
      (s.toList.dropWhile isBlank).reverse
    rw [Option.mem_def.mp hC] at hHead
    simpa using hHead

/- Each character of a trimmed text is one of the text. -/
theorem mem_of_mem_trim
    {s : String}
    {c : Char}
    (h : c ∈ (trim s).toList) : c ∈ s.toList := by
  rw [trim, String.toList_ofList, trimBoth,
    List.mem_reverse] at h
  exact (List.dropWhile_suffix _).subset
    (List.mem_reverse.mp ((List.dropWhile_suffix _).subset h))

end Text

end Failover
