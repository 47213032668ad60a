/-
  Splitting a text at a character, joining parts, and finding
  one text in another.

  Key definitions include:
    * `Text.splitOn`
    * `Text.includes`
    * `Text.splitAtFirst?`
-/

namespace Failover

namespace Text

/- The parts of a text between the occurrences of a mark. -/
def splitOn
    (mark : Char) : List Char → List (List Char)
  | [] => [[]]
  | c :: r =>
      if c = mark then [] :: splitOn mark r
      else
        match splitOn mark r with
        | [] => [[c]]
        | p :: ps => (c :: p) :: ps

/- One text occurs somewhere in another. -/
def includes
    (part : List Char) : List Char → Bool
  | [] => part.isEmpty
  | c :: r => part.isPrefixOf (c :: r) || includes part r

/- What stands before and after the first occurrence. -/
def splitAtFirst?
    (mark : Char) :
    List Char → Option (List Char × List Char)
  | [] => none
  | c :: r =>
      if c = mark then some ([], r)
      else (splitAtFirst? mark r).map fun (a, b) => (c :: a, b)

/- Splitting gives at least one part. -/
theorem splitOn_ne_nil
    (mark : Char)
    (cs : List Char) :
    splitOn mark cs ≠ [] := by
  induction cs with
  | nil => simp [splitOn]
  | cons c r ih =>
      simp only [splitOn]
      split
      · simp
      · split <;> simp

/- A text is split as a list is. -/
theorem splitOn_eq_list_splitOn
    (mark : Char)
    (cs : List Char) :
    splitOn mark cs = cs.splitOn mark := by
  induction cs with
  | nil => rfl
  | cons c rest ih =>
      unfold List.splitOn at ih ⊢
      rw [splitOn, List.splitOnP_cons_eq_if_modifyHead, ih]
      simp only [beq_iff_eq]
      by_cases hMark : c = mark
      · rw [if_pos hMark, if_pos hMark]
      · rw [if_neg hMark, if_neg hMark]
        cases hParts : rest.splitOnP (· == mark) with
        | nil => exact absurd hParts (List.splitOnP_ne_nil _ _)
        | cons p ps => rfl

/- No part holds the mark. -/
theorem mark_not_mem
    (mark : Char)
    (cs : List Char) :
    ∀ p ∈ splitOn mark cs, mark ∉ p := by
  induction cs with
  | nil => simp [splitOn]
  | cons c r ih =>
      rw [splitOn]
      split
      · simpa using ih
      · next hNe =>
        split
        · simpa using Ne.symm hNe
        · next p ps hParts =>
          rw [hParts, List.forall_mem_cons] at ih
          rw [List.forall_mem_cons, List.mem_cons, not_or]
          exact ⟨⟨Ne.symm hNe, ih.1⟩, ih.2⟩

end Text

end Failover
