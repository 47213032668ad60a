import Mathlib.Data.List.FinRange
import Mathlib.Data.List.Forall2
import Mathlib.Data.List.Induction
import Mathlib.Data.List.Nodup

/-
  Facts about computations that may fail, lists and numbers
  that are not about any part of the program.

  Main statements:
    * `bind_eq_ok_iff`, `mapM_eq_ok_iff`
    * `eraseDups_append_singleton`
    * `existsUnique_mod`
-/

namespace Failover

------------------------------------------------------------
-- Computations that may fail
------------------------------------------------------------

/-
  A computation followed by another has a result exactly if
  both have one.
-/
theorem bind_eq_ok_iff
    {α β ε : Type}
    {x : Except ε α}
    {f : α → Except ε β}
    {b : β} :
    (x >>= f) = .ok b ↔ ∃ a, x = .ok a ∧ f a = .ok b := by
  cases x with
  | error e =>
      constructor
      · intro h
        cases h
      · intro h
        obtain ⟨a, hA, -⟩ := h
        cases hA
  | ok a =>
      constructor
      · intro h
        exact ⟨a, rfl, h⟩
      · intro h
        obtain ⟨a', hA, hB⟩ := h
        cases hA
        exact hB

/- A list of computations has results exactly if each has one. -/
theorem mapM_eq_ok_iff
    {α β ε : Type}
    {f : α → Except ε β}
    {xs : List α}
    {ys : List β} :
    xs.mapM f = .ok ys ↔
      List.Forall₂ (fun x y => f x = .ok y) xs ys := by
  induction xs generalizing ys with
  | nil =>
      rw [List.mapM_nil, List.forall₂_nil_left_iff]
      constructor
      · intro h
        cases h
        rfl
      · intro h
        rw [h]
        rfl
  | cons x rest ih =>
      rw [List.mapM_cons, List.forall₂_cons_left_iff,
        bind_eq_ok_iff]
      constructor
      · intro h
        obtain ⟨y, hY, hRest⟩ := h
        obtain ⟨zs, hZs, hPure⟩ := bind_eq_ok_iff.mp hRest
        cases hPure
        exact ⟨y, zs, hY, ih.mp hZs, rfl⟩
      · intro h
        obtain ⟨y, zs, hY, hZs, rfl⟩ := h
        refine ⟨y, hY, ?_⟩
        rw [bind_eq_ok_iff]
        exact ⟨zs, ih.mpr hZs, rfl⟩

/- A list of computations has results if each has one. -/
theorem mapM_returns
    {α β ε : Type}
    {f : α → Except ε β}
    {xs : List α}
    (h : ∀ x ∈ xs, ∃ y, f x = .ok y) :
    ∃ ys, xs.mapM f = .ok ys := by
  induction xs with
  | nil => exact ⟨[], rfl⟩
  | cons x rest ih =>
      obtain ⟨y, hY⟩ := h x (List.mem_cons_self ..)
      obtain ⟨ys, hYs⟩ := ih fun z hZ =>
        h z (List.mem_cons_of_mem _ hZ)
      refine ⟨y :: ys, ?_⟩
      rw [mapM_eq_ok_iff] at hYs ⊢
      exact .cons hY hYs

------------------------------------------------------------
-- Lists
------------------------------------------------------------

/- Each element of the second list comes from one of the first. -/
theorem exists_related
    {α β : Type}
    {R : α → β → Prop}
    {xs : List α}
    {ys : List β}
    {y : β}
    (h : List.Forall₂ R xs ys)
    (hY : y ∈ ys) : ∃ x ∈ xs, R x y := by
  induction h with
  | nil => cases hY
  | cons hThis _ ih =>
      rcases List.mem_cons.mp hY with rfl | hLater
      · exact ⟨_, List.mem_cons_self .., hThis⟩
      · obtain ⟨x, hX, hMade⟩ := ih hLater
        exact ⟨x, List.mem_cons_of_mem _ hX, hMade⟩

/-
  A last element stays if it is new, and is left out if it is
  not.
-/
theorem eraseDups_append_singleton
    (xs : List Nat)
    (x : Nat) :
    (xs ++ [x]).eraseDups =
      if x ∈ xs then xs.eraseDups else xs.eraseDups ++ [x] := by
  rw [List.eraseDups_append]
  by_cases h : x ∈ xs <;>
    simp [List.removeAll, h, List.eraseDups_cons]

/- A list without its repetitions has none. -/
theorem nodup_eraseDups
    (xs : List Nat) : xs.eraseDups.Nodup := by
  induction xs using List.reverseRecOn with
  | nil => simp
  | append_singleton xs x ih =>
      rw [eraseDups_append_singleton]
      split
      · exact ih
      · next hNew =>
        have hApart (y : Nat) (hOld : y ∈ xs.eraseDups) :
            y ≠ x :=
          ne_of_mem_of_not_mem (List.mem_eraseDups.mp hOld) hNew
        simpa [List.nodup_append, ih] using hApart

/- A number above all others is a new one. -/
theorem nodup_snoc
    {n : Nat}
    {xs : List Nat}
    (hNodup : xs.Nodup)
    (hLess : ∀ i ∈ xs, i < n) :
    (xs ++ [n]).Nodup := by
  rw [List.nodup_append]
  refine ⟨hNodup, List.nodup_singleton n, ?_⟩
  intro i hI j hJ
  rw [List.mem_singleton] at hJ
  have := hLess i hI
  omega

/- A filter that leaves out nothing keeps the places of a list. -/
theorem getElem?_filterMap_of_isSome
    {α β : Type}
    {f : α → Option β}
    {xs : List α}
    (hFound : ∀ x ∈ xs, (f x).isSome = true)
    (i : Nat) :
    (xs.filterMap f)[i]? = xs[i]?.bind f := by
  induction xs generalizing i with
  | nil => rfl
  | cons x xs ih =>
      rw [List.forall_mem_cons] at hFound
      obtain ⟨y, hY⟩ := Option.isSome_iff_exists.mp hFound.1
      rw [List.filterMap_cons_some hY]
      cases i with
      | zero => exact hY.symm
      | succ i => exact ih hFound.2 i

/- Elements with their positions, by position. -/
theorem zipIdx_eq_finRange
    {α : Type}
    (xs : List α) :
    xs.zipIdx =
      (List.finRange xs.length).map fun i => (xs[i], i.val) := by
  apply List.ext_getElem
  · simp
  · intro i hLeft hRight
    simp

/- The first results of a list that has one more. -/
theorem range_getElem?_cons
    {β : Type}
    (x : β)
    (xs : List β)
    (n : Nat) :
    (List.range (n + 1)).map ((x :: xs)[·]?) =
      some x :: (List.range n).map (xs[·]?) := by
  rw [List.range_succ_eq_map, List.map_cons, List.map_map]
  rfl

/- The empty list has nothing at any place. -/
theorem range_getElem?_nil
    {β : Type}
    (n : Nat) :
    (List.range n).map (([] : List β)[·]?) =
      List.replicate n none := by
  simp

------------------------------------------------------------
-- Numbers
------------------------------------------------------------

/-
  Among as many numbers in a row as the modulus, one has a
  given remainder.
-/
theorem existsUnique_mod
    {n p : Nat}
    (start : Nat)
    (hP : p < n) :
    ∃! i, (start ≤ i ∧ i < start + n) ∧ i % n = p := by
  have hStart : n * (start / n) + start % n = start :=
    Nat.div_add_mod start n
  have hLess : start % n < n := Nat.mod_lt start (by omega)
  have hMod (q : Nat) : (n * q + p) % n = p := by
    rw [Nat.mul_add_mod, Nat.mod_eq_of_lt hP]
  have hExists :
      ∃ i, (start ≤ i ∧ i < start + n) ∧ i % n = p := by
    by_cases hLate : start % n ≤ p
    · refine ⟨n * (start / n) + p, ⟨?_, ?_⟩, hMod _⟩ <;> omega
    · refine ⟨n * (start / n + 1) + p, ⟨?_, ?_⟩, hMod _⟩ <;>
        rw [Nat.mul_succ] <;> omega
  have hApart (i j : Nat) (hLow : start ≤ i) (hIJ : i < j)
      (hHigh : j < start + n) : i % n ≠ j % n := by
    intro hSame
    have hZero : (j - i) % n = 0 :=
      Nat.sub_mod_eq_zero_of_mod_eq hSame.symm
    have hDvd := Nat.dvd_of_mod_eq_zero hZero
    have hLe := Nat.le_of_dvd (by omega) hDvd
    omega
  obtain ⟨i, hI, hP⟩ := hExists
  refine ⟨i, ⟨hI, hP⟩, ?_⟩
  rintro j ⟨hJ, hJP⟩
  rcases Nat.lt_trichotomy i j with hIJ | hIJ | hJI
  · exact absurd (hP.trans hJP.symm) (hApart i j hI.1 hIJ hJ.2)
  · exact hIJ.symm
  · exact absurd (hJP.trans hP.symm) (hApart j i hJ.1 hJI hI.2)

end Failover
