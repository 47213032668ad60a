import Failover.Cluster.Route
import Failover.Proofs.Effect.Ends
import Mathlib.Data.List.Nodup
import Mathlib.Data.List.Perm.Basic

/-
  The order of the members of a cluster.  Lists are in the
  order of a key, where equal keys stay in the order of the
  places at which the elements stood; and a policy has each
  member tried, as often as it is listed.

  Key definitions include:
    * `ComesBefore`
    * `IsArranged`
    * `Policy.IsRanked`

  Main statements:
    * `mergeSort_isArranged`
    * `Cluster.ordered_isArranged`
    * `Policy.rank_perm`
    * `World.rank_length`
    * `World.rank_orders`
-/

namespace Failover

section Arranged

variable {α : Type}
variable {key : α → Int}

/- By the key, and by the place where the keys are equal. -/
def ComesBefore
    (key : α → Int)
    (a b : α × Nat) : Prop :=
  key a.1 < key b.1 ∨ key a.1 = key b.1 ∧ a.2 < b.2

/- The elements are those of the places, one before the other. -/
def IsArranged
    (key : α → Int)
    (placed : List (α × Nat))
    (xs : List α) : Prop :=
  ∃ sorted : List (α × Nat),
    sorted.Perm placed ∧
    sorted.Pairwise (ComesBefore key) ∧
    xs = sorted.map (·.1)

theorem IsArranged.perm
    {placed : List (α × Nat)}
    {xs : List α}
    (h : IsArranged key placed xs) :
    xs.Perm (placed.map (·.1)) := by
  obtain ⟨sorted, hSorted, -, rfl⟩ := h
  exact hSorted.map _

/- Whether an element may stand before another. -/
def keyLE (key : α → Int) (a b : α) : Bool :=
  decide (key a ≤ key b)

/- A list with its indices is sorted by the keys, then by these. -/
theorem mergeSort_zipIdx_comesBefore (xs : List α) :
    (xs.zipIdx.mergeSort (List.zipIdxLE (keyLE key))).Pairwise
      (ComesBefore key) := by
  have hOrder : (xs.zipIdx.mergeSort
      (List.zipIdxLE (keyLE key))).Pairwise fun a b =>
        List.zipIdxLE (keyLE key) a b = true := by
    apply List.pairwise_mergeSort
    · apply List.zipIdxLE_trans
      intro a b c hAB hBC
      simp only [keyLE, decide_eq_true_eq] at hAB hBC ⊢
      omega
    · apply List.zipIdxLE_total
      intro a b
      simp only [keyLE, Bool.or_eq_true, decide_eq_true_eq]
      omega
  have hApart : (xs.zipIdx.mergeSort
      (List.zipIdxLE (keyLE key))).Pairwise fun a b =>
        a.2 ≠ b.2 := by
    rw [← List.pairwise_map (f := Prod.snd)]
    change List.Nodup _
    rw [((List.mergeSort_perm xs.zipIdx _).map _).nodup_iff,
      List.zipIdx_map_snd]
    exact List.nodup_range'
  apply (hOrder.and hApart).imp
  intro a b hBoth
  obtain ⟨hLE, hNe⟩ := hBoth
  by_cases hBack : key b.1 ≤ key a.1
  · by_cases hTo : key a.1 ≤ key b.1
    · simp [List.zipIdxLE, keyLE, hTo, hBack] at hLE
      right
      omega
    · simp [List.zipIdxLE, keyLE, hTo] at hLE
  · left
    omega

/-
  A merge sort keeps the order of the places, whichever these
  are: what is known of the indices of the list is carried over
  to the places that stand at these indices.
-/
theorem mergeSort_isArranged
    {placed : List (α × Nat)}
    (hPlaces : (placed.map (·.2)).Pairwise (· < ·)) :
    IsArranged key placed
      ((placed.map (·.1)).mergeSort (keyLE key)) := by
  let indexed := (placed.map (·.1)).zipIdx
  let sorted := indexed.mergeSort (List.zipIdxLE (keyLE key))
  let place (a : α × Nat) : α × Nat :=
    (a.1, (placed.map (·.2)).getD a.2 0)
  have hSorted : sorted.Perm indexed := List.mergeSort_perm _ _
  have hPlaced : indexed.map place = placed := by
    apply List.ext_getElem
    · simp [indexed]
    · intro i hI hI'
      simp [indexed, place, hI']
  have hLess (i j : Nat) (hIJ : i < j) (hJ : j < placed.length) :
      (placed.map (·.2)).getD i 0 < (placed.map (·.2)).getD j 0 := by
    have hBoth := List.pairwise_iff_getElem.mp hPlaces i j
      (by rw [List.length_map]; omega)
      (by rw [List.length_map]; omega) hIJ
    have hI : i < placed.length := by omega
    simpa [hI, hJ] using hBoth
  refine ⟨sorted.map place, ?_, ?_, ?_⟩
  · rw [← hPlaced]
    exact hSorted.map place
  · rw [List.pairwise_map]
    apply (mergeSort_zipIdx_comesBefore _).imp_of_mem
    intro a b hA hB hBefore
    have hB : b ∈ indexed := hSorted.mem_iff.mp hB
    have hIn : b.2 < placed.length := by
      have hIndex := List.snd_lt_of_mem_zipIdx hB
      simpa using hIndex
    apply hBefore.imp_right
    intro hTie
    exact ⟨hTie.1, hLess a.2 b.2 hTie.2 hIn⟩
  · rw [List.map_map]
    exact List.mergeSort_zipIdx.symm

end Arranged

namespace Cluster

/-
  The members of a cluster are those that are enabled, by their
  sequence numbers and then by their places among all.
-/
theorem ordered_isArranged (members : List Repository) :
    IsArranged Repository.sequence
      (members.zipIdx.filter (·.1.enabled))
      (ordered members) := by
  have hAll : (members.zipIdx.filter (·.1.enabled)).map (·.1) =
      members.filter (·.enabled) := by
    have hFilter := List.filter_map (f := Prod.fst)
      (p := Repository.enabled) (l := members.zipIdx)
    rw [List.zipIdx_map_fst] at hFilter
    exact hFilter.symm
  unfold ordered
  rw [← hAll]
  apply mergeSort_isArranged
  apply List.Pairwise.sublist (List.filter_sublist.map _)
  rw [List.zipIdx_map_snd]
  exact List.pairwise_lt_range'

end Cluster

namespace Policy

/- No rule of its own orders the members. -/
def IsRanked (p : Policy) : Prop :=
  ∀ order, p.ranking ≠ .custom order

/- The members that cool are those that are not left out. -/
theorem coolingMembers_members
    (cooling : Repository → Option Nat)
    (members : List Repository) :
    (coolingMembers cooling members).map (·.2) =
      members.filter fun m => !(cooling m).isNone := by
  induction members with
  | nil => rfl
  | cons m rest ih =>
      rw [coolingMembers] at ih ⊢
      cases hCooling : cooling m with
      | none =>
          rw [List.filterMap_cons_none (by rw [hCooling]; rfl), ih]
          simp [hCooling]
      | some t =>
          rw [List.filterMap_cons_some (by rw [hCooling]; rfl),
            List.map_cons, ih]
          simp [hCooling]

theorem rankByCooling_perm
    (cooling : Repository → Option Nat)
    (members : List Repository) :
    (rankByCooling cooling members).Perm members := by
  have hSorted := (List.mergeSort_perm
    (coolingMembers cooling members)
    fun a b => decide (b.1 ≤ a.1)).map (·.2)
  rw [coolingMembers_members] at hSorted
  refine (hSorted.append_left _).trans ?_
  exact List.filter_append_perm _ members

theorem rotated_perm
    {α : Type}
    (turn : UInt64)
    (members : List α) :
    (rotated turn members).Perm members := by
  refine List.perm_append_comm.trans ?_
  rw [List.take_append_drop]

theorem rank_perm
    {p : Policy}
    (hRanked : p.IsRanked)
    (turn : UInt64)
    (now : Nat)
    (health : Repository → Health)
    (members : List Repository) :
    (p.rank turn now health members).Perm members := by
  unfold rank
  split
  · exact rankByCooling_perm _ members
  · exact .refl _
  · exact rotated_perm turn members
  · exact absurd ‹_› (hRanked _)

end Policy

/- A ranking has as many members as the cluster. -/
theorem World.rank_length
    {k : Cluster}
    (hRanked : k.policy.IsRanked)
    (w : World) :
    Effect.Ends (rank k) w fun x _ =>
      ∀ ranked, x = .ok ranked →
        ranked.length = k.members.length := by
  unfold rank
  cases k.available with
  | error f => exact nofun
  | ok _ =>
      rintro ranked ⟨⟩
      exact (Policy.rank_perm hRanked _ _ _ k.members).length_eq

/-
  A cluster that takes no commands ranks nothing.  Else it has
  members, and each of them is ranked.
-/
theorem World.rank_orders
    {k : Cluster}
    (hRanked : k.policy.IsRanked)
    (w : World) :
    Effect.Ends (rank k) w fun x w' =>
      (∃ f, k.available = .error f ∧ x = .error f ∧ w' = w) ∨
      ∃ ranked, x = .ok ranked ∧ ranked ≠ [] ∧
        ranked.Perm k.members ∧
        Effect.Leads (order k) w ranked w' := by
  unfold rank
  cases hAvailable : k.available with
  | error f => exact .inl ⟨f, rfl, rfl, rfl⟩
  | ok _ =>
      obtain ⟨ranked, w₁, hOrder⟩ :=
        Effect.exists_leads (order k) w
      have hPerm : ranked.Perm k.members := by
        cases hOrder
        exact Policy.rank_perm hRanked _ _ _ _
      have hSome : ranked ≠ [] := by
        intro hNone
        rw [hNone, List.nil_perm] at hPerm
        rw [Cluster.available, hPerm] at hAvailable
        split at hAvailable <;> cases hAvailable
      rw [Effect.ends_bind, hOrder.ends_iff, Effect.ends_pure]
      exact .inr ⟨ranked, rfl, hSome, hPerm, hOrder⟩

end Failover
