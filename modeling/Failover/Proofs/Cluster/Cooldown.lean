import Failover.Proofs.Cluster.Order
import Failover.Proofs.Health.Counters

/-
  The order of members by a cooldown.  Those that failed too
  often in a row, and not long ago, come after all others, the
  one whose last failure is longest ago first.  Nobody is left
  out.

  Key definitions include:
    * `Policy.rested?`, `Policy.isCooling`
    * `Policy.RestedLonger`
    * `Policy.IsCooledDown`

  Main statements:
    * `Policy.cooling?_ofHistory`
    * `Policy.rankByCooling_arranged`
    * `Policy.cooldown_ranks`
-/

namespace Failover

open Health (Verdict ofHistory failuresInARow lastFailure?)

namespace Policy

------------------------------------------------------------
-- Members that cool
------------------------------------------------------------

/- How long ago the last failure of a history came. -/
def rested?
    (now : Nat)
    (vs : List Verdict) : Option Nat :=
  (lastFailure? vs).map (now - ·)

/-
  There were enough failures since the last success, and the
  last one was not long enough ago.
-/
def isCooling
    (threshold micros now : Nat)
    (vs : List Verdict) : Bool :=
  decide (max threshold 1 ≤ failuresInARow vs) &&
    (rested? now vs).any fun t => decide (t < micros)

section
variable {threshold micros now : Nat} {vs : List Verdict}

/- A member that cools does so for the time since it failed. -/
theorem cooling?_ofHistory :
    cooling? threshold micros now (ofHistory vs) =
      if isCooling threshold micros now vs then rested? now vs
      else none := by
  unfold cooling? isCooling
  rw [Health.consecutiveFailures_ofHistory,
    Health.sinceFailure?_ofHistory, ← rested?]
  by_cases hFew : failuresInARow vs < max threshold 1
  · rw [if_pos hFew, decide_eq_false (Nat.not_le.mpr hFew)]
    rfl
  · rw [if_neg hFew, decide_eq_true (Nat.not_lt.mp hFew)]
    cases rested? now vs with
    | none => rfl
    | some t =>
        cases hRecent : decide (t < micros) <;>
          simp [Option.filter, hRecent]

/- A member that cools has failed before. -/
theorem exists_rested
    (h : isCooling threshold micros now vs = true) :
    ∃ t, rested? now vs = some t := by
  have hRecent := (Bool.and_eq_true_iff.mp h).2
  cases hRested : rested? now vs with
  | none =>
      rw [hRested] at hRecent
      cases hRecent
  | some t => exact ⟨t, rfl⟩

theorem cooling?_isSome :
    (cooling? threshold micros now (ofHistory vs)).isSome =
      isCooling threshold micros now vs := by
  rw [cooling?_ofHistory]
  cases hCools : isCooling threshold micros now vs with
  | false => rfl
  | true =>
      obtain ⟨t, hRested⟩ := exists_rested hCools
      rw [if_pos rfl, hRested]
      rfl

theorem rested?_of_cooling?
    {t : Nat}
    (h : cooling? threshold micros now (ofHistory vs) = some t) :
    rested? now vs = some t := by
  rw [cooling?_ofHistory] at h
  split at h
  · exact h
  · cases h

end

------------------------------------------------------------
-- Their order
------------------------------------------------------------

/-
  One of two members, each at its place, has rested longer than
  the other, or as long and stands before it.
-/
def RestedLonger
    (rested? : Repository → Option Nat)
    (a b : Repository × Nat) : Prop :=
  ∃ s t, rested? a.1 = some s ∧ rested? b.1 = some t ∧
    (t < s ∨ s = t ∧ a.2 < b.2)

/- A member that cools, with its rest and its place. -/
def restAt?
    (cooling : Repository → Option Nat)
    (x : Repository × Nat) : Option ((Nat × Repository) × Nat) :=
  (cooling x.1).map fun t => ((t, x.1), x.2)

/- By this key the longest rest comes first. -/
def restKey (x : Nat × Repository) : Int :=
  -x.1

section
variable (cooling : Repository → Option Nat)
variable (members : List Repository)

/- The members that cool are arranged by rests and places. -/
theorem coolingMembers_isArranged :
    IsArranged restKey
      (members.zipIdx.filterMap (restAt? cooling))
      ((coolingMembers cooling members).mergeSort
        fun a b => decide (b.1 ≤ a.1)) := by
  have hMembers : (members.zipIdx.filterMap (restAt? cooling)).map
      (·.1) = coolingMembers cooling members := by
    unfold coolingMembers
    conv_rhs => rw [← members.zipIdx_map_fst 0]
    rw [List.map_filterMap, List.filterMap_map]
    exact congrArg (List.filterMap · _)
      (funext fun x => Option.map_map ..)
  have hOrder : (fun a b : Nat × Repository =>
      decide (b.1 ≤ a.1)) = keyLE restKey := by
    funext a b
    unfold keyLE restKey
    rw [decide_eq_decide]
    omega
  rw [← hMembers, hOrder]
  apply mergeSort_isArranged
  rw [List.pairwise_map, List.pairwise_filterMap]
  have hPlaces : members.zipIdx.Pairwise fun x y => x.2 < y.2 := by
    rw [← List.pairwise_map (f := Prod.snd), List.zipIdx_map_snd]
    exact List.pairwise_lt_range'
  refine hPlaces.imp ?_
  intro x y hBefore x' hX y' hY
  obtain ⟨s, -, rfl⟩ := Option.map_eq_some_iff.mp hX
  obtain ⟨t, -, rfl⟩ := Option.map_eq_some_iff.mp hY
  exact hBefore

/-
  The members that do not cool come first and as they are
  listed, and then those that do by rests and places.
-/
theorem rankByCooling_arranged :
    ∃ last : List (Repository × Nat),
      last.Perm
        (members.zipIdx.filter fun x => (cooling x.1).isSome) ∧
      last.Pairwise (RestedLonger cooling) ∧
      rankByCooling cooling members =
        members.filter (fun m => (cooling m).isNone) ++
          last.map (·.1) := by
  obtain ⟨sorted, hSorted, hOrder, hMembers⟩ :=
    coolingMembers_isArranged cooling members
  have hRest (x : (Nat × Repository) × Nat) (hX : x ∈ sorted) :
      cooling x.1.2 = some x.1.1 := by
    obtain ⟨y, -, hY⟩ :=
      List.mem_filterMap.mp (hSorted.mem_iff.mp hX)
    obtain ⟨t, hT, rfl⟩ := Option.map_eq_some_iff.mp hY
    exact hT
  refine ⟨sorted.map fun x => (x.1.2, x.2), ?_, ?_, ?_⟩
  · refine (hSorted.map _).trans (List.Perm.of_eq ?_)
    rw [List.map_filterMap, ← List.filterMap_eq_filter]
    refine congrArg (List.filterMap · _) (funext fun x => ?_)
    unfold restAt?
    cases hCooling : cooling x.1 <;>
      simp [Option.guard, hCooling]
  · rw [List.pairwise_map]
    apply hOrder.imp_of_mem
    intro a b hA hB hBefore
    refine ⟨_, _, hRest a hA, hRest b hB, ?_⟩
    unfold ComesBefore restKey at hBefore
    omega
  · unfold rankByCooling
    rw [hMembers, List.map_map, List.map_map]
    rfl

end

------------------------------------------------------------
-- Rankings
------------------------------------------------------------

/-
  Members as a cooldown ranks them, some of which cool.  If all
  of them do, the first one has rested as long as any.
-/
structure IsCooledDown
    (cools : Repository → Bool)
    (rested? : Repository → Option Nat)
    (members ranked : List Repository) : Prop where
  perm : ranked.Perm members
  arranged :
    ∃ last : List (Repository × Nat),
      last.Perm (members.zipIdx.filter fun x => cools x.1) ∧
      last.Pairwise (RestedLonger rested?) ∧
      ranked = members.filter (fun m => !cools m) ++
        last.map (·.1)
  first :
    (∀ m ∈ members, cools m = true) →
    ∀ m ∈ members, ∃ r s t, ranked.head? = some r ∧
      rested? r = some s ∧ rested? m = some t ∧ t ≤ s

/-
  An arrangement by rest begins with the member that has
  rested longest.
-/
theorem rested_longest
    {cools : Repository → Bool}
    {rested? : Repository → Option Nat}
    {members : List Repository}
    {last : List (Repository × Nat)}
    (hLast :
      last.Perm (members.zipIdx.filter fun x => cools x.1))
    (hOrder : last.Pairwise (RestedLonger rested?))
    (hRested : ∀ m, cools m = true → ∃ t, rested? m = some t)
    {m : Repository}
    (hMem : m ∈ members)
    (hCools : cools m = true) :
    ∃ r s t, (last.map (·.1)).head? = some r ∧
      rested? r = some s ∧ rested? m = some t ∧ t ≤ s := by
  obtain ⟨i, hI⟩ := List.mem_iff_getElem?.mp hMem
  have hThere : (m, i) ∈ last := by
    rw [hLast.mem_iff, List.mem_filter,
      List.mem_zipIdx_iff_getElem?]
    exact ⟨hI, hCools⟩
  cases last with
  | nil => cases hThere
  | cons x last =>
      rw [List.pairwise_cons] at hOrder
      rcases List.mem_cons.mp hThere with hThis | hLater
      · obtain ⟨t, hT⟩ := hRested m hCools
        exact ⟨x.1, t, t, rfl, hThis ▸ hT, hT, Nat.le_refl t⟩
      · obtain ⟨s, t, hS, hT, hLonger⟩ := hOrder.1 _ hLater
        refine ⟨x.1, s, t, rfl, hS, hT, ?_⟩
        omega

/-
  A cooldown ranks members after any history of each of them.
  Verdicts on other members have no part in when a member
  cools, and neither have turns.
-/
theorem cooldown_ranks
    (name : String)
    (threshold micros : Nat)
    (retry : RetryRule)
    (listens : Bool)
    (turn : UInt64)
    (now : Nat)
    (history : Repository → List Verdict)
    (members : List Repository) :
    IsCooledDown
      (fun r => isCooling threshold micros now (history r))
      (fun r => Policy.rested? now (history r))
      members
      (rank ⟨name, .cooldown threshold micros, retry, listens⟩
        turn now (fun r => ofHistory (history r)) members) := by
  let cooling (r : Repository) :=
    cooling? threshold micros now (ofHistory (history r))
  obtain ⟨last, hLast, hOrder, hRanked⟩ :=
    rankByCooling_arranged cooling members
  simp only [← Option.not_isSome, cooling, cooling?_isSome]
    at hLast hRanked
  have hOrder : last.Pairwise
      (RestedLonger fun r => Policy.rested? now (history r)) := by
    apply hOrder.imp
    intro a b hLonger
    obtain ⟨s, t, hS, hT, hBefore⟩ := hLonger
    exact ⟨s, t, rested?_of_cooling? hS, rested?_of_cooling? hT,
      hBefore⟩
  refine ⟨rankByCooling_perm cooling members,
    ⟨last, hLast, hOrder, hRanked⟩, ?_⟩
  intro hAll m hMem
  have hNone : members.filter (fun m =>
      !isCooling threshold micros now (history m)) = [] := by
    rw [List.filter_eq_nil_iff]
    intro m hMem
    simp [hAll m hMem]
  have hFirst := rested_longest hLast hOrder
    (fun _ => exists_rested) hMem (hAll m hMem)
  rw [hNone, List.nil_append] at hRanked
  rw [← hRanked] at hFirst
  exact hFirst

end Policy

end Failover
