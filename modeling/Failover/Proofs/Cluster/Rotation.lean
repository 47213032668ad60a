import Failover.Proofs.Common
import Failover.Proofs.Cluster.Order
import Failover.Proofs.Effect.Keeps
import Mathlib.Data.List.Rotate

/-
  The order of members in turn.  One ranking after the other
  begins one place further on, whatever comes in between, so
  that among as many rankings as there are members each member
  is first once.

  Key definitions include:
    * `World.KeepsTurn`, `World.TakesTurns`
    * `World.rankings`
    * `Policy.IsFair`

  Main statements:
    * `World.order_takes_turn`
    * `World.rankings_rotate`
    * `World.rotation_is_fair`
-/

namespace Failover

------------------------------------------------------------
-- Places in turn
------------------------------------------------------------

namespace Policy

theorem rotated_eq_rotate
    {α : Type}
    (turn : UInt64)
    (members : List α) :
    rotated turn members = members.rotate turn.toNat :=
  List.rotate_eq_drop_append_take_mod.symm

/-
  Rankings of members one after the other.  Each begins one
  place further on than the one before, and of as many in a row
  as there are members each member is the first of one.
-/
structure IsFair
    (members : List Repository)
    (rankings : List (List Repository)) : Prop where
  rotate : ∀ i ranked, rankings[i]? = some ranked →
    ranked = members.rotate (i % members.length)
  perm : ∀ ranked ∈ rankings, ranked.Perm members
  first : ∀ start,
    start + members.length ≤ rankings.length →
    ∀ m ∈ members, ∃! i,
      (start ≤ i ∧ i < start + members.length) ∧
      ∃ ranked, rankings[i]? = some ranked ∧
        ranked.head? = some m

/- The member that is first in a turn. -/
theorem head?_rotate_mod
    {members : List Repository}
    {p : Nat}
    (hDistinct : members.Nodup)
    (hP : p < members.length)
    (i : Nat) :
    (members.rotate i).head? = some members[p] ↔
      i % members.length = p := by
  have hMod : i % members.length < members.length :=
    Nat.mod_lt i (by omega)
  rw [← List.rotate_mod, List.head?_rotate hMod,
    List.getElem?_eq_getElem hMod, Option.some_inj]
  exact hDistinct.getElem_inj_iff

/- Turns that are taken one after the other are fair. -/
theorem isFair_rotate
    {members : List Repository}
    (hDistinct : members.Nodup)
    (count : Nat) :
    IsFair members ((List.range count).map members.rotate) := by
  have hGet (i : Nat) (hI : i < count) :
      ((List.range count).map members.rotate)[i]? =
        some (members.rotate i) := by
    rw [List.getElem?_map, List.getElem?_range hI]
    rfl
  refine ⟨?_, ?_, ?_⟩
  · intro i ranked hRanked
    have hI : i < count := by
      have hLess := (List.getElem?_eq_some_iff.mp hRanked).1
      simpa using hLess
    rw [hGet i hI, Option.some_inj] at hRanked
    rw [← hRanked, List.rotate_mod]
  · intro ranked hMem
    obtain ⟨i, -, rfl⟩ := List.mem_map.mp hMem
    exact List.rotate_perm members i
  · intro start hWithin m hMem
    obtain ⟨p, hP, rfl⟩ := List.mem_iff_getElem.mp hMem
    rw [List.length_map, List.length_range] at hWithin
    refine (existsUnique_congr fun i => ?_).mpr
      (existsUnique_mod start hP)
    refine and_congr_right fun hI => ?_
    rw [hGet i (by omega), ← head?_rotate_mod hDistinct hP]
    simp

end Policy

------------------------------------------------------------
-- Rankings in the world
------------------------------------------------------------

namespace World

variable {c : Counter} {members : List Repository}

/- Something in which no turn of a counter is taken. -/
def KeepsTurn
    (c : Counter)
    (e : Effect Unit) : Prop :=
  e.Keeps fun w w' => w'.turns c = w.turns c

/- The outcome of an operation has no part in the turns. -/
theorem recordSuccess_keepsTurn
    (name : String)
    (started : Nat) :
    KeepsTurn c (recordSuccess name started) :=
  fun _ => rfl

theorem recordFailure_keepsTurn
    (name : String)
    (f : Failure) :
    KeepsTurn c (recordFailure name f) :=
  fun _ => rfl

/- A cluster whose policy takes the turns of a counter. -/
structure TakesTurns
    (c : Counter)
    (members : List Repository)
    (k : Cluster) : Prop where
  ranking : k.policy.ranking = .rotating c
  members : k.members = members

/- A ranking takes a turn, and the order that it gives. -/
theorem order_takes_turn
    {k : Cluster}
    (hTakes : TakesTurns c members k)
    (hSome : members ≠ [])
    (w : World) :
    Effect.Ends (order k) w fun ranked w' =>
      ranked = members.rotate (w.turns c).toNat ∧
      w'.turns c = w.turns c + 1 := by
  obtain ⟨hRotating, rfl⟩ := hTakes
  have hTurn : k.policy.turnIn w.turns = w.turns c := by
    rw [Policy.turnIn, hRotating]
  have hRank : k.policy.rank (k.policy.turnIn w.turns) w.now
      (fun r => w.health r.name) k.members =
        k.members.rotate (w.turns c).toNat := by
    unfold Policy.rank
    rw [hTurn, hRotating]
    exact Policy.rotated_eq_rotate _ _
  refine ⟨hRank, ?_⟩
  change k.policy.turnsAfter k.members w.turns c = _
  rw [Policy.turnsAfter, hRotating]
  simp [hSome]

/- Rankings by clusters, and what comes before each of them. -/
def rankings :
    List (Effect Unit × Cluster) →
      Effect (List (List Repository))
  | [] => return []
  | (e, k) :: rest => do
      e
      let ranked ← order k
      let later ← rankings rest
      return ranked :: later

/-
  One turn after the other is taken, whichever clusters take
  them.  The induction is on the rankings.
-/
theorem rankings_rotate
    (hSome : members ≠ [])
    {steps : List (Effect Unit × Cluster)}
    (hKeeps : ∀ x ∈ steps, KeepsTurn c x.1)
    (hTakes : ∀ x ∈ steps, TakesTurns c members x.2)
    (w : World) :
    Effect.Ends (rankings steps) w fun rs _ =>
      rs = (List.range steps.length).map fun i =>
        members.rotate
          (((w.turns c).toNat + i) % UInt64.size) := by
  induction steps generalizing w with
  | nil => rfl
  | cons x steps ih =>
      obtain ⟨e, k⟩ := x
      rw [List.forall_mem_cons] at hKeeps hTakes
      unfold rankings
      refine (hKeeps.1 w).bind fun _ w₁ hTurn => ?_
      refine (order_takes_turn hTakes.1 hSome w₁).bind ?_
      intro ranked w₂ hOrder
      refine (ih hKeeps.2 hTakes.2 w₂).bind ?_
      intro later w₃ hLater
      have hNext (i : Nat) :
          ((w₂.turns c).toNat + i) % UInt64.size =
            ((w.turns c).toNat + (i + 1)) % UInt64.size := by
        rw [hOrder.2, hTurn, UInt64.toNat_add]
        change ((_ + 1) % UInt64.size + i) % UInt64.size = _
        rw [Nat.mod_add_mod, Nat.add_assoc, Nat.add_comm 1]
      have hThis : (w₁.turns c).toNat =
          ((w.turns c).toNat + 0) % UInt64.size := by
        rw [hTurn]
        exact (Nat.mod_eq_of_lt (UInt64.toNat_lt_size _)).symm
      rw [Effect.ends_pure, hLater, hOrder.1, hThis,
        List.length_cons, List.range_succ_eq_map, List.map_cons,
        List.map_map]
      simp only [hNext]
      rfl

/-
  Members that take turns, from the first turn of a policy on.
  It may be the policy of many clusters with these members, and
  each of the rankings that of another one.  What comes between
  two rankings takes no turn, and may succeed or fail.
-/
theorem rotation_is_fair
    (hSome : members ≠ [])
    (hDistinct : members.Nodup)
    {steps : List (Effect Unit × Cluster)}
    (hKeeps : ∀ x ∈ steps, KeepsTurn c x.1)
    (hTakes : ∀ x ∈ steps, TakesTurns c members x.2)
    (hCount : steps.length < UInt64.size)
    {w : World}
    (hFirst : w.turns c = 0) :
    Effect.Ends (rankings steps) w fun rs _ =>
      rs.length = steps.length ∧ Policy.IsFair members rs := by
  refine (rankings_rotate hSome hKeeps hTakes w).mono ?_
  intro rs _ hRankings
  have hTurns (i : Nat) (hI : i ∈ List.range steps.length) :
      members.rotate
          (((w.turns c).toNat + i) % UInt64.size) =
        members.rotate i := by
    have hLess := List.mem_range.mp hI
    rw [hFirst, UInt64.toNat_zero, Nat.zero_add,
      Nat.mod_eq_of_lt (Nat.lt_trans hLess hCount)]
  rw [List.map_congr_left hTurns] at hRankings
  rw [hRankings]
  refine ⟨?_, Policy.isFair_rotate hDistinct _⟩
  rw [List.length_map, List.length_range]

/- Three members that take turns. -/
def threeMembers : List Repository :=
  ["a", "b", "c"].map fun n =>
    ⟨n, "mock", true, 0, .verbatim "MOCK" n false⟩

/- A cluster that follows a policy which was made in code. -/
def alternating (name : String) : Cluster :=
  ⟨name, 0, true, threeMembers,
    ⟨"spread", .rotating (.ofCode 0), .standard none, false⟩⟩

/- Two of them in turn, with a failure and a success between. -/
def between : List (Effect Unit × Cluster) :=
  [(pure (), alternating "main"),
    (recordFailure "a" (.connectionOpen "a" "refused" ""),
      alternating "reports"),
    (recordSuccess "b" 5, alternating "main"),
    (pure (), alternating "reports")]

theorem alternating_is_fair :
    threeMembers ≠ [] ∧
    threeMembers.Nodup ∧
    (∀ x ∈ between, KeepsTurn (.ofCode 0) x.1) ∧
    (∀ x ∈ between, TakesTurns (.ofCode 0) threeMembers x.2) ∧
    between.length < UInt64.size ∧
    (World.initial fun _ => .willing).turns (.ofCode 0) = 0 ∧
    Effect.Ends (rankings between)
      (.initial fun _ => .willing) fun rs _ =>
        rs.length = 4 ∧ Policy.IsFair threeMembers rs := by
  have hSome : threeMembers ≠ [] := by
    exact List.cons_ne_nil _ _
  have hDistinct : threeMembers.Nodup :=
    .of_map Repository.name (by decide)
  have hKeeps : ∀ x ∈ between, KeepsTurn (.ofCode 0) x.1 := by
    unfold between
    simp only [List.forall_mem_cons]
    exact ⟨fun _ => rfl, recordFailure_keepsTurn _ _,
      recordSuccess_keepsTurn _ _, fun _ => rfl,
      fun _ hNone => absurd hNone List.not_mem_nil⟩
  have hTakes : ∀ x ∈ between,
      TakesTurns (.ofCode 0) threeMembers x.2 := by
    unfold between
    simp only [List.forall_mem_cons]
    exact ⟨⟨rfl, rfl⟩, ⟨rfl, rfl⟩, ⟨rfl, rfl⟩, ⟨rfl, rfl⟩,
      fun _ hNone => absurd hNone List.not_mem_nil⟩
  have hCount : between.length < UInt64.size := by
    decide
  exact ⟨hSome, hDistinct, hKeeps, hTakes, hCount, rfl,
    rotation_is_fair hSome hDistinct hKeeps hTakes hCount rfl⟩

end World

end Failover
