import Failover.Proofs.Common
import Failover.Config.Basic
import Failover.Proofs.Text.Lower
import Mathlib.Data.List.Forall2
import Mathlib.Data.List.Nodup

/-
  What a valid configuration is: names that are told apart in
  lower case, repositories with engines, and clusters whose
  members and policies there are.

  Key definitions include:
    * `Config.Repository.IsValid`
    * `Config.Cluster.IsValid`
    * `Config.IsValid`

  Main statements:
    * `Config.checkEach_eq_ok_iff`
    * `Config.validate_eq_ok_iff`
    * `Config.find?_sameName`
-/

namespace Failover

namespace Config

------------------------------------------------------------
-- Validity
------------------------------------------------------------

/- A repository has a name, an engine, and a pool in order. -/
structure Repository.IsValid (r : Repository) : Prop where
  named : (Text.trim r.name).isEmpty = false
  engine : ∃ key, r.engineKey = .ok key
  pool : r.pool.validate = .ok ()

/- The members of a cluster are known, and so is its policy. -/
structure Cluster.IsValid
    (c : Config)
    (k : Cluster) : Prop where
  members_ne_nil : k.databases ≠ []
  members : ∀ m ∈ k.databases,
    Text.lower m ∈ foldedNames Repository.name c.repositories
  policy : (c.policy? k.fallbackPolicy).isSome = true

/- All parts are valid, and no two share a name in lower case. -/
structure IsValid (c : Config) : Prop where
  repositoryNames :
    (foldedNames Repository.name c.repositories).Nodup
  policyNames : (foldedNames Policy.name c.policies).Nodup
  clusterNames : (foldedNames Cluster.name c.clusters).Nodup
  repositories : ∀ r ∈ c.repositories, r.IsValid
  policies : ∀ p ∈ c.policies, p.maxAttempts ≠ some 0
  clusters : ∀ k ∈ c.clusters, k.IsValid c

------------------------------------------------------------
-- Checks
------------------------------------------------------------

section Checks

variable {α : Type}

/-
  A check that asks for a new name and for something else is
  passed by all if the names differ.  The induction is on the
  elements that are left.
-/
theorem checkEach_eq_ok_iff
    {name : α → String}
    {check : List String → α → Except Error Unit}
    {P : α → Prop}
    (hCheck : ∀ seen x, check seen x = .ok () ↔
      Text.lower (name x) ∉ seen ∧ P x)
    (seen : List String)
    (xs : List α) :
    checkEach name check seen xs = .ok () ↔
      (foldedNames name xs).Nodup ∧
      (∀ n ∈ foldedNames name xs, n ∉ seen) ∧
      ∀ x ∈ xs, P x := by
  induction xs generalizing seen with
  | nil => simp [checkEach, foldedNames]
  | cons x r ih =>
      have hNames : foldedNames name (x :: r) =
          Text.lower (name x) :: foldedNames name r := rfl
      unfold checkEach
      cases hX : check seen x with
      | error e =>
          constructor
          · intro h
            cases h
          · rintro ⟨-, hNew, hAll⟩
            have hOk := (hCheck seen x).mpr
              ⟨hNew _ (List.mem_cons_self ..),
                hAll x (List.mem_cons_self ..)⟩
            rw [hX] at hOk
            cases hOk
      | ok u =>
          obtain ⟨hNew, hP⟩ := (hCheck seen x).mp hX
          change checkEach name check _ r = _ ↔ _
          rw [ih, hNames, List.nodup_cons]
          constructor
          · rintro ⟨hDistinct, hApart, hAll⟩
            refine ⟨⟨fun hMem => ?_, hDistinct⟩, ?_, ?_⟩
            · exact hApart _ hMem (List.mem_cons_self ..)
            · intro n hN
              rcases List.mem_cons.mp hN with rfl | hN
              · exact hNew
              · exact fun hSeen =>
                  hApart n hN (List.mem_cons_of_mem _ hSeen)
            · intro y hY
              rcases List.mem_cons.mp hY with rfl | hY
              · exact hP
              · exact hAll y hY
          · rintro ⟨⟨hFirst, hDistinct⟩, hApart, hAll⟩
            refine ⟨hDistinct, fun n hN hSeen => ?_, ?_⟩
            · rcases List.mem_cons.mp hSeen with rfl | hSeen
              · exact hFirst hN
              · exact hApart n (List.mem_cons_of_mem _ hN) hSeen
            · exact fun y hY => hAll y (List.mem_cons_of_mem _ hY)

/- A guard lets only those pass that it does not stop. -/
theorem guard_eq_ok_iff
    (stops : Prop)
    [Decidable stops]
    (e : Error)
    (rest : Except Error Unit) :
    (do
      if stops then throw e
      rest) = .ok () ↔ ¬ stops ∧ rest = .ok () := by
  by_cases hStops : stops
  · rw [if_pos hStops]
    constructor
    · intro h
      cases h
    · intro h
      exact absurd hStops h.1
  · rw [if_neg hStops]
    exact ⟨fun h => ⟨hStops, h⟩, fun h => h.2⟩

theorem checkRepository_eq_ok_iff
    (seen : List String)
    (r : Repository) :
    checkRepository seen r = .ok () ↔
      Text.lower r.name ∉ seen ∧ r.IsValid := by
  have hPool : (r.pool.validate).mapError (Error.pool r.name) =
      .ok () ↔ r.pool.validate = .ok () := by
    cases r.pool.validate <;> simp [Except.mapError]
  unfold checkRepository
  rw [guard_eq_ok_iff, guard_eq_ok_iff, bind_eq_ok_iff,
    List.contains_iff_mem, Bool.not_eq_true]
  constructor
  · intro h
    obtain ⟨hNamed, hNew, key, hKey, hBounds⟩ := h
    exact ⟨hNew, hNamed, ⟨key, hKey⟩, hPool.mp hBounds⟩
  · intro h
    obtain ⟨hNew, hNamed, ⟨key, hKey⟩, hBounds⟩ := h
    exact ⟨hNamed, hNew, key, hKey, hPool.mpr hBounds⟩

theorem checkPolicy_eq_ok_iff
    (seen : List String)
    (p : Policy) :
    checkPolicy seen p = .ok () ↔
      Text.lower p.name ∉ seen ∧ p.maxAttempts ≠ some 0 := by
  unfold checkPolicy
  rw [guard_eq_ok_iff, List.contains_iff_mem]
  by_cases hNone : p.maxAttempts = some 0
  · rw [if_pos hNone]
    constructor
    · intro h
      cases h.2
    · intro h
      exact absurd hNone h.2
  · rw [if_neg hNone]
    exact ⟨fun h => ⟨h.1, hNone⟩, fun h => ⟨h.1, rfl⟩⟩

theorem checkCluster_eq_ok_iff
    (c : Config)
    (seen : List String)
    (k : Cluster) :
    checkCluster c seen k = .ok () ↔
      Text.lower k.name ∉ seen ∧ k.IsValid c := by
  unfold checkCluster
  rw [guard_eq_ok_iff, guard_eq_ok_iff, List.contains_iff_mem]
  cases hUnknown : k.databases.find? fun m =>
      !(foldedNames Repository.name c.repositories).contains
        (Text.lower m) with
  | some m =>
      constructor
      · intro h
        cases h.2.2
      · intro h
        obtain ⟨-, -, hMembers, -⟩ := h
        have hMember := hMembers m
          (List.mem_of_find?_eq_some hUnknown)
        have hNot := List.find?_some hUnknown
        simp [hMember] at hNot
  | none =>
      have hMembers : ∀ m ∈ k.databases, Text.lower m ∈
          foldedNames Repository.name c.repositories := by
        simpa using hUnknown
      cases hPolicy : c.policy? k.fallbackPolicy with
      | none =>
          constructor
          · intro h
            cases h.2.2
          · intro h
            have hThere := h.2.policy
            rw [hPolicy] at hThere
            cases hThere
      | some p =>
          constructor
          · intro h
            exact ⟨h.1, by simpa using h.2.1, hMembers,
              by rw [hPolicy]; rfl⟩
          · intro h
            exact ⟨h.1, by simpa using h.2.members_ne_nil, rfl⟩

/- The checks find nothing if and only if there is nothing. -/
theorem validate_eq_ok_iff (c : Config) :
    c.validate = .ok () ↔ c.IsValid := by
  have hBoth (x y : Except Error Unit) :
      (do x; y) = .ok () ↔ x = .ok () ∧ y = .ok () := by
    rw [bind_eq_ok_iff]
    exact ⟨fun ⟨_, h⟩ => h, fun h => ⟨(), h⟩⟩
  unfold validate
  rw [hBoth, hBoth, checkEach_eq_ok_iff checkRepository_eq_ok_iff,
    checkEach_eq_ok_iff checkPolicy_eq_ok_iff,
    checkEach_eq_ok_iff (checkCluster_eq_ok_iff c)]
  constructor
  · intro h
    obtain ⟨⟨hR, -, hRs⟩, ⟨hP, -, hPs⟩, ⟨hK, -, hKs⟩⟩ := h
    exact ⟨hR, hP, hK, hRs, hPs, hKs⟩
  · intro h
    exact ⟨⟨h.repositoryNames, by simp, h.repositories⟩,
      ⟨h.policyNames, by simp, h.policies⟩,
      ⟨h.clusterNames, by simp, h.clusters⟩⟩

end Checks

------------------------------------------------------------
-- Lookup
------------------------------------------------------------

section Lookup

variable {α : Type}
variable {name : α → String}

/- An element that is found under a name has the name. -/
theorem sameName_of_find?
    {xs : List α}
    {x : α}
    {n : String}
    (h : (xs.find? fun x => Text.sameName (name x) n) = some x) :
    Text.sameName (name x) n = true := by
  have hFound := List.find?_some h
  exact hFound

/- If none is found under a name then no element has it. -/
theorem not_sameName_of_find?
    {xs : List α}
    {n : String}
    (h : (xs.find? fun x => Text.sameName (name x) n) = none)
    (x : α)
    (hX : x ∈ xs) : Text.sameName (name x) n = false := by
  have hNot := List.find?_eq_none.mp h x hX
  exact Bool.eq_false_iff.mpr hNot

/- Names that are told apart by lower case tell what they name. -/
theorem eq_of_lower
    {xs : List α}
    {x y : α}
    (hDistinct : (foldedNames name xs).Nodup)
    (hX : x ∈ xs)
    (hY : y ∈ xs)
    (hSame : Text.lower (name x) = Text.lower (name y)) : x = y :=
  List.inj_on_of_nodup_map hDistinct hX hY hSame

/-
  Among such names, a name that is one of them in lower case is
  found if it is the same up to ASCII case, and else it is not.
-/
theorem find?_sameName
    {xs : List α}
    {x : α}
    {n : String}
    (hDistinct : (foldedNames name xs).Nodup)
    (hX : x ∈ xs)
    (hLower : Text.lower (name x) = Text.lower n) :
    (xs.find? fun y => Text.sameName (name y) n) =
      if Text.sameName (name x) n then some x else none := by
  have hOnly (y : α) (hY : y ∈ xs)
      (hName : Text.sameName (name y) n = true) : y = x := by
    apply eq_of_lower hDistinct hY hX
    rw [hLower, Text.lower_of_sameName hName]
  split
  · next hName =>
    cases hFind : xs.find? fun y => Text.sameName (name y) n with
    | none =>
        rw [not_sameName_of_find? hFind x hX] at hName
        cases hName
    | some y =>
        rw [hOnly y (List.mem_of_find?_eq_some hFind)
          (sameName_of_find? hFind)]
  · next hName =>
    rw [List.find?_eq_none]
    intro y hY hThere
    rw [hOnly y hY hThere] at hThere
    exact hName hThere

end Lookup

end Config

end Failover
