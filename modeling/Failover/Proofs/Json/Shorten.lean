import Failover.Proofs.Json.Text
import Mathlib.Data.List.Nodup

/-
  JSON values with some members left out, at any depth.  What
  is left of an object has the members that are kept, in their
  order and with what is left of their values.

  Key definitions include:
    * `Json.Shortens`
    * `Json.Left`

  Main statements:
    * `Json.MembersShorten.left`
-/

namespace Failover

namespace Json

------------------------------------------------------------
-- Members left out
------------------------------------------------------------

mutual

/- What is left of a value when some members are dropped. -/
inductive Shortens
    (drops : String → Json → Prop) : Json → Json → Prop where
  | same (j : Json) : Shortens drops j j
  | array {items items' : List Json}
      (h : ItemsShorten drops items items') :
      Shortens drops (.array items) (.array items')
  | object {members members' : List (String × Json)}
      (h : MembersShorten drops members members') :
      Shortens drops (.object members) (.object members')

inductive ItemsShorten
    (drops : String → Json → Prop) :
    List Json → List Json → Prop where
  | nil : ItemsShorten drops [] []
  | cons {v v' : Json} {rest rest' : List Json}
      (h : Shortens drops v v')
      (hRest : ItemsShorten drops rest rest') :
      ItemsShorten drops (v :: rest) (v' :: rest')

inductive MembersShorten
    (drops : String → Json → Prop) :
    List (String × Json) → List (String × Json) → Prop where
  | nil : MembersShorten drops [] []
  | keep {n : String} {v v' : Json}
      {rest rest' : List (String × Json)}
      (h : Shortens drops v v')
      (hRest : MembersShorten drops rest rest') :
      MembersShorten drops ((n, v) :: rest) ((n, v') :: rest')
  | drop {n : String} {v : Json}
      {rest rest' : List (String × Json)}
      (h : drops n v)
      (hRest : MembersShorten drops rest rest') :
      MembersShorten drops ((n, v) :: rest) rest'

end

variable {drops : String → Json → Prop}

theorem ItemsShorten.refl :
    (items : List Json) → ItemsShorten drops items items
  | [] => .nil
  | v :: rest => .cons (.same v) (refl rest)

theorem MembersShorten.refl :
    (members : List (String × Json)) →
      MembersShorten drops members members
  | [] => .nil
  | (_, v) :: rest => .keep (.same v) (refl rest)

theorem Shortens.array_inv
    {items : List Json}
    {j : Json}
    (h : Shortens drops (.array items) j) :
    ∃ items', j = .array items' ∧
      ItemsShorten drops items items' := by
  cases h with
  | same => exact ⟨items, rfl, .refl items⟩
  | array hItems => exact ⟨_, rfl, hItems⟩

theorem Shortens.object_inv
    {members : List (String × Json)}
    {j : Json}
    (h : Shortens drops (.object members) j) :
    ∃ members', j = .object members' ∧
      MembersShorten drops members members' := by
  cases h with
  | same => exact ⟨members, rfl, .refl members⟩
  | object hMembers => exact ⟨_, rfl, hMembers⟩

------------------------------------------------------------
-- Members by name
------------------------------------------------------------

/- What is left of a member: its value in short, or nothing. -/
inductive Left
    (drops : String → Json → Prop)
    (n : String)
    (v : Json) : Option Json → Prop where
  | kept (v' : Json) (h : Shortens drops v v') :
      Left drops n v (some v')
  | dropped (h : drops n v) : Left drops n v none

theorem MembersShorten.names_sublist
    {members members' : List (String × Json)}
    (h : MembersShorten drops members members') :
    (members'.map (·.1)).Sublist (members.map (·.1)) := by
  induction members generalizing members' with
  | nil =>
      cases h
      exact .slnil
  | cons m rest ih =>
      cases h with
      | keep hFirst hRest => exact (ih hRest).cons_cons _
      | drop hDrop hRest => exact (ih hRest).cons _

theorem lookup_cons_self
    (n : String)
    (v : Json)
    (rest : List (String × Json)) :
    ((n, v) :: rest).lookup n = some v := by
  rw [List.lookup_cons, BEq.rfl]

theorem lookup_cons_other
    {n k : String}
    (v : Json)
    (rest : List (String × Json))
    (hOther : n ≠ k) :
    ((k, v) :: rest).lookup n = rest.lookup n := by
  rw [List.lookup_cons, beq_eq_false_iff_ne.mpr hOther]

theorem lookup_eq_none
    {n : String}
    {members : List (String × Json)}
    (h : n ∉ members.map (·.1)) : members.lookup n = none := by
  rw [List.lookup_eq_none_iff]
  intro m hM
  apply bne_iff_ne.mpr
  intro hSame
  apply h
  rw [hSame]
  exact List.mem_map.mpr ⟨m, hM, rfl⟩

/- Under its name a member is found as it was left. -/
theorem MembersShorten.left
    {members members' : List (String × Json)}
    (h : MembersShorten drops members members')
    (hNames : (members.map (·.1)).Nodup)
    {n : String}
    {v : Json}
    (hMem : (n, v) ∈ members) :
    Left drops n v (members'.lookup n) := by
  induction members generalizing members' with
  | nil => cases hMem
  | cons m rest ih =>
      obtain ⟨k, u⟩ := m
      rw [List.map_cons, List.nodup_cons] at hNames
      obtain ⟨hNew, hNames⟩ := hNames
      have hOther (hLater : (n, v) ∈ rest) : n ≠ k := by
        intro hSame
        apply hNew
        have hThere : n ∈ rest.map (·.1) :=
          List.mem_map.mpr ⟨(n, v), hLater, rfl⟩
        rwa [hSame] at hThere
      rcases List.mem_cons.mp hMem with hThis | hLater
      · cases hThis
        cases h with
        | keep hFirst hRest =>
            rw [lookup_cons_self]
            exact .kept _ hFirst
        | drop hDrop hRest =>
            have hGone : n ∉ members'.map (·.1) := by
              intro hThere
              exact hNew (hRest.names_sublist.subset hThere)
            rw [lookup_eq_none hGone]
            exact .dropped hDrop
      · cases h with
        | keep hFirst hRest =>
            rw [lookup_cons_other _ _ (hOther hLater)]
            exact ih hRest hNames hLater
        | drop hDrop hRest => exact ih hRest hNames hLater

end Json

end Failover
