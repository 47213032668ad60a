import Failover.Config.Json
import Failover.Proofs.Json.Shorten

/-
  Records that are read from objects with members left out.  A
  field that was kept is read, and one that was left out has
  its default.

  Key definitions include:
    * `Config.Reads`
    * `Config.Record.Holds`

  Main statements:
    * `Config.Reads.list`, `Config.Reads.optional`
    * `Config.Record.exists_holds`
    * `Config.Record.Holds.orDefault?_eq`
-/

namespace Failover

namespace Config

open Json (Document Shortens ItemsShorten MembersShorten Left)

variable {α : Type}
variable {drops : String → Json → Prop}

------------------------------------------------------------
-- Readers
------------------------------------------------------------

/- All that is left of a value is read alike. -/
def Reads
    (drops : String → Json → Prop)
    (f : Document → Option α)
    (j : Json)
    (a : α) : Prop :=
  ∀ j', Shortens drops j j' → f j'.document = some a

/-
  A string is read back as it is, since it has no members to
  be left out.
-/
theorem reads_string (s : String) :
    Reads drops readString? (.string s) s := by
  intro j' h
  cases h
  rfl

theorem reads_bool (b : Bool) :
    Reads drops readBool? (.bool b) b := by
  intro j' h
  cases h
  rfl

theorem reads_integer
    {least greatest n : Int}
    (hWide : Int64.minValue.toInt ≤ least ∧
      greatest < UInt64.size)
    (hLeast : least ≤ n)
    (hGreatest : n ≤ greatest) :
    Reads drops (readInteger? least greatest) (.integer n) n := by
  intro j' h
  cases h
  have hWhole : (Json.Number.ofInt n).whole? = some n :=
    Json.Number.whole?_ofInt (by omega) (by omega)
  change (Json.Number.whole? _).bind _ = some n
  rw [hWhole, Option.bind_some]
  exact if_pos ⟨hLeast, hGreatest⟩

/- A number without a sign, of any size up to 64 bits. -/
theorem reads_word
    {size n : Nat}
    (hSize : size ≤ UInt64.size)
    (hFits : n < size) :
    Reads drops
      (fun d => (readInteger? 0 (size - 1) d).map Int.toNat)
      (natJson n) n := by
  intro j' h
  have hWide : Int64.minValue.toInt ≤ 0 := by
    decide
  have hInteger :
      readInteger? 0 (size - 1) j'.document = some (n : Int) :=
    reads_integer ⟨hWide, by omega⟩ (Int.natCast_nonneg n)
      (by omega) j' h
  simp only [hInteger]
  rfl

theorem reads_word32
    {n : Nat}
    (hFits : n < UInt32.size) :
    Reads drops readWord32? (natJson n) n :=
  reads_word (by decide) hFits

theorem reads_word64
    {n : Nat}
    (hFits : n < UInt64.size) :
    Reads drops readWord64? (natJson n) n :=
  reads_word (Nat.le_refl _) hFits

theorem reads_int32
    {n : Int}
    (hLeast : Int32.minValue.toInt ≤ n)
    (hGreatest : n ≤ Int32.maxValue.toInt) :
    Reads drops readInt32? (.integer n) n :=
  reads_integer (by decide) hLeast hGreatest

/- A value that is there is no null. -/
theorem Reads.optional
    {f : Document → Option α}
    {g : α → Json}
    {o : Option α}
    (h : ∀ a, o = some a → Reads drops f (g a) a)
    (hNull : f .null = none) :
    Reads drops (readOptional? f) (optionalJson g o) o := by
  intro j' hShort
  cases o with
  | none =>
      cases hShort
      rfl
  | some a =>
      have hRead := h a rfl j' hShort
      unfold readOptional?
      split
      · next hThis =>
        rw [hThis, hNull] at hRead
        cases hRead
      · rw [hRead]
        rfl

theorem Reads.list
    {f : Document → Option α}
    {g : α → Json}
    {as : List α}
    (h : ∀ a ∈ as, Reads drops f (g a) a) :
    Reads drops (readList? f) (.array (as.map g)) as := by
  intro j' hShort
  obtain ⟨items', rfl, hItems⟩ := hShort.array_inv
  clear hShort
  change (Json.documents items').mapM f = some as
  induction as generalizing items' with
  | nil =>
      cases hItems
      rfl
  | cons a as ih =>
      cases hItems with
      | cons hFirst hRest =>
          have hHead := h a (List.mem_cons_self ..) _ hFirst
          have hTail := ih
            (fun b hB => h b (List.mem_cons_of_mem _ hB)) _
            hRest
          rw [Json.documents, List.mapM_cons, hHead, hTail]
          rfl

------------------------------------------------------------
-- Fields
------------------------------------------------------------

namespace Record

/- The fields are what is left of some members. -/
structure Holds
    (drops : String → Json → Prop)
    (members : List (String × Json))
    (r : Record) : Prop where
  isArray : r.isArray = false
  left : ∀ (i : Nat) n v, members[i]? = some (n, v) →
    ∃ found, Left drops n v found ∧
      r.field? i = found.map Json.document

theorem filter_documents
    {members : List (String × Json)}
    (hNames : (members.map (·.1)).Nodup)
    (n : String) :
    (Json.memberDocuments members).filter (·.1 == some n) =
      ((members.lookup n).map fun v =>
        (some n, v.document)).toList := by
  induction members with
  | nil => rfl
  | cons m rest ih =>
      obtain ⟨k, u⟩ := m
      rw [List.map_cons, List.nodup_cons] at hNames
      obtain ⟨hNew, hNames⟩ := hNames
      rw [Json.memberDocuments, Json.memberDocument,
        List.filter_cons, ih hNames]
      by_cases hThis : n = k
      · subst hThis
        rw [Json.lookup_cons_self, Json.lookup_eq_none hNew,
          BEq.rfl]
        rfl
      · have hOther : (some k == some n) = false :=
          beq_eq_false_iff_ne.mpr
            fun h => hThis (Option.some.inj h).symm
        rw [Json.lookup_cons_other _ _ hThis, hOther]
        rfl

theorem member?_eq
    {members : List (String × Json)}
    (hNames : (members.map (·.1)).Nodup)
    (n : String) :
    member? (Json.memberDocuments members) n =
      some ((members.lookup n).map Json.document) := by
  unfold member?
  rw [filter_documents hNames]
  cases members.lookup n <;> rfl

/- Every member of a written object has a name. -/
theorem documents_named
    (members : List (String × Json)) :
    (Json.memberDocuments members).any (·.1.isNone) = false := by
  induction members with
  | nil => rfl
  | cons m rest ih =>
      obtain ⟨k, u⟩ := m
      rw [Json.memberDocuments, List.any_cons, ih]
      rfl

/- An object is a record of its members, as they are left. -/
theorem exists_holds
    {members : List (String × Json)}
    (hNames : (members.map (·.1)).Nodup)
    {j : Json}
    (h : Shortens drops (.object members) j) :
    ∃ r, ofDocument? (members.map (·.1)) j.document = some r ∧
      r.Holds drops members := by
  obtain ⟨members', rfl, hMembers⟩ := h.object_inv
  have hNames' : (members'.map (·.1)).Nodup :=
    hNames.sublist hMembers.names_sublist
  have hMember : member? (Json.memberDocuments members') =
      fun n => pure ((members'.lookup n).map Json.document) := by
    funext n
    exact member?_eq hNames' n
  rw [Json.document, ofDocument?, documents_named, hMember,
    List.mapM_pure]
  refine ⟨_, rfl, rfl, ?_⟩
  intro i n v hField
  refine ⟨members'.lookup n, ?_, ?_⟩
  · exact hMembers.left hNames (List.mem_of_getElem? hField)
  · unfold field?
    rw [List.map_map, List.getElem?_map, hField]
    rfl

section Fields

variable {r : Record}
variable {members : List (String × Json)}
variable {i : Nat} {n : String} {v : Json}
variable {f : Document → Option α} {a : α}

/- A field without a default is there if it may not be dropped. -/
theorem Holds.require?_eq
    (h : r.Holds drops members)
    (hField : members[i]? = some (n, v))
    (hReads : Reads drops f v a)
    (hKept : ¬drops n v) : r.require? i f = some a := by
  obtain ⟨found, hLeft, hFound⟩ := h.left i n v hField
  unfold require?
  rw [hFound]
  cases hLeft with
  | kept v' hShort => exact hReads v' hShort
  | dropped hDrop => exact absurd hDrop hKept

/- A field that was left out is the default. -/
theorem Holds.orDefault?_eq
    {d : α}
    (h : r.Holds drops members)
    (hField : members[i]? = some (n, v))
    (hReads : Reads drops f v a)
    (hDefault : drops n v → a = d) :
    r.orDefault? i f d = some a := by
  obtain ⟨found, hLeft, hFound⟩ := h.left i n v hField
  unfold orDefault?
  rw [hFound]
  cases hLeft with
  | kept v' hShort => exact hReads v' hShort
  | dropped hDrop => exact congrArg some (hDefault hDrop).symm

/- A field that an object may leave out is none then. -/
theorem Holds.nullable?_eq
    {o : Option α}
    (h : r.Holds drops members)
    (hField : members[i]? = some (n, v))
    (hReads : Reads drops (readOptional? f) v o)
    (hDefault : drops n v → o = none) :
    r.nullable? i f = some o := by
  obtain ⟨found, hLeft, hFound⟩ := h.left i n v hField
  unfold nullable?
  rw [hFound]
  cases hLeft with
  | kept v' hShort => exact hReads v' hShort
  | dropped hDrop =>
      rw [hDefault hDrop, Option.map_none, h.isArray]
      rfl

end Fields

end Record

end Config

end Failover
