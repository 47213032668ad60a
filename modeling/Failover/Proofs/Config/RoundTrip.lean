import Failover.Proofs.Config.Reading
import Failover.Proofs.Config.Valid

/-
  Configurations read back from their own text, and from that
  text without members that do not count.  An option of a pool
  that is left out is unset, whatever it was; the pool works
  all the same if the option had its documented value.

  Key definitions include:
    * `Config.Pool.Unsets`, `Config.Unsets`
    * `Config.Pool.WorksAs`, `Config.WorksAs`

  Main statements:
    * `Config.Unsets.validate`
    * `Config.reads_back`
-/

namespace Failover

namespace Config

open Json (Shortens MembersShorten ItemsShorten)

------------------------------------------------------------
-- Options that are unset
------------------------------------------------------------

/- An option stays, or its documented value is left out. -/
def UnsetsOption
    {α : Type}
    (documented : α)
    (o o' : Option α) : Prop :=
  o' = o ∨ o = some documented ∧ o' = none

namespace UnsetsOption

variable {α : Type} {documented : α} {o o' : Option α}

/- An option that is unset has the documented value. -/
theorem getD_eq
    (h : UnsetsOption documented o o') :
    o'.getD documented = o.getD documented := by
  rcases h with rfl | ⟨rfl, rfl⟩
  · rfl
  · rfl

/- An option that is set was set before. -/
theorem of_some
    {a : α}
    (h : UnsetsOption documented o o')
    (hSome : o' = some a) : o = some a := by
  rcases h with rfl | ⟨-, rfl⟩
  · exact hSome
  · cases hSome

end UnsetsOption

/- Some options of a pool that are as documented are unset. -/
structure Pool.Unsets
    (embedded : Bool)
    (p p' : Pool) : Prop where
  maxConnections : UnsetsOption (if embedded then 1 else 10)
    p.maxConnections p'.maxConnections
  minConnections : UnsetsOption 1
    p.minConnections p'.minConnections
  idleTimeout : UnsetsOption 600 p.idleTimeout p'.idleTimeout
  acquireTimeout : UnsetsOption 30
    p.acquireTimeout p'.acquireTimeout
  testBeforeAcquire : UnsetsOption true
    p.testBeforeAcquire p'.testBeforeAcquire

/- Two pools are run with the same options. -/
structure Pool.WorksAs
    (embedded : Bool)
    (p p' : Pool) : Prop where
  greatest : p'.greatest embedded = p.greatest embedded
  least : p'.least = p.least
  idleSeconds : p'.idleSeconds = p.idleSeconds
  acquireSeconds : p'.acquireSeconds = p.acquireSeconds
  tests : p'.tests = p.tests

section Pools

variable {embedded : Bool} {p p' : Pool}

/- Unset options leave a pool working as it did. -/
theorem Pool.Unsets.worksAs
    (h : p.Unsets embedded p') : p.WorksAs embedded p' where
  greatest := h.maxConnections.getD_eq
  least := h.minConnections.getD_eq
  idleSeconds := h.idleTimeout.getD_eq
  acquireSeconds := h.acquireTimeout.getD_eq
  tests := h.testBeforeAcquire.getD_eq

/-
  A pool of which some options are unset has its numbers still
  in range.
-/
theorem Pool.Unsets.fits
    (h : p.Unsets embedded p')
    (hFits : p.Fits) : p'.Fits where
  maxConnections n hN :=
    hFits.maxConnections n (h.maxConnections.of_some hN)
  minConnections n hN :=
    hFits.minConnections n (h.minConnections.of_some hN)
  idleTimeout n hN :=
    hFits.idleTimeout n (h.idleTimeout.of_some hN)
  acquireTimeout n hN :=
    hFits.acquireTimeout n (h.acquireTimeout.of_some hN)

/- Bounds that are given are positive and in order. -/
theorem Pool.validate_eq_ok_iff (p : Pool) :
    p.validate = .ok () ↔
      p.maxConnections ≠ some 0 ∧ p.minConnections ≠ some 0 ∧
      ∀ least greatest, p.minConnections = some least →
        p.maxConnections = some greatest → least ≤ greatest := by
  unfold validate
  by_cases hMost : p.maxConnections = some 0
  · rw [if_pos hMost]
    exact ⟨nofun, fun h => absurd hMost h.1⟩
  · rw [if_neg hMost]
    split
    · next hLeast =>
      exact ⟨nofun, fun h => absurd hLeast h.2.1⟩
    · next least greatest hZero hLeast hGreatest =>
      have hPositive : p.minConnections ≠ some 0 := by
        intro hNone
        rw [hNone] at hLeast
        cases hLeast
        exact hZero rfl
      by_cases hOrder : greatest < least
      · rw [if_pos hOrder]
        refine ⟨nofun, fun h => ?_⟩
        have hLess := h.2.2 least greatest hLeast hGreatest
        omega
      · rw [if_neg hOrder]
        refine ⟨fun _ => ⟨hMost, hPositive, ?_⟩, fun _ => rfl⟩
        intro l g hL hG
        cases hLeast.symm.trans hL
        cases hGreatest.symm.trans hG
        exact Nat.not_lt.mp hOrder
    · next hZero hBoth =>
      refine ⟨fun _ => ⟨hMost, hZero, ?_⟩, fun _ => rfl⟩
      intro l g hL hG
      exact absurd hG (hBoth l g hL)

/- A pool that is valid stays so. -/
theorem Pool.Unsets.validate
    (h : p.Unsets embedded p')
    (hValid : p.validate = .ok ()) : p'.validate = .ok () := by
  rw [Pool.validate_eq_ok_iff] at hValid ⊢
  obtain ⟨hMost, hLeast, hOrder⟩ := hValid
  refine ⟨?_, ?_, ?_⟩
  · exact fun hNone => hMost (h.maxConnections.of_some hNone)
  · exact fun hNone => hLeast (h.minConnections.of_some hNone)
  · intro least greatest hL hG
    exact hOrder least greatest (h.minConnections.of_some hL)
      (h.maxConnections.of_some hG)

end Pools

------------------------------------------------------------
-- Configurations
------------------------------------------------------------

/- Only options of the pool are unset. -/
def Repository.Unsets (r r' : Repository) : Prop :=
  ∃ pool, r' = { r with pool } ∧
    r.pool.Unsets r.isEmbedded pool

/- Only options of the repositories' pools are unset. -/
def Unsets (c c' : Config) : Prop :=
  ∃ repositories, c' = { c with repositories } ∧
    List.Forall₂ Repository.Unsets c.repositories repositories

/- All pools are run with the same options. -/
def WorksAs (c c' : Config) : Prop :=
  List.Forall₂ (fun r r' : Repository =>
    r'.isEmbedded = r.isEmbedded ∧
      r.pool.WorksAs r.isEmbedded r'.pool)
    c.repositories c'.repositories

/- The options of a pool say nothing of the engine. -/
theorem Repository.engineKey_pool
    (r : Repository)
    (pool : Pool) :
    { r with pool }.engineKey = r.engineKey := by
  simp only [engineKey]

section Configurations

variable {c c' : Config}

/- The whole configuration works as before. -/
theorem Unsets.worksAs (h : c.Unsets c') : c.WorksAs c' := by
  obtain ⟨repositories, rfl, hEach⟩ := h
  apply hEach.imp
  intro r r' hUnsets
  obtain ⟨pool, rfl, hPool⟩ := hUnsets
  refine ⟨?_, hPool.worksAs⟩
  unfold Repository.isEmbedded
  rw [Repository.engineKey_pool]

/-
  A configuration of which some options are unset has its
  numbers still in range.
-/
theorem Unsets.fits
    (h : c.Unsets c')
    (hFits : c.Fits) : c'.Fits := by
  obtain ⟨repositories, rfl, hEach⟩ := h
  constructor
  · intro r' hR'
    obtain ⟨r, hR, pool, rfl, -⟩ := exists_related hEach hR'
    exact hFits.repositories r hR
  · intro r' hR'
    obtain ⟨r, hR, pool, rfl, hPool⟩ := exists_related hEach hR'
    exact hPool.fits (hFits.pools r hR)
  · exact hFits.clusters
  · exact hFits.policies
  · exact hFits.defaultTimeout

/- The names of repositories stay. -/
theorem Repository.Unsets.foldedNames
    {rs rs' : List Repository}
    (h : List.Forall₂ Repository.Unsets rs rs') :
    Config.foldedNames Repository.name rs' =
      Config.foldedNames Repository.name rs := by
  unfold Config.foldedNames
  induction h with
  | nil => rfl
  | cons hFirst _ ih =>
      obtain ⟨pool, rfl, -⟩ := hFirst
      rw [List.map_cons, List.map_cons, ih]

/- A valid configuration stays valid when options are unset. -/
theorem Unsets.validate
    (h : c.Unsets c')
    (hValid : c.validate = .ok ()) : c'.validate = .ok () := by
  rw [validate_eq_ok_iff] at hValid ⊢
  obtain ⟨repositories, rfl, hEach⟩ := h
  have hNames := Repository.Unsets.foldedNames hEach
  constructor
  · rw [hNames]
    exact hValid.repositoryNames
  · exact hValid.policyNames
  · exact hValid.clusterNames
  · intro r' hR'
    obtain ⟨r, hR, pool, rfl, hPool⟩ := exists_related hEach hR'
    have hRepository := hValid.repositories r hR
    refine ⟨hRepository.named, ?_,
      hPool.validate hRepository.pool⟩
    rw [Repository.engineKey_pool]
    exact hRepository.engine
  · exact hValid.policies
  · intro k hK
    have hCluster := hValid.clusters k hK
    refine ⟨hCluster.members_ne_nil, ?_, hCluster.policy⟩
    rw [hNames]
    exact hCluster.members

end Configurations

/-
  A valid configuration whose numbers are in range.  It is read
  from its own text, and from that without any members that
  are null or that have the value which a missing one counts
  as.  Options of pools that had the documented value may be
  left out as well: they are read as unset, and nothing else
  changes, nor does what the pools are run with.
-/
theorem reads_back
    {c : Config}
    (hValid : c.validate = .ok ())
    (hFits : c.Fits) :
    read c.write = .ok c ∧
    (∀ j, Shortens IsDispensable c.toJson j →
      read j.render = .ok c) ∧
    ∀ c' j, c.Unsets c' → Shortens IsDispensable c'.toJson j →
      read j.render = .ok c' ∧ c.WorksAs c' := by
  refine ⟨read_shortened hValid hFits (.same _), ?_, ?_⟩
  · intro j h
    exact read_shortened hValid hFits h
  · intro c' j hUnsets h
    exact ⟨read_shortened (hUnsets.validate hValid)
      (hUnsets.fits hFits) h, hUnsets.worksAs⟩

------------------------------------------------------------
-- Documented values
------------------------------------------------------------

/- All values that are documented for missing members. -/
def documented : List (String × Json) :=
  defaults ++
    [("minConnections", natJson 1),
      ("idleTimeoutSecs", natJson 600),
      ("acquireTimeoutSecs", natJson 30),
      ("testBeforeAcquire", .bool true)]

def IsDocumented (n : String) (v : Json) : Prop :=
  v = .null ∨ documented.lookup n = some v

/-
  A value may be left out only if it is documented as the
  default.
-/
theorem IsDispensable.isDocumented
    {n : String}
    {v : Json}
    (h : IsDispensable n v) : IsDocumented n v := by
  rcases h with hNull | hDefault
  · exact .inl hNull
  · right
    unfold documented
    rw [List.lookup_append, hDefault]
    rfl

/- One database whose pool may have a lower bound. -/
def small (least : Option Nat) : Config :=
  { repositories :=
      [⟨"a", none, "sqlite:a.db", none, true, 0,
        { minConnections := least }⟩] }

/- All that a text has to say of it, apart from the bound. -/
def brief : Json :=
  .object [("repositories", .array [.object [
    ("name", .string "a"),
    ("connectionString", .string "sqlite:a.db"),
    ("pool", .object [])]])]

/-
  A small configuration leaves the same document behind with
  its bound and without.
-/
theorem small_shortens
    {drops : String → Json → Prop}
    {least : Option Nat}
    (hDrops : ∀ n v, IsDispensable n v → drops n v)
    (hLeast : drops "minConnections"
      (optionalJson natJson least)) :
    Shortens drops (small least).toJson brief := by
  have hNull (n : String) : drops n .null :=
    hDrops n _ (.inl rfl)
  have hDefault {n : String} {v : Json}
      (h : defaults.lookup n = some v) : drops n v :=
    hDrops n v (.inr h)
  have hPool : Shortens drops
      (Pool.toJson { minConnections := least }) (.object []) :=
    .object (.drop (hNull _) (.drop hLeast (.drop (hNull _)
      (.drop (hNull _) (.drop (hNull _) .nil)))))
  have hRepository : MembersShorten drops _ _ :=
    .keep (n := "name") (.same (.string "a"))
      (.drop (n := "engine") (hNull _)
        (.keep (n := "connectionString")
          (.same (.string "sqlite:a.db"))
          (.drop (n := "schema") (hNull _)
            (.drop (n := "enabled") (hDefault rfl)
              (.drop (n := "sequence") (hDefault rfl)
                (.keep (n := "pool") hPool .nil))))))
  exact .object (.keep (.array (.cons (.object hRepository) .nil))
    (.drop (hDefault rfl) (.drop (hDefault rfl)
      (.drop (hDefault rfl) (.drop (hDefault rfl) .nil)))))

/- A set default is the same as none. -/
theorem small_unsets :
    (small (some 1)).Unsets (small none) := by
  refine ⟨(small none).repositories, rfl, .cons ?_ .nil⟩
  exact ⟨{}, rfl, .inl rfl, .inr ⟨rfl, rfl⟩, .inl rfl, .inl rfl,
    .inl rfl⟩

theorem small_fits : (small (some 1)).Fits where
  repositories r hR := by
    cases List.mem_singleton.mp hR
    exact ⟨by decide, by decide⟩
  pools r hR := by
    cases List.mem_singleton.mp hR
    exact ⟨nofun, fun n hN => by cases hN; decide, nofun, nofun⟩
  clusters := nofun
  policies := nofun
  defaultTimeout := by decide

theorem small_valid : (small (some 1)).validate = .ok () := by
  rw [validate_eq_ok_iff]
  constructor
  · exact List.nodup_singleton _
  · exact List.nodup_nil
  · exact List.nodup_nil
  · intro r hR
    cases List.mem_singleton.mp hR
    exact ⟨by decide, ⟨"sqlite", by decide +kernel⟩, rfl⟩
  · exact nofun
  · exact nofun

/- The bound is read as it was, or as unset. -/
theorem small_reads_back :
    (small (some 1)).validate = .ok () ∧
    (small (some 1)).Fits ∧
    (small (some 1)).Unsets (small none) ∧
    Shortens IsDispensable (small none).toJson brief ∧
    read (small (some 1)).write = .ok (small (some 1)) ∧
    read brief.render = .ok (small none) ∧
    (small (some 1)).WorksAs (small none) := by
  have hBrief :
      Shortens IsDispensable (small none).toJson brief :=
    small_shortens (fun _ _ h => h) (.inl rfl)
  obtain ⟨hWhole, -, hUnset⟩ := reads_back small_valid small_fits
  exact ⟨small_valid, small_fits, small_unsets, hBrief, hWhole,
    hUnset _ _ small_unsets hBrief⟩

/- An option that is left out is not read as documented. -/
theorem documented_option_is_not_read :
    ¬ ∀ (c : Config) (j : Json),
      c.validate = .ok () → c.Fits →
      Shortens IsDocumented c.toJson j →
      read j.render = .ok c := by
  intro h
  have hShort : Shortens IsDocumented (small (some 1)).toJson
      brief :=
    small_shortens (fun _ _ h => h.isDocumented) (.inr rfl)
  have hSame := h _ brief small_valid small_fits hShort
  have hUnset : read brief.render = .ok (small none) :=
    read_shortened (small_unsets.validate small_valid)
      (small_unsets.fits small_fits)
      (small_shortens (fun _ _ h => h) (.inl rfl))
  rw [hUnset] at hSame
  cases hSame

end Config

end Failover
