import Failover.Proofs.Config.RoundTrip
import Failover.Proofs.Config.Shorthand

/-
  The pools of accepted repositories against the numbers that
  they are run with.  The bounds that are given are in order,
  but a least number alone is not compared with the greatest
  one that the engine puts in its place.

  Key definitions include:
    * `Config.Pool.IsUsable`
    * `Config.Pool.PassesDefault`
    * `Config.Repository.IsAccepted`

  Main statements:
    * `Config.Pool.isUsable_iff`
    * `Config.Repository.accepted_usable_iff`
-/

namespace Failover

namespace Config

------------------------------------------------------------
-- Pools
------------------------------------------------------------

/- There is room for the least number, which is at least one. -/
def Pool.IsUsable
    (p : Pool)
    (embedded : Bool) : Prop :=
  1 ≤ p.least ∧ p.least ≤ p.greatest embedded

/- A least number passes the greatest one of the engine. -/
def Pool.PassesDefault
    (p : Pool)
    (embedded : Bool) : Prop :=
  p.maxConnections = none ∧
  ∃ least, p.minConnections = some least ∧
    (if embedded then 1 else 10) < least

section Pools

variable {p : Pool}

theorem Pool.least_pos
    (h : p.validate = .ok ()) : 1 ≤ p.least := by
  obtain ⟨-, hLeast, -⟩ := p.validate_eq_ok_iff.mp h
  unfold least
  cases hMin : p.minConnections with
  | none => exact Nat.le_refl 1
  | some n =>
      rw [hMin, ne_eq, Option.some.injEq] at hLeast
      exact Nat.one_le_iff_ne_zero.mpr hLeast

theorem Pool.greatest_pos
    (h : p.validate = .ok ())
    (embedded : Bool) : 1 ≤ p.greatest embedded := by
  obtain ⟨hGreatest, -, -⟩ := p.validate_eq_ok_iff.mp h
  unfold greatest
  cases hMax : p.maxConnections with
  | none => cases embedded <;> decide
  | some n =>
      rw [hMax, ne_eq, Option.some.injEq] at hGreatest
      exact Nat.one_le_iff_ne_zero.mpr hGreatest

/-
  Of the four ways to give bounds or not, only a least number
  without a greatest one can be out of order.
-/
theorem Pool.isUsable_iff
    (h : p.validate = .ok ())
    (embedded : Bool) :
    p.IsUsable embedded ↔ ¬ p.PassesDefault embedded := by
  have hLeastPos := Pool.least_pos h
  have hGreatestPos := Pool.greatest_pos h embedded
  obtain ⟨-, -, hOrder⟩ := p.validate_eq_ok_iff.mp h
  unfold IsUsable PassesDefault
  unfold least greatest at *
  cases hMin : p.minConnections with
  | none =>
      rw [hMin] at hLeastPos
      simp [hGreatestPos]
  | some least =>
      rw [hMin, Option.getD_some] at hLeastPos
      cases hMax : p.maxConnections with
      | none => simp [hLeastPos]
      | some greatest =>
          have hLess := hOrder least greatest hMin hMax
          simp [hLess, hLeastPos]

end Pools

------------------------------------------------------------
-- Accepted repositories
------------------------------------------------------------

/-
  A repository of a configuration that was read, or of a line,
  whatever it is that reads the URL of the line.
-/
def Repository.IsAccepted (r : Repository) : Prop :=
  (∃ text c, Config.read text = .ok c ∧ r ∈ c.repositories) ∨
  ∃ read line, ofLine read line = .ok r

theorem read_valid
    {text : String}
    {c : Config}
    (h : Config.read text = .ok c) : c.validate = .ok () := by
  unfold read at h
  cases hText : ofText? text with
  | none =>
      rw [hText] at h
      cases h
  | some d =>
      rw [hText] at h
      cases hValid : d.validate with
      | error e =>
          simp only [hValid, Except.map] at h
          cases h
      | ok u =>
          simp only [hValid, Except.map, Except.ok.injEq] at h
          exact h ▸ hValid

/- The pool of an accepted repository has been checked. -/
theorem Repository.IsAccepted.pool_valid
    {r : Repository}
    (h : r.IsAccepted) : r.pool.validate = .ok () := by
  rcases h with ⟨text, c, hRead, hMem⟩ | ⟨read, line, hLine⟩
  · have hValid := (validate_eq_ok_iff c).mp (read_valid hRead)
    exact (hValid.repositories r hMem).pool
  · obtain ⟨name, text, u, sequence, -, -, -, hPool, -, rfl⟩ :=
      ofLine_eq_ok_iff.mp hLine
    exact hPool

/-
  The bounds of an accepted pool are positive.  They are in
  order exactly if a least number that is given alone does not
  pass the greatest one of the engine.
-/
theorem Repository.accepted_usable_iff
    {r : Repository}
    (h : r.IsAccepted) :
    1 ≤ r.pool.least ∧
    1 ≤ r.pool.greatest r.isEmbedded ∧
    (r.pool.IsUsable r.isEmbedded ↔
      ¬ r.pool.PassesDefault r.isEmbedded) :=
  have hValid := h.pool_valid
  ⟨Pool.least_pos hValid, Pool.greatest_pos hValid r.isEmbedded,
    Pool.isUsable_iff hValid r.isEmbedded⟩

/- Ten connections of a server are as many as there may be. -/
def busyOrders : Repository where
  name := "orders"
  connectionString := "postgres://db/orders"
  pool := { minConnections := some 10 }

theorem busyOrders_isUsable :
    busyOrders.IsAccepted ∧
    busyOrders.pool.IsUsable busyOrders.isEmbedded := by
  have hAccepted : busyOrders.IsAccepted := by
    refine .inr ⟨Url.ofText,
      "orders=postgres://db/orders?min_connections=10", ?_⟩
    decide +kernel
  have hServer : busyOrders.isEmbedded = false := by
    decide +kernel
  refine ⟨hAccepted, ?_⟩
  refine (Repository.accepted_usable_iff hAccepted).2.2.mpr ?_
  rw [hServer]
  rintro ⟨-, least, hLeast, hPasses⟩
  cases hLeast
  exact absurd hPasses (by decide)

/-
  A lower bound of two connections is accepted for an embedded
  database, which takes one.
-/
theorem two_connections_are_accepted :
    ¬ ∀ r : Repository, r.IsAccepted →
      r.pool.IsUsable r.isEmbedded := by
  intro h
  let cache : Repository :=
    { name := "a"
      connectionString := "sqlite:a.db"
      pool := { minConnections := some 2 } }
  have hUsable := h cache
    (.inr ⟨Url.ofText, "a=sqlite:a.db?min_connections=2",
      by decide +kernel⟩)
  have hEmbedded : cache.isEmbedded = true := by decide +kernel
  rw [hEmbedded] at hUsable
  exact absurd hUsable.2 (by decide)

end Config

end Failover
