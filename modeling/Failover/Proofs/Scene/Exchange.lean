import Failover.World.Basic

/-
  Statements with the replies to them.  A reply depends on how
  many statements the engine had before, on any connection.

  Key definitions include:
    * `Exchange`
    * `Unasked`, `SendsNothing`
    * `exchanges`
    * `IsSilent`

  Main statements:
    * `exchanges_concat`
-/

namespace Failover

/- A statement that was sent, and what comes back. -/
structure Exchange where
  statement : Statement
  reply : Option Reply

/- Statements that go to one repository. -/
def Event.asks
    (repository : String) : Event → Bool
  | .fetched c _ => c.repository = repository
  | _ => false

/- No statement is among some events. -/
def Unasked (es : List Event) : Prop :=
  ∀ e ∈ es, ∀ r, e.asks r = false

theorem Unasked.nil : Unasked [] :=
  fun _ hMem => absurd hMem List.not_mem_nil

/- No statement is sent from one log to a later one. -/
def SendsNothing (log log' : List Event) : Prop :=
  ∃ es, log' = log ++ es ∧ Unasked es

namespace SendsNothing

variable {log log₁ log' : List Event}

theorem refl (log : List Event) : SendsNothing log log :=
  ⟨[], (List.append_nil _).symm, .nil⟩

/- An event that is no statement sends nothing. -/
theorem noted
    {e : Event}
    (hAsks : ∀ r, e.asks r = false) :
    SendsNothing log (log ++ [e]) := by
  refine ⟨[e], rfl, fun x hX => ?_⟩
  rw [List.mem_singleton.mp hX]
  exact hAsks

theorem trans
    (h : SendsNothing log log₁)
    (hNext : SendsNothing log₁ log') :
    SendsNothing log log' := by
  rcases h with ⟨es, rfl, hFirst⟩
  rcases hNext with ⟨fs, rfl, hLast⟩
  refine ⟨es ++ fs, List.append_assoc .., fun e hE => ?_⟩
  exact (List.mem_append.mp hE).elim (hFirst e) (hLast e)

theorem grows (h : SendsNothing log log') : log <+: log' := by
  rcases h with ⟨es, rfl, -⟩
  exact List.prefix_append _ _

end SendsNothing

/- A statement on a connection, as the next of its engine. -/
def Event.exchange?
    (backend : String → Backend)
    (c : Connection)
    (n : Nat) : Event → Option Exchange
  | .fetched c' s =>
      if c' = c then
        some ⟨s, ((backend c.repository).fetch n s).reply⟩
      else none
  | _ => none

/- What follows some statements that the engine had. -/
def exchangesFrom
    (backend : String → Backend)
    (c : Connection)
    (n : Nat) : List Event → List Exchange
  | [] => []
  | e :: es =>
      (e.exchange? backend c n).toList ++
        exchangesFrom backend c
          (n + if e.asks c.repository then 1 else 0) es

/- All that was sent on a connection. -/
def exchanges
    (backend : String → Backend)
    (c : Connection)
    (log : List Event) : List Exchange :=
  exchangesFrom backend c 0 log

variable {backend : String → Backend} {c : Connection}

theorem exchangesFrom_append
    (n : Nat)
    (xs ys : List Event) :
    exchangesFrom backend c n (xs ++ ys) =
      exchangesFrom backend c n xs ++
        exchangesFrom backend c
          (n + xs.countP (·.asks c.repository)) ys := by
  induction xs generalizing n with
  | nil => rfl
  | cons x xs ih =>
      rw [List.cons_append, exchangesFrom, exchangesFrom, ih,
        List.append_assoc, List.countP_cons]
      have hCount : n + (if x.asks c.repository then 1 else 0) +
          xs.countP (·.asks c.repository) =
            n + (xs.countP (·.asks c.repository) +
              if x.asks c.repository then 1 else 0) := by
        omega
      rw [hCount]

theorem exchanges_concat
    (log : List Event)
    (e : Event) :
    exchanges backend c (log ++ [e]) =
      exchanges backend c log ++
        (e.exchange? backend c
          (log.countP (·.asks c.repository))).toList := by
  rw [exchanges, exchangesFrom_append, exchangesFrom,
    exchangesFrom, List.append_nil, Nat.zero_add]
  rfl

/- Statements that were sent stay sent as the log grows. -/
theorem exchanges_grow
    {log log' : List Event}
    (h : log <+: log') :
    exchanges backend c log <+: exchanges backend c log' := by
  rcases h with ⟨es, rfl⟩
  rw [exchanges, exchanges, exchangesFrom_append]
  exact List.prefix_append _ _

/-
  Events without a statement on the connection add nothing to
  its exchanges.
-/
theorem exchanges_still
    {log es : List Event}
    (h : ∀ e ∈ es, ∀ s, e ≠ .fetched c s) :
    exchanges backend c (log ++ es) = exchanges backend c log := by
  have hNone (n : Nat) : exchangesFrom backend c n es = [] := by
    induction es generalizing n with
    | nil => rfl
    | cons e es ih =>
        rw [exchangesFrom, ih fun x hX =>
          h x (List.mem_cons_of_mem _ hX), List.append_nil]
        have hThis : e.exchange? backend c n = none := by
          unfold Event.exchange?
          split
          · next c' s =>
            have hNe : c' ≠ c := by
              rintro rfl
              exact h _ (List.mem_cons_self ..) s rfl
            rw [if_neg hNe]
          · rfl
        rw [hThis]
        rfl
  rw [exchanges, exchangesFrom_append, hNone, List.append_nil]
  rfl

/- A connection without statements has no exchanges. -/
theorem exchanges_eq_nil
    {log : List Event}
    (h : ∀ s, .fetched c s ∉ log) :
    exchanges backend c log = [] := by
  have hStill : exchanges backend c ([] ++ log) =
      exchanges backend c [] := by
    refine exchanges_still fun e hE s hEq => ?_
    subst hEq
    exact h s hE
  exact hStill

/- Events without any statement add nothing to exchanges. -/
theorem exchanges_unasked
    {log es : List Event}
    (h : Unasked es) :
    exchanges backend c (log ++ es) = exchanges backend c log := by
  refine exchanges_still fun e hE s hEq => ?_
  subst hEq
  have hNot := h _ hE c.repository
  simp [Event.asks] at hNot

theorem SendsNothing.exchanges_eq
    {log log' : List Event}
    (h : SendsNothing log log') :
    exchanges backend c log' = exchanges backend c log := by
  rcases h with ⟨es, rfl, hAsks⟩
  exact exchanges_unasked hAsks

/- Every reply is one that the engine gives. -/
theorem mem_exchangesFrom
    {n : Nat}
    {log : List Event}
    {x : Exchange}
    (h : x ∈ exchangesFrom backend c n log) :
    ∃ n, x.reply =
      ((backend c.repository).fetch n x.statement).reply := by
  induction log generalizing n with
  | nil => cases h
  | cons e es ih =>
      rw [exchangesFrom] at h
      rcases List.mem_append.mp h with hThis | hRest
      · have hSome := Option.mem_toList.mp hThis
        unfold Event.exchange? at hSome
        split at hSome
        · split at hSome
          · cases hSome
            exact ⟨n, rfl⟩
          · cases hSome
        · cases hSome
      · exact ih hRest

/- A statement was sent on a connection and gets no reply. -/
def IsSilent
    (backend : String → Backend)
    (c : Connection)
    (log : List Event) : Prop :=
  ∃ s, ⟨s, none⟩ ∈ exchanges backend c log

theorem IsSilent.append
    {log : List Event}
    (h : IsSilent backend c log)
    (es : List Event) : IsSilent backend c (log ++ es) := by
  rcases h with ⟨s, hMem⟩
  exact ⟨s, (exchanges_grow (List.prefix_append _ _)).subset
    hMem⟩

end Failover
