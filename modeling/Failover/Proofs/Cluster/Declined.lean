import Failover.Proofs.Cluster.Route

/-
  Failures that a policy does not let another attempt follow.
  While members are left such a failure is given back as it
  is.  That of the last member is wrapped: the cluster counts
  as exhausted, although it was the policy that ended the
  attempts.

  Key definitions include:
    * `Course.IsDeclined`
    * `Cluster.Routes`

  Main statements:
    * `Course.result_eq_iff`
    * `Cluster.declined_is_returned_iff`
-/

namespace Failover

variable {α σ : Type}

------------------------------------------------------------
-- Courses
------------------------------------------------------------

namespace Course

/- The last attempt failed, and no other was to follow it. -/
structure IsDeclined
    (retry : Failure → Nat → Bool)
    (o : Course α)
    (f : Failure) : Prop where
  last : o.last = .error f
  declined : retry f o.size = false

section
variable {cluster : String} {ranked : List Repository}
variable {o : Course α} {f : Failure}

/-
  A failure after all members have been tried is that of the
  cluster.
-/
theorem result_of_all
    (hLast : o.last = .error f)
    (hAll : o.size = ranked.length) :
    o.result cluster ranked =
      .error (.clusterExhausted cluster ranked.length f
        (history ranked (o.failures ++ [f]))) := by
  unfold result
  rw [hLast, hAll]
  exact if_neg (Nat.lt_irrefl _)

/- The last failure is the result if members are left. -/
theorem result_eq_iff
    (hLast : o.last = .error f)
    (hWithin : o.size ≤ ranked.length) :
    o.result cluster ranked = .error f ↔
      o.size < ranked.length := by
  constructor
  · intro hResult
    apply Nat.lt_of_le_of_ne hWithin
    intro hAll
    rw [result_of_all hLast hAll] at hResult
    -- No failure is a part of itself.
    cases hResult
  · intro hLess
    unfold result
    rw [hLast]
    exact if_pos hLess

end

end Course

------------------------------------------------------------
-- Commands on clusters
------------------------------------------------------------

namespace Cluster

/-
  The members are ranked, and a course of attempts on the first
  of them is all that is done.
-/
structure Routes
    (k : Cluster)
    (c : Command)
    (attempt : Repository → StateT σ Effect (Except Failure α))
    (report : Repository → Bool → StateT σ Effect Unit)
    (ranked : List Repository)
    (o : Course α)
    (s : σ)
    (w : World)
    (s' : σ)
    (w' : World) : Prop where
  led : o.IsLed (k.policy.shouldRetry c) 0 ranked.length
  made : ∃ w₁, Effect.Leads (World.order k) w ranked w₁ ∧
    Act.Leads (visits attempt report (ranked.take o.size)) s w₁
      o.outcomes s' w'

/-
  A command whose attempts end with a failure that is declined
  another one.  The failure is given back as it is if and only
  if the member that failed was not the last of those ranked;
  else it is that of an exhausted cluster.
-/
theorem declined_is_returned_iff
    {k : Cluster}
    (hRanked : k.policy.IsRanked)
    (c : Command)
    (attempt : Repository → StateT σ Effect (Except Failure α))
    (report : Repository → Bool → StateT σ Effect Unit)
    (s : σ)
    (w : World) :
    Act.Ends (k.route c attempt report) s w fun x s' w' =>
      (∃ f, k.available = .error f ∧
        x = .error f ∧ s' = s ∧ w' = w) ∨
      ∃ ranked, ∃ o : Course α,
        ranked.Perm k.members ∧
        k.Routes c attempt report ranked o s w s' w' ∧
        ∀ f, o.IsDeclined (k.policy.shouldRetry c) f →
          (x = .error f ↔ o.size < ranked.length) ∧
          (o.size = ranked.length →
            x = .error (.clusterExhausted k.name ranked.length f
              (Course.history ranked (o.failures ++ [f])))) := by
  unfold route
  rw [Act.ends_bind, Act.ends_lift]
  refine (World.rank_orders hRanked w).mono ?_
  intro y w₁ hOrders
  rcases hOrders with ⟨f, hAvailable, rfl, rfl⟩ |
    ⟨ranked, rfl, hSome, hPerm, hOrder⟩
  · exact .inl ⟨f, hAvailable, rfl, rfl, rfl⟩
  · refine (k.execute_course c ranked hSome attempt report s
      w₁).mono ?_
    intro x s' w' hCourse
    obtain ⟨o, hLed, hVisits, rfl⟩ := hCourse
    refine .inr ⟨ranked, o, hPerm, ⟨hLed, w₁, hOrder, hVisits⟩,
      ?_⟩
    intro f hDeclined
    constructor
    · exact Course.result_eq_iff hDeclined.last hLed.within
    · exact Course.result_of_all hDeclined.last

/- A single member, which is all there is to try. -/
def lone : Cluster :=
  ⟨"lone", 0, true,
    [⟨"a", "mock", true, 0, .verbatim "MOCK" "a" false⟩],
    ⟨"plain", .configured, .standard none, false⟩⟩

def unconvertible : Failure :=
  .resultConversion "a" "Cannot convert text to i32"

/- A result that does not convert, wherever it comes from. -/
def failConversion
    (_ : Repository) :
    StateT Unit Effect (Except Failure Nat) :=
  return .error unconvertible

/- The one attempt on the member that there is. -/
theorem lone_routes
    (w : World) :
    Act.Ends
      (lone.route (.ofText .text "SELECT 1") failConversion
        fun _ _ => pure ()) () w fun x s' w' =>
      lone.Routes (.ofText .text "SELECT 1") failConversion
        (fun _ _ => pure ()) lone.members
        ⟨[], .error unconvertible⟩ () w s' w' ∧
      x = .error (.clusterExhausted "lone" 1 unconvertible
        [⟨"a", unconvertible.message⟩]) := by
  refine ⟨⟨?_, _, rfl, rfl⟩, rfl⟩
  exact ⟨Nat.le_refl 1, nofun, fun _ _ => .inl rfl⟩

/-
  A failure that the policy declines is wrapped as the
  cluster's, as no other member is left.
-/
theorem lone_is_exhausted :
    lone.policy.IsRanked ∧
    Act.Ends
      (lone.route (.ofText .text "SELECT 1") failConversion
        fun _ _ => pure ()) ()
      (World.initial fun _ => Backend.willing) fun x s' w' =>
      ∃ (ranked : List Repository) (o : Course Nat),
        ranked.Perm lone.members ∧
        lone.Routes (.ofText .text "SELECT 1") failConversion
          (fun _ _ => pure ()) ranked o ()
          (World.initial fun _ => Backend.willing) s' w' ∧
        ∀ f, o.IsDeclined
          (lone.policy.shouldRetry (.ofText .text "SELECT 1")) f →
          x = .error (.clusterExhausted "lone" 1 f
            (Course.history ranked (o.failures ++ [f]))) := by
  have hRanked : lone.policy.IsRanked := nofun
  refine ⟨hRanked, (declined_is_returned_iff hRanked
    (.ofText .text "SELECT 1") failConversion
    (fun _ _ => pure ()) () _).mono ?_⟩
  intro x s' w' hCourse
  rcases hCourse with ⟨f, hAvailable, -⟩ |
    ⟨ranked, o, hPerm, hRoutes, hDeclined⟩
  · cases hAvailable
  · refine ⟨ranked, o, hPerm, hRoutes, fun f h => ?_⟩
    have hOne : ranked.length = 1 := hPerm.length_eq
    have hAll : o.size = ranked.length := by
      have hWithin := hRoutes.led.within
      unfold Course.size at hWithin ⊢
      omega
    rw [(hDeclined f h).2 hAll, hOne]
    rfl

/- A failure that is declined may come back as another one. -/
theorem declined_failure_is_wrapped :
    ¬ ∀ (k : Cluster) (most : Option Nat) (c : Command)
      (attempt : Repository →
        StateT Unit Effect (Except Failure Nat))
      (report : Repository → Bool → StateT Unit Effect Unit)
      (w : World),
      k.policy.IsRanked → k.policy.retry = .standard most →
      Act.Ends (k.route c attempt report) () w fun x s' w' =>
        ∀ ranked o f,
          k.Routes c attempt report ranked o () w s' w' →
          o.IsDeclined (k.policy.shouldRetry c) f →
          x = .error f := by
  intro h
  let w := World.initial fun _ => Backend.willing
  have hSame := h lone none (.ofText .text "SELECT 1")
    failConversion (fun _ _ => pure ()) w nofun rfl
  obtain ⟨hRoutes, hWrapped⟩ := lone_routes w
  have hReturned := hSame _ _ _ hRoutes ⟨rfl, rfl⟩
  cases hWrapped.symm.trans hReturned

end Cluster

end Failover
