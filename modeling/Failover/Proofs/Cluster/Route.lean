import Failover.Access.Execute
import Failover.Proofs.Cluster.Order

/-
  One command on the members of a cluster: which of them are
  tried, what is reported of each, and what comes of it all.

  Key definitions include:
    * `Cluster.route`
    * `Cluster.visit`, `Cluster.visits`
    * `Course`, `Course.IsLed`, `Course.result`

  Main statements:
    * `Cluster.tryEach_course`
    * `Cluster.route_course`
-/

namespace Failover

variable {α σ : Type}

------------------------------------------------------------
-- Courses
------------------------------------------------------------

/-
  The outcomes of attempts made one after another: failures
  that were followed by an attempt, and the last outcome.
-/
structure Course (α : Type) where
  failures : List Failure
  last : Except Failure α

namespace Course

/- The number of attempts. -/
def size (o : Course α) : Nat :=
  o.failures.length + 1

def outcomes (o : Course α) : List (Except Failure α) :=
  o.failures.map .error ++ [o.last]

/-
  Attempts follow one another as a rule grants it, which
  counts them on from some that were made before.  The last
  one succeeds, is declined another, or leaves no member.
-/
structure IsLed
    (retry : Failure → Nat → Bool)
    (before members : Nat)
    (o : Course α) : Prop where
  within : o.size ≤ members
  granted : ∀ i f, o.failures[i]? = some f →
    retry f (before + i + 1) = true
  ends : ∀ f, o.last = .error f →
    o.size = members ∨ retry f (before + o.size) = false

/- One failed attempt on each of some members. -/
def history
    (members : List Repository)
    (failures : List Failure) : List Attempt :=
  List.zipWith (fun r f => ⟨r.name, f.message⟩) members failures

/-
  What a command on ranked members comes to.  They are
  exhausted when the last of them has failed.
-/
def result
    (cluster : String)
    (ranked : List Repository)
    (o : Course α) : Except Failure α :=
  match o.last with
  | .ok a => .ok a
  | .error f =>
      if o.size < ranked.length then .error f
      else
        .error (.clusterExhausted cluster ranked.length f
          (history ranked (o.failures ++ [f])))

/- How attempts end that some history came before. -/
def trial
    (earlier : List Attempt)
    (members : List Repository)
    (o : Course α) : Cluster.Trial α :=
  match o.last with
  | .ok a => .succeeded a
  | .error f =>
      .failed f (earlier ++ history members (o.failures ++ [f]))

/- A failure, and the attempts that follow it. -/
def after
    (f : Failure)
    (o : Course α) : Course α :=
  ⟨f :: o.failures, o.last⟩

theorem after_trial
    (f : Failure)
    (o : Course α)
    (earlier : List Attempt)
    (r : Repository)
    (rest : List Repository) :
    (o.after f).trial earlier (r :: rest) =
      o.trial (earlier ++ [⟨r.name, f.message⟩]) rest := by
  unfold trial after
  cases o.last with
  | ok a => rfl
  | error g => simp [history]

theorem IsLed.after
    {retry : Failure → Nat → Bool}
    {before members : Nat}
    {f : Failure}
    {o : Course α}
    (hLed : o.IsLed retry (before + 1) members)
    (hRetry : retry f (before + 1) = true) :
    (o.after f).IsLed retry before (members + 1) where
  within := Nat.succ_le_succ hLed.within
  granted := by
    intro i g hGet
    cases i with
    | zero =>
        cases hGet
        exact hRetry
    | succ i =>
        have hGranted := hLed.granted i g hGet
        rwa [Nat.add_right_comm before 1 i] at hGranted
  ends := by
    intro g hLast
    rcases hLed.ends g hLast with hAll | hDeclined
    · exact .inl (congrArg (· + 1) hAll)
    · rw [Nat.add_right_comm] at hDeclined
      exact .inr hDeclined

/- A limit of attempts is kept. -/
theorem IsLed.size_le
    {most : Nat}
    {c : Command}
    {members : Nat}
    {o : Course α}
    (hLed : o.IsLed (Policy.standardRetry (some most) c) 0
      members)
    (hMost : 1 ≤ most) : o.size ≤ most := by
  unfold size
  cases hFailures : o.failures.length with
  | zero => exact hMost
  | succ n =>
      -- The last failure that was granted another attempt.
      have hLess : n < o.failures.length := by
        omega
      have hGranted := hLed.granted n o.failures[n]
        (List.getElem?_eq_getElem hLess)
      have hBelow : n + 1 < most := by
        unfold Policy.standardRetry at hGranted
        split at hGranted
        · cases hGranted
        · simp only [Bool.if_false_left, Bool.and_eq_true,
            decide_eq_true_eq] at hGranted
          omega
      omega

/- The history holds one entry for each failure. -/
theorem history_length
    {members : List Repository}
    {failures : List Failure}
    (hLength : failures.length ≤ members.length) :
    (history members failures).length = failures.length := by
  rw [history, List.length_zipWith]
  exact Nat.min_eq_right hLength

end Course

namespace Cluster

------------------------------------------------------------
-- Attempts on members
------------------------------------------------------------

section
variable {m : Type → Type} [Monad m]

/- A member is tried, and what comes of it is reported. -/
def visit
    (attempt : Repository → m (Except Failure α))
    (report : Repository → Bool → m Unit)
    (r : Repository) : m (Except Failure α) := do
  let x ← attempt r
  report r x.isOk
  return x

/- Members are visited, each of them once and in turn. -/
def visits
    (attempt : Repository → m (Except Failure α))
    (report : Repository → Bool → m Unit) :
    List Repository → m (List (Except Failure α))
  | [] => return []
  | r :: rest => do
      let x ← visit attempt report r
      let xs ← visits attempt report rest
      return x :: xs

/- A command on the members, as they are ranked now. -/
def route
    [MonadLiftT Effect m]
    (k : Cluster)
    (c : Command)
    (attempt : Repository → m (Except Failure α))
    (report : Repository → Bool → m Unit) :
    m (Except Failure α) := do
  match ← liftM (World.rank k) with
  | .error f => return .error f
  | .ok ranked => k.execute c ranked attempt report

end

/- The members that are tried, whatever comes of them. -/
theorem tryEach_course
    (t : Trier (StateT σ Effect) α)
    (earlier : List Attempt)
    (members : List Repository)
    (hSome : members ≠ [])
    (s : σ)
    (w : World) :
    Act.Ends (tryEach t earlier members) s w fun y s' w' =>
      ∃ o : Course α,
        o.IsLed t.retry earlier.length members.length ∧
        Act.Leads
          (visits t.attempt t.report (members.take o.size)) s w
          o.outcomes s' w' ∧
        y = o.trial earlier members := by
  induction members generalizing earlier s w with
  | nil => exact absurd rfl hSome
  | cons member rest ih =>
      unfold tryEach
      rw [Act.ends_bind]
      rcases Act.exists_leads s w (t.attempt member) with
        ⟨x, s₁, w₁, hAttempt⟩
      rw [hAttempt.ends_iff]
      rcases Act.exists_leads s₁ w₁ (t.report member x.isOk) with
        ⟨_, s₂, w₂, hReport⟩
      have hVisit : Act.Leads (visit t.attempt t.report member)
          s w x s₂ w₂ :=
        hAttempt.bind (hReport.bind rfl)
      -- The visit of this member alone, as the last one.
      have hLast : Act.Leads
          (visits t.attempt t.report [member]) s w [x] s₂ w₂ :=
        hVisit.bind rfl
      cases x with
      | ok a =>
          rw [Act.ends_bind]
          apply (hReport.ends_iff _).mpr
          refine ⟨⟨[], .ok a⟩, ?_, hLast, rfl⟩
          exact ⟨Nat.succ_le_succ (Nat.zero_le _), nofun, nofun⟩
      | error f =>
          rw [Act.ends_bind]
          apply (hReport.ends_iff _).mpr
          simp only [List.length_append, List.length_singleton]
          split
          · next hMore =>
            rcases Bool.and_eq_true_iff.mp hMore with
              ⟨hRetry, hLeft⟩
            have hRest : rest ≠ [] := by
              simpa using hLeft
            refine (ih _ hRest s₂ w₂).mono ?_
            intro y s' w' hCourse
            rcases hCourse with ⟨o, hLed, hVisits, rfl⟩
            rw [List.length_append] at hLed
            refine ⟨o.after f, hLed.after hRetry, ?_, ?_⟩
            · exact hVisit.bind (hVisits.bind rfl)
            · exact (o.after_trial f earlier member rest).symm
          · next hStop =>
            have hTrial : (⟨[], .error f⟩ : Course α).trial earlier
                (member :: rest) =
                .failed f (earlier ++ [⟨member.name, f.message⟩]) := by
              simp [Course.trial, Course.history]
            refine ⟨⟨[], .error f⟩, ?_, hLast, hTrial.symm⟩
            refine ⟨Nat.succ_le_succ (Nat.zero_le _), nofun, ?_⟩
            intro g hLast
            cases hLast
            by_cases hRest : rest = []
            · subst hRest
              exact .inl rfl
            · right
              simpa [hRest, Course.size] using hStop

/- The result of a course, as the end of its attempts has it. -/
theorem conclude_trial
    {o : Course α}
    {retry : Failure → Nat → Bool}
    {ranked : List Repository}
    (k : Cluster)
    (hLed : o.IsLed retry 0 ranked.length) :
    k.conclude ranked (o.trial [] ranked) =
      o.result k.name ranked := by
  unfold Course.trial Course.result
  cases o.last with
  | ok a => rfl
  | error f =>
      have hSize :
          (o.failures ++ [f]).length = o.size := by
        simp [Course.size]
      have hLength :
          (Course.history ranked (o.failures ++ [f])).length =
            (o.failures ++ [f]).length :=
        Course.history_length (hSize ▸ hLed.within)
      simp only [conclude, List.nil_append, hLength, hSize]
      by_cases hLess : o.size < ranked.length
      · rw [if_pos hLess, if_pos hLess]
      · have hAll : ranked.length = o.size :=
          Nat.le_antisymm (Nat.not_lt.mp hLess) hLed.within
        have hOne : 1 ≤ o.size :=
          Nat.succ_le_succ (Nat.zero_le _)
        rw [if_neg hLess, if_neg hLess, Failure.exhausted,
          hLength, hSize, hAll, Nat.max_eq_left hOne]

theorem execute_course
    (k : Cluster)
    (c : Command)
    (ranked : List Repository)
    (hSome : ranked ≠ [])
    (attempt : Repository → StateT σ Effect (Except Failure α))
    (report : Repository → Bool → StateT σ Effect Unit)
    (s : σ)
    (w : World) :
    Act.Ends (k.execute c ranked attempt report) s w
      fun x s' w' => ∃ o : Course α,
        o.IsLed (k.policy.shouldRetry c) 0 ranked.length ∧
        Act.Leads
          (visits attempt report (ranked.take o.size)) s w
          o.outcomes s' w' ∧
        x = o.result k.name ranked := by
  unfold execute
  rw [Act.ends_bind]
  refine (tryEach_course ⟨attempt, report, k.policy.shouldRetry c⟩
    [] ranked hSome s w).mono ?_
  intro y s' w' hCourse
  rcases hCourse with ⟨o, hLed, hVisits, rfl⟩
  exact ⟨o, hLed, hVisits, k.conclude_trial hLed⟩

------------------------------------------------------------
-- Commands on clusters
------------------------------------------------------------

theorem ordered_perm (members : List Repository) :
    (ordered members).Perm (members.filter (·.enabled)) :=
  List.mergeSort_perm ..

theorem ordered_isEmpty (members : List Repository) :
    (ordered members).isEmpty = !members.any (·.enabled) := by
  rw [(ordered_perm members).isEmpty_eq]
  induction members with
  | nil => rfl
  | cons r rest ih =>
      cases hEnabled : r.enabled with
      | true => simp [hEnabled]
      | false => simpa [hEnabled] using ih

/- A cluster takes commands if one of its members does. -/
theorem available_ofMembers
    (name : String)
    (sequence : Int)
    (enabled : Bool)
    (members : List Repository)
    (policy : Policy) :
    (ofMembers name sequence enabled members policy).available =
      if !enabled then
        .error (.clusterUnavailable name "cluster is disabled")
      else if !members.any (·.enabled) then
        .error (.clusterUnavailable name "no enabled members")
      else .ok () := by
  rw [← ordered_isEmpty]
  rfl

/-
  A command on a cluster with a policy of the given kinds.  If
  the cluster is off or has no enabled member, nothing is done.
  Else the ranked members are the enabled ones, and a course of
  attempts on the first of them is all that is done.
-/
theorem route_course
    {policy : Policy}
    {most : Option Nat}
    (hRanked : policy.IsRanked)
    (hRetry : policy.retry = .standard most)
    (name : String)
    (sequence : Int)
    (enabled : Bool)
    (members : List Repository)
    (c : Command)
    (attempt : Repository → StateT σ Effect (Except Failure α))
    (report : Repository → Bool → StateT σ Effect Unit)
    (s : σ)
    (w : World) :
    let k := ofMembers name sequence enabled members policy
    Act.Ends (k.route c attempt report) s w fun x s' w' =>
      if enabled && members.any (·.enabled) then
        ∃ ranked w₁, ∃ o : Course α,
          Effect.Leads (World.order k) w ranked w₁ ∧
          ranked.Perm (members.filter (·.enabled)) ∧
          Act.Leads
            (visits attempt report (ranked.take o.size)) s w₁
            o.outcomes s' w' ∧
          o.IsLed (Policy.standardRetry most c) 0
            ranked.length ∧
          (∀ m, most = some m → 1 ≤ m → o.size ≤ m) ∧
          x = o.result name ranked
      else
        (∃ reason, x = .error (.clusterUnavailable name reason)) ∧
          s' = s ∧ w' = w := by
  intro k
  unfold route
  rw [Act.ends_bind, Act.ends_lift]
  rw [World.rank, available_ofMembers]
  cases enabled with
  | false => exact ⟨⟨_, rfl⟩, rfl, rfl⟩
  | true =>
  cases hAny : members.any (·.enabled) with
  | false => exact ⟨⟨_, rfl⟩, rfl, rfl⟩
  | true =>
      rcases Effect.exists_leads (World.order k) w with
        ⟨ranked, w₁, hOrder⟩
      have hPerm : ranked.Perm (ordered members) := by
        cases hOrder
        exact Policy.rank_perm hRanked _ _ _ _
      have hSome : ranked ≠ [] := by
        have hEmpty := ordered_isEmpty members
        rw [hAny, ← hPerm.isEmpty_eq] at hEmpty
        exact List.isEmpty_eq_false_iff.mp hEmpty
      simp only [Bool.not_true, Bool.and_self, if_true,
        Bool.false_eq_true, if_false]
      rw [Effect.ends_bind]
      apply (hOrder.ends_iff _).mpr
      rw [Effect.ends_pure]
      refine (k.execute_course c ranked hSome attempt report s
        w₁).mono ?_
      intro x s' w' hCourse
      rcases hCourse with ⟨o, hLed, hVisits, rfl⟩
      have hLed : o.IsLed (Policy.standardRetry most c) 0
          ranked.length := by
        have hRule : k.policy.shouldRetry c =
            Policy.standardRetry most c := by
          funext f n
          rw [Policy.shouldRetry, show k.policy.retry = _ from hRetry]
        rwa [hRule] at hLed
      refine ⟨ranked, w₁, o, hOrder,
        hPerm.trans (ordered_perm members), hVisits, hLed, ?_, rfl⟩
      intro m hMost
      subst hMost
      exact hLed.size_le

/- Two members that are on, after one that is off. -/
def trio : List Repository :=
  [⟨"off", "mock", false, 0, .verbatim "MOCK" "off" false⟩,
    ⟨"a", "mock", true, 0, .verbatim "MOCK" "a" false⟩,
    ⟨"b", "mock", true, 0, .verbatim "MOCK" "b" false⟩]

theorem trio_ordered :
    ordered trio = trio.filter (·.enabled) :=
  List.mergeSort_of_pairwise (by decide)

/- An attempt that is noted, and that one repository passes. -/
def passing
    (name : String)
    (r : Repository) :
    StateT (List String) Effect (Except Failure Nat) := do
  modify (· ++ [r.name])
  if r.name = name then return .ok 7
  else return .error (.connectionOpen r.name "refused" "")

/- The second of the two members gives the result. -/
theorem route_falls_back :
    ∃ ranked : List Repository, ∃ o : Course Nat,
      ranked.Perm (trio.filter (·.enabled)) ∧
      o.IsLed
        (Policy.standardRetry (some 2) (.ofText .text "SELECT 1"))
        0 ranked.length ∧
      o.result "trio" ranked = .ok 7 := by
  let plain : Policy :=
    ⟨"plain", .configured, .standard (some 2), false⟩
  have hRanked : plain.IsRanked := nofun
  have hRetry : plain.retry = .standard (some 2) := rfl
  have hCourse := route_course hRanked hRetry "trio" 0 true trio
    (.ofText .text "SELECT 1") (passing "b") (fun _ _ => pure ())
    [] (World.initial fun _ => Backend.willing)
  rcases hCourse with
    ⟨ranked, w₁, o, -, hPerm, -, hLed, -, hResult⟩
  refine ⟨ranked, o, hPerm, hLed, hResult.symm.trans ?_⟩
  rw [ofMembers, trio_ordered]
  rfl

end Cluster

end Failover
