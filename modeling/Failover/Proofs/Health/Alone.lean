import Failover.Proofs.Health.Tally
import Failover.Proofs.Scene.Background

/-
  Work on a connection while nothing else goes on: what it
  comes to depends on the replies of its engine alone, from
  the number of the next statement on, and on its time limit.

  Key definitions include:
    * `WorkEnd`
    * `Backend.work`
    * `Task.Foretells`

  Main statements:
    * `World.passUntilEnd_alone`
    * `World.work_alone`
-/

namespace Failover

------------------------------------------------------------
-- Work
------------------------------------------------------------

/- How work ends: with a result, too late, or with nothing. -/
inductive WorkEnd where
  | finished (result : Reply)
  | overdue
  | died

/- The state of a task whose work ended so. -/
def WorkEnd.state
    (c : Connection)
    (limit : Nat) : WorkEnd → Task.State
  | .finished result => .finished c result
  | .overdue => .stopped (.timeout c.repository "Command" limit)
  | .died => .died

/-
  The work from a statement on, that is the next one of its
  engine, when some milliseconds of its limit are spent.
-/
def Backend.work
    (b : Backend)
    (limit n spent : Nat)
    (p : Progress) : WorkEnd :=
  let r := b.fetch n p.statement
  if limit < spent + r.delay then .overdue
  else
    match r.reply with
    | none => .died
    | some reply =>
        match h : p.receive reply with
        | .result result => .finished result
        | .more q =>
            have := Progress.size_receive h
            b.work limit (n + 1) (spent + r.delay) q
termination_by p.size

/- What is received in time, if anything. -/
def Backend.workOn
    (b : Backend)
    (limit n spent : Nat)
    (p : Progress) : Option Reply → WorkEnd
  | none => .died
  | some reply =>
      match p.receive reply with
      | .result result => .finished result
      | .more q => b.work limit n spent q

/- Work goes on with the reply, or it is too late for it. -/
theorem Backend.work_eq
    (b : Backend)
    (limit n spent : Nat)
    (p : Progress) :
    b.work limit n spent p =
      if limit < spent + (b.fetch n p.statement).delay then
        .overdue
      else b.workOn limit (n + 1)
        (spent + (b.fetch n p.statement).delay) p
        (b.fetch n p.statement).reply := by
  rw [work]
  simp only
  split
  · rfl
  · unfold workOn
    split
    · rfl
    · split <;> simp_all

------------------------------------------------------------
-- One task
------------------------------------------------------------

/-
  What a task that nobody disturbs comes to: its work has
  ended so, or it waits for a reply that leads to that end.
-/
inductive Task.Foretells
    (w : World)
    (t : Task)
    (e : WorkEnd) : Prop where
  | ended (hState : t.state = e.state t.connection t.limit)
  | waiting
      (limit n spent : Nat)
      (p : Progress)
      (r : Response)
      (hResponse : r = (w.backend t.connection.repository).fetch
        n p.statement)
      (hDeadline : t.deadline + spent = w.clock + limit)
      (hSpent : spent ≤ limit)
      (hCalls : w.calls t.connection.repository .fetch = n + 1)
      (hState : t.state = .waiting (w.clock + r.delay) p r.reply)
      (hWork : (w.backend t.connection.repository).work
        limit n spent p = e)

/-
  The end that a task foretells does not depend on other
  tasks.
-/
theorem Task.Foretells.withTasks
    {w : World}
    {t : Task}
    {e : WorkEnd}
    (h : t.Foretells w e)
    (tasks : List Task) :
    t.Foretells { w with tasks } e := by
  cases h with
  | ended hState => exact .ended hState
  | waiting limit n spent p r hResponse hDeadline hSpent hCalls
      hState hWork =>
      exact .waiting limit n spent p r hResponse hDeadline hSpent
        hCalls hState hWork

namespace World

/- Of all calls only statements of one engine were made. -/
structure Spares
    (repository : String)
    (w w' : World) : Prop where
  jobs : w'.jobs = w.jobs
  backend : w'.backend = w.backend
  calls : ∀ r call, ¬ callsFor repository .fetch r call →
    w'.calls r call = w.calls r call

/-
  Statements are sent to one repository, in no time, and no
  task comes to another state.
-/
structure Sends
    (repository : String)
    (w w' : World) : Prop extends Spares repository w w' where
  tasks : w'.tasks = w.tasks
  clock : w'.clock = w.clock

variable {repository : String} {w w₁ w' : World}

theorem Spares.trans
    (h : Spares repository w w₁)
    (hNext : Spares repository w₁ w') : Spares repository w w' where
  jobs := hNext.jobs.trans h.jobs
  backend := hNext.backend.trans h.backend
  calls := fun r call hNot =>
    (hNext.calls r call hNot).trans (h.calls r call hNot)

theorem Sends.refl : Sends repository w w :=
  ⟨⟨rfl, rfl, fun _ _ _ => rfl⟩, rfl, rfl⟩

theorem Sends.trans
    (h : Sends repository w w₁)
    (hNext : Sends repository w₁ w') : Sends repository w w' where
  toSpares := h.toSpares.trans hNext.toSpares
  tasks := hNext.tasks.trans h.tasks
  clock := hNext.clock.trans h.clock

/- The reply is the one of the statement's number. -/
theorem fetch_sends
    (c : Connection)
    (s : Statement)
    (w : World) :
    Effect.Ends (fetch c s) w fun r w' =>
      r = (w.backend c.repository).fetch
        (w.calls c.repository .fetch) s ∧
      w'.calls c.repository .fetch =
        w.calls c.repository .fetch + 1 ∧
      Sends c.repository w w' := by
  refine ⟨rfl, update_call_this w.calls _ _ _, ?_⟩
  refine ⟨⟨rfl, rfl, fun r call hNot => ?_⟩, rfl, rfl⟩
  exact update_call_other w.calls _ hNot

/-
  The induction is on the number of statements left.  As long
  as replies come at once, no time is spent.
-/
theorem send_alone
    (t : Task)
    (p : Progress)
    (limit spent : Nat)
    (w : World)
    (hDeadline : t.deadline + spent = w.clock + limit)
    (hSpent : spent ≤ limit) :
    Effect.Ends (send t p) w fun state w' =>
      Sends t.connection.repository w w' ∧
      (t.inState state).Foretells w'
        ((w.backend t.connection.repository).work limit
          (w.calls t.connection.repository .fetch) spent p) := by
  induction hSize : p.size using Nat.strongRecOn
    generalizing p w with
  | _ n ih =>
  subst hSize
  have hWork := (w.backend t.connection.repository).work_eq limit
    (w.calls t.connection.repository .fetch) spent p
  unfold send
  refine (fetch_sends t.connection p.statement w).bind ?_
  intro r w₁ hFetched
  rcases hFetched with ⟨hResponse, hCalls, hSends⟩
  rw [← hResponse] at hWork
  rw [hWork]
  by_cases hDelay : r.delay = 0
  · have hInTime : ¬ limit < spent + r.delay := by
      omega
    rw [if_pos hDelay, if_neg hInTime, hDelay]
    cases r.reply with
    | none => exact ⟨hSends, .ended rfl⟩
    | some reply =>
        simp only [Backend.workOn, Nat.add_zero]
        split
        · next result hNext =>
          rw [hNext]
          exact ⟨hSends, .ended rfl⟩
        · next q hNext =>
          rw [hNext]
          have hDeadline₁ : t.deadline + spent =
              w₁.clock + limit := by
            rw [hSends.clock]
            exact hDeadline
          refine (ih q.size (Progress.size_receive hNext) q w₁
            hDeadline₁ rfl).mono ?_
          intro state w' hLast
          rw [hSends.backend, hCalls] at hLast
          exact ⟨hSends.trans hLast.1, hLast.2⟩
  · rw [if_neg hDelay, Effect.ends_bind, Effect.ends_get]
    by_cases hLate : t.deadline ≤ w₁.clock
    · have hOverdue : limit < spent + r.delay := by
        rw [hSends.clock] at hLate
        omega
      rw [if_pos hLate, if_pos hOverdue]
      constructor
      · exact hSends.trans ⟨⟨rfl, rfl, fun _ _ _ => rfl⟩, rfl, rfl⟩
      · exact .ended rfl
    · rw [if_neg hLate, Effect.ends_pure]
      refine ⟨hSends, ?_⟩
      apply Task.Foretells.waiting limit
        (w.calls t.connection.repository .fetch) spent p r
      · rw [hSends.backend]
        exact hResponse
      · rw [hSends.clock]
        exact hDeadline
      · exact hSpent
      · exact hCalls
      · rfl
      · rw [hSends.backend]
        exact hWork

/-
  A reply that has arrived is taken at the time at which it is
  due.
-/
theorem take_alone
    (t : Task)
    (p : Progress)
    (reply : Option Reply)
    (limit spent : Nat)
    (w : World)
    (hDeadline : t.deadline + spent = w.clock + limit)
    (hSpent : spent ≤ limit) :
    Effect.Ends (take t p reply) w fun state w' =>
      Sends t.connection.repository w w' ∧
      (t.inState state).Foretells w'
        ((w.backend t.connection.repository).workOn limit
          (w.calls t.connection.repository .fetch) spent p
          reply) := by
  cases reply with
  | none => exact ⟨.refl, .ended rfl⟩
  | some reply =>
      unfold take Backend.workOn
      simp only
      cases p.receive reply with
      | result result => exact ⟨.refl, .ended rfl⟩
      | more q =>
          exact send_alone t q limit spent w hDeadline hSpent

/- A task that has ended is due no more. -/
theorem due?_state
    {t : Task}
    {e : WorkEnd}
    (hState : t.state = e.state t.connection t.limit) :
    t.due? = none := by
  unfold Task.due?
  rw [hState]
  cases e <;> rfl

/-
  The task goes on when it is due, which is when its reply
  comes, or when its time is over before that.
-/
theorem goOn_alone
    {t : Task}
    {e : WorkEnd}
    {time : Nat}
    (w : World)
    (hForetells : t.Foretells w e)
    (hDue : t.due? = some time) :
    w.clock ≤ time ∧
    Effect.Ends (goOn t) { w with clock := time } fun t' w' =>
      ∃ state, t' = t.inState state ∧ t'.Foretells w' e ∧
        Spares t.connection.repository w w' := by
  cases hForetells with
  | ended hState =>
      rw [due?_state hState] at hDue
      cases hDue
  | waiting limit n spent p r hResponse hDeadline hSpent hCalls
      hState hWork =>
      rw [Backend.work_eq, ← hResponse] at hWork
      have hTime : time = min (w.clock + r.delay) t.deadline := by
        simpa [Task.due?, hState] using hDue.symm
      constructor
      · omega
      unfold goOn
      rw [hState]
      simp only
      rw [Effect.ends_bind, Effect.ends_get]
      by_cases hArrived : w.clock + r.delay ≤ time
      · rw [if_pos hArrived]
        have hInTime : ¬ limit < spent + r.delay := by
          omega
        rw [if_neg hInTime] at hWork
        refine (take_alone t p r.reply limit (spent + r.delay)
          { w with clock := time } ?_ ?_).bind ?_
        · show t.deadline + (spent + r.delay) = time + limit
          omega
        · omega
        · intro state w' hTaken
          rcases hTaken with ⟨hSends, hLast⟩
          rw [← hWork, ← hCalls]
          exact ⟨state, rfl, hLast, hSends.jobs, hSends.backend,
            hSends.calls⟩
      · have hLate : t.deadline ≤ time := by
          omega
        have hOverdue : limit < spent + r.delay := by
          omega
        rw [if_pos hOverdue] at hWork
        rw [if_neg hArrived, if_pos hLate, ← hWork]
        exact ⟨_, rfl, .ended rfl, rfl, rfl, fun _ _ _ => rfl⟩

/- Without jobs nothing is done in the background. -/
theorem runJobs_alone
    (w : World)
    (hJobs : w.jobs = []) :
    Effect.Ends runJobs w fun _ w' => w' = w := by
  rcases w with ⟨⟩
  subst hJobs
  rfl

theorem arrive_alone
    {t : Task}
    {e : WorkEnd}
    {time : Nat}
    (w : World)
    (hTasks : w.tasks = [t])
    (hJobs : w.jobs = [])
    (hForetells : t.Foretells w e)
    (hDue : t.due? = some time) :
    Effect.Ends (arrive time) w fun _ w' =>
      ∃ state, w'.tasks = [t.inState state] ∧ w'.jobs = [] ∧
        (t.inState state).Foretells w' e ∧
        Spares t.connection.repository w w' := by
  rcases goOn_alone w hForetells hDue with ⟨hLater, hGoes⟩
  unfold arrive
  rw [Effect.ends_bind, Effect.ends_modify, Effect.ends_bind,
    Effect.ends_get, Nat.max_eq_right hLater]
  simp only
  generalize { w with clock := time } = w₀ at hGoes ⊢
  rw [hTasks, List.mapM_cons, Effect.ends_bind]
  refine hGoes.bind ?_
  intro t' w₁ hGone
  rcases hGone with ⟨state, rfl, hLast, hSpares⟩
  have hNone : w₁.jobs = [] := hSpares.jobs.trans hJobs
  rw [List.mapM_nil, Effect.ends_bind, Effect.ends_pure,
    Effect.ends_pure, Effect.ends_bind, Effect.ends_modify]
  refine (runJobs_alone { w₁ with tasks := [t.inState state] }
    hNone).mono ?_
  intro _ w' hSame
  rw [hSame]
  refine ⟨state, rfl, hNone, hLast.withTasks _, ?_⟩
  exact ⟨hSpares.jobs, hSpares.backend, hSpares.calls⟩

/- The induction is on the bound of the arrivals to come. -/
theorem passUntilEnd_alone
    {e : WorkEnd}
    (fuel : Nat)
    (t : Task)
    (w : World)
    (hTasks : w.tasks = [t])
    (hJobs : w.jobs = [])
    (hForetells : t.Foretells w e)
    (hFuel : w.arrivals < fuel) :
    Effect.Ends (passUntilEnd t.id fuel) w fun _ w' =>
      w'.tasks = [t.inState (e.state t.connection t.limit)] ∧
      w'.jobs = [] ∧ Spares t.connection.repository w w' := by
  induction fuel generalizing t w with
  | zero => omega
  | succ fuel ih =>
      have hFound : w.task? t.id = some t := by
        simp [task?, hTasks]
      unfold passUntilEnd
      rw [Effect.ends_bind, Effect.ends_get, hFound]
      simp only
      cases hDue : t.due? with
      | none =>
          have hEnded : t.state = e.state t.connection t.limit := by
            cases hForetells with
            | ended hState => exact hState
            | waiting limit n spent p r hResponse hDeadline hSpent
                hCalls hState hWork =>
                simp [Task.due?, hState] at hDue
          have hThis : t.inState
              (e.state t.connection t.limit) = t := by
            rw [← hEnded]
            rfl
          have hRests : t.isWaiting = false := by
            simp [Task.isWaiting, hDue]
          rw [hRests, hThis]
          exact ⟨hTasks, hJobs, rfl, rfl, fun _ _ _ => rfl⟩
      | some time =>
          have hWaits : t.isWaiting = true := by
            simp [Task.isWaiting, hDue]
          have hNext : w.nextDue? = some time := by
            simp [nextDue?, hTasks, hDue]
          rw [hWaits, hNext]
          simp only [if_true]
          refine ((arrive_alone w hTasks hJobs hForetells hDue).and
            (arrive_steps w time)).bind ?_
          intro _ w₁ hArrived
          rcases hArrived with
            ⟨⟨state, hTasks₁, hJobs₁, hForetells₁, hSpares⟩,
              hLess, -⟩
          have hFewer := hLess hNext
          refine (ih (t.inState state) w₁ hTasks₁ hJobs₁
            hForetells₁ (by omega)).mono ?_
          intro _ w' hLast
          rcases hLast with ⟨hTasks', hJobs', hSpares'⟩
          exact ⟨hTasks', hJobs', hSpares.trans hSpares'⟩

theorem await_alone
    {t : Task}
    {e : WorkEnd}
    (w : World)
    (hTasks : w.tasks = [t])
    (hJobs : w.jobs = [])
    (hForetells : t.Foretells w e) :
    Effect.Ends (await t.id) w fun state w' =>
      state = e.state t.connection t.limit ∧ w'.IsQuiet ∧
      Spares t.connection.repository w w' := by
  unfold await
  rw [Effect.ends_bind, Effect.ends_get]
  refine (passUntilEnd_alone (w.arrivals + 1) t w hTasks hJobs
    hForetells (Nat.lt_succ_self _)).bind ?_
  intro _ w₁ hEnded
  rcases hEnded with ⟨hTasks₁, hJobs₁, hSpares⟩
  have hFound : w₁.task? t.id =
      some (t.inState (e.state t.connection t.limit)) := by
    simp [task?, hTasks₁, Task.inState]
  rw [Effect.ends_bind, Effect.ends_get, hFound]
  refine ⟨rfl, ⟨?_, hJobs₁⟩, hSpares.jobs, hSpares.backend,
    hSpares.calls⟩
  show w₁.tasks.filter (·.id != t.id) = []
  simp [hTasks₁, Task.inState]

/- A bound command begins to run, and nothing else goes on. -/
theorem spawn_alone
    (c : Connection)
    (limit : Nat)
    (b : BoundCommand)
    (w : World)
    (hQuiet : w.IsQuiet) :
    Effect.Ends (spawn c limit b) w fun id w' =>
      ∃ t : Task, w'.tasks = [t] ∧ w'.jobs = [] ∧ t.id = id ∧
        t.connection = c ∧ t.limit = limit ∧
        Spares c.repository w w' ∧
        t.Foretells w' ((w.backend c.repository).work
          (limit * 1000) (w.calls c.repository .fetch) 0
          (.start b)) := by
  unfold spawn
  rw [Effect.ends_bind, Effect.ends_get]
  simp only
  rw [Effect.ends_bind, Effect.ends_set]
  let t : Task := ⟨w.started, c, limit, w.clock + limit * 1000,
    .died⟩
  let w₀ : World := { w with started := w.started + 1 }
  refine (send_alone t (.start b) (limit * 1000) 0 w₀ rfl
    (Nat.zero_le _)).bind ?_
  intro state w₁ hSent
  rcases hSent with ⟨hSends, hForetells⟩
  have hTasks : w₁.tasks = [] := hSends.tasks.trans hQuiet.tasks
  refine ⟨t.inState state, ?_, hSends.jobs.trans hQuiet.jobs, rfl,
    rfl, rfl, ?_, hForetells.withTasks _⟩
  · show w₁.tasks ++ [t.inState state] = [t.inState state]
    rw [hTasks]
    rfl
  · exact ⟨hSends.jobs, hSends.backend, hSends.calls⟩

/-
  A bound command that runs while nothing else goes on comes
  to what its engine makes of it, and no other engine is asked
  for anything.
-/
theorem work_alone
    {c : Connection}
    {limit : Nat}
    {b : BoundCommand}
    {id : Nat}
    {w₁ : World}
    (w : World)
    (hQuiet : w.IsQuiet)
    (hBegun : Effect.Leads (spawn c limit b) w id w₁) :
    Effect.Ends (await id) w₁ fun state w' =>
      state = ((w.backend c.repository).work (limit * 1000)
        (w.calls c.repository .fetch) 0 (.start b)).state c
          limit ∧
      Stays (callsFor c.repository .fetch) w w' := by
  have hSpawned := (hBegun.ends_iff _).mp
    (spawn_alone c limit b w hQuiet)
  rcases hSpawned with
    ⟨t, hTasks, hJobs, rfl, rfl, rfl, hSpares, hForetells⟩
  refine (await_alone w₁ hTasks hJobs hForetells).mono ?_
  intro state w' hEnded
  rcases hEnded with ⟨hState, hQuiet', hSpares'⟩
  have hBoth := hSpares.trans hSpares'
  exact ⟨hState, hQuiet', hBoth.backend, hBoth.calls⟩

end World

end Failover
