import Failover.Proofs.Effect.Ends
import Failover.Proofs.Scene.Step

/-
  What the world does by itself, as steps of its ledger: the
  tasks go on while somebody waits, and the jobs are done.

  Main statements:
    * `World.callOn_ends`, `World.fetch_ends`
    * `World.send_steps`, `World.spawn_ends`
    * `World.runJobs_steps`
    * `World.arrive_steps`
    * `World.pass_steps`
    * `World.await_ends`
-/

namespace Failover

namespace World

------------------------------------------------------------
-- Calls
------------------------------------------------------------

/-
  Calls that send no statement leave the number of statements
  as it is.
-/
theorem calls_fetch
    (calls : String → Call → Nat)
    (repository : String)
    (call : Call)
    (n : Nat)
    (hCall : call ≠ .fetch) :
    (fun r => update calls repository
        (update (calls repository) call n) r .fetch) =
      fun r => calls r .fetch := by
  funext r
  by_cases h : r = repository
  · simp [update, h, hCall.symm]
  · simp [update, h]

theorem refused?_ends
    (w : World)
    (repository : String)
    (call : Call)
    (hCall : call ≠ .fetch) :
    Effect.Ends (refused? repository call) w fun _ w' =>
      w'.ledger = w.ledger ∧ w'.clock = w.clock := by
  simp [refused?, nextCall, ledger, calls_fetch, hCall]

/- A call that is no statement is noted, and may fail. -/
theorem callOn_ends
    (w : World)
    (c : Connection)
    (call : Call)
    (hCall : call ≠ .fetch) :
    Effect.Ends (callOn c call) w fun r w' =>
      w'.clock = w.clock ∧
        ((r = .ok () ∧
          w'.ledger = w.ledger.add [.called call c true]) ∨
        (∃ f, r = .error f ∧
          w'.ledger = w.ledger.add [.called call c false])) := by
  unfold callOn
  refine (refused?_ends w c.repository call hCall).bind ?_
  rintro refusal w' ⟨hLedger, hClock⟩
  refine ⟨hClock, ?_⟩
  rw [← hLedger]
  cases refusal with
  | none => exact .inl ⟨rfl, rfl⟩
  | some f => exact .inr ⟨f, rfl, rfl⟩

/-
  A call of the engine takes no time and is noted, whether it
  fails or not.
-/
theorem callOn_noted
    (w : World)
    (c : Connection)
    (call : Call)
    (hCall : call ≠ .fetch) :
    Effect.Ends (callOn c call) w fun _ w' =>
      w'.clock = w.clock ∧
        ∃ ok, w'.ledger =
          w.ledger.add [.called call c ok] := by
  refine (callOn_ends w c call hCall).mono ?_
  rintro r w' ⟨hClock, ⟨_, hLedger⟩ | ⟨_, _, hLedger⟩⟩
  · exact ⟨hClock, true, hLedger⟩
  · exact ⟨hClock, false, hLedger⟩

theorem fetch_ends
    (w : World)
    (c : Connection)
    (s : Statement) :
    Effect.Ends (fetch c s) w fun r w' =>
      w'.ledger = w.ledger.ask c s ∧
        r.reply = w.ledger.reply? c s ∧
        w'.clock = w.clock := by
  refine ⟨?_, rfl, rfl⟩
  have hAsked :
      (fun r => update w.calls c.repository
          (update (w.calls c.repository) .fetch
            (w.calls c.repository .fetch + 1)) r .fetch) =
        update (fun r => w.calls r .fetch) c.repository
          (w.calls c.repository .fetch + 1) := by
    funext r
    by_cases h : r = c.repository <;> simp [update, h]
  simp only [Ledger.ask, ledger] at hAsked ⊢
  rw [← hAsked]
  rfl

------------------------------------------------------------
-- Tasks
------------------------------------------------------------

theorem timeOut_steps
    (w : World)
    (t : Task)
    (a b : List Task)
    (time : Nat)
    (p : Progress)
    (reply : Option Reply) :
    Effect.Ends (timeOut t) w fun state w' =>
      w'.tasks = w.tasks ∧ w'.clock = w.clock ∧
        (t.inState state).steps = 0 ∧
        Ledger.Step
          (w.ledger.withTasks
            (a ++ t.inState (.waiting time p reply) :: b))
          (w'.ledger.withTasks (a ++ t.inState state :: b)) := by
  refine ⟨rfl, rfl, rfl, ?_⟩
  let t' := t.inState (.waiting time p reply)
  exact .timedOut (t := t') rfl rfl

/-
  The induction is on the number of statements left.  Sending
  a statement ends in a task that waits for its reply, and a
  reply that came at once is taken in further steps.
-/
theorem send_steps
    (w : World)
    (t : Task)
    (p : Progress)
    (a b : List Task) :
    Effect.Ends (send t p) w fun state w' =>
      w'.tasks = w.tasks ∧ w'.clock = w.clock ∧
        (t.inState state).steps ≤ p.size + 1 ∧
        ∃ time,
          Ledger.Steps
            ((w.ledger.ask t.connection p.statement).withTasks
              (a ++
                t.inState (.waiting time p
                  (w.ledger.reply? t.connection
                    p.statement)) :: b))
            (w'.ledger.withTasks
              (a ++ t.inState state :: b)) := by
  induction hSize : p.size using Nat.strongRecOn
    generalizing p w with
  | _ n ih =>
  subst hSize
  unfold send
  refine (fetch_ends w t.connection p.statement).bind ?_
  rintro ⟨delay, reply⟩ w₁ ⟨hLedger, hReply, hClock⟩
  have hTasks : w₁.tasks = w.tasks :=
    congrArg Ledger.tasks hLedger
  simp only at hReply
  rw [← hReply, ← hLedger]
  by_cases hDelay : delay = 0
  · simp only [hDelay, ↓reduceIte]
    cases reply with
    | none =>
        refine ⟨hTasks, hClock, Nat.zero_le _, 0, ?_⟩
        let t' := t.inState (.waiting 0 p none)
        exact .single (.died (t := t') rfl rfl)
    | some reply =>
        let t' := t.inState (.waiting 0 p (some reply))
        simp only
        split
        · next result hNext =>
            refine ⟨hTasks, hClock, Nat.zero_le _, 0, ?_⟩
            exact .single (.concluded (t := t') rfl rfl hNext)
        · next q hNext =>
            have hLess := Progress.size_receive hNext
            refine (ih q.size hLess w₁ q rfl).mono ?_
            rintro state w' ⟨hT, hC, hSteps, time, hGoes⟩
            refine ⟨hT.trans hTasks, hC.trans hClock,
              by omega, 0, ?_⟩
            exact .head (.continued (t := t') time rfl rfl hNext)
              hGoes
  · simp only [hDelay, ↓reduceIte]
    rw [Effect.ends_bind, Effect.ends_get]
    split
    · refine (timeOut_steps w₁ t a b 0 p reply).mono ?_
      rintro state w' ⟨hT, hC, hSteps, hGoes⟩
      refine ⟨hT.trans hTasks, hC.trans hClock, by omega, 0, ?_⟩
      exact .single hGoes
    · exact ⟨hTasks, hClock, Nat.le_refl _, w₁.clock + delay,
        .refl⟩

theorem take_steps
    (w : World)
    (t : Task)
    (time : Nat)
    (p : Progress)
    (reply : Option Reply)
    (a b : List Task) :
    Effect.Ends (take t p reply) w fun state w' =>
      w'.tasks = w.tasks ∧ w'.clock = w.clock ∧
        (t.inState state).steps < p.size + 1 ∧
        Ledger.Steps
          (w.ledger.withTasks
            (a ++ t.inState (.waiting time p reply) :: b))
          (w'.ledger.withTasks (a ++ t.inState state :: b)) := by
  let t' := t.inState (.waiting time p reply)
  cases reply with
  | none =>
      refine ⟨rfl, rfl, Nat.zero_lt_succ _, ?_⟩
      exact .single (.died (t := t') rfl rfl)
  | some reply =>
      unfold take
      simp only
      split
      · next result hNext =>
          refine ⟨rfl, rfl, Nat.zero_lt_succ _, ?_⟩
          exact .single (.concluded (t := t') rfl rfl hNext)
      · next q hNext =>
          have hLess := Progress.size_receive hNext
          refine (send_steps w t q a b).mono ?_
          rintro state w' ⟨hT, hC, hSteps, later, hGoes⟩
          refine ⟨hT, hC, by omega, ?_⟩
          exact .head (.continued (t := t') later rfl rfl hNext)
            hGoes

/- A task whose time has come has fewer steps left. -/
theorem goOn_steps
    (w : World)
    (t : Task)
    (a b : List Task) :
    Effect.Ends (goOn t) w fun t' w' =>
      w'.tasks = w.tasks ∧ w'.clock = w.clock ∧
        t'.steps ≤ t.steps ∧
        (∀ d, t.due? = some d → d ≤ w.clock →
          t'.steps < t.steps) ∧
        Ledger.Steps (w.ledger.withTasks (a ++ t :: b))
          (w'.ledger.withTasks (a ++ t' :: b)) := by
  unfold goOn
  cases hState : t.state with
  | waiting time p reply =>
      have hSame : t = t.inState (.waiting time p reply) := by
        rw [← hState]
        rfl
      have hSize : t.steps = p.size + 1 := by
        simp only [Task.steps, hState]
      simp only
      rw [Effect.ends_bind, Effect.ends_get]
      split
      · refine (take_steps w t time p reply a b).bind ?_
        rintro state w' ⟨hT, hC, hSteps, hGoes⟩
        rw [← hSame] at hGoes
        rw [← hSize] at hSteps
        exact ⟨hT, hC, Nat.le_of_lt hSteps, fun _ _ _ => hSteps, hGoes⟩
      · split
        · refine (timeOut_steps w t a b time p reply).bind ?_
          rintro state w' ⟨hT, hC, hSteps, hGoes⟩
          rw [← hSame] at hGoes
          have hLess : (t.inState state).steps < t.steps := by
            omega
          exact ⟨hT, hC, Nat.le_of_lt hLess, fun _ _ _ => hLess,
            .single hGoes⟩
        · next hEarly hTime =>
            refine ⟨rfl, rfl, Nat.le_refl _, ?_, .refl⟩
            intro d hDue hLe
            simp only [Task.due?, hState, Option.some.injEq]
              at hDue
            omega
  | finished c r =>
      refine ⟨rfl, rfl, Nat.le_refl _, ?_, .refl⟩
      intro d hDue
      simp [Task.due?, hState] at hDue
  | stopped f =>
      refine ⟨rfl, rfl, Nat.le_refl _, ?_, .refl⟩
      intro d hDue
      simp [Task.due?, hState] at hDue
  | died =>
      refine ⟨rfl, rfl, Nat.le_refl _, ?_, .refl⟩
      intro d hDue
      simp [Task.due?, hState] at hDue

/- Fewer tasks have no more steps left. -/
theorem stepsOf_sublist
    {tasks' tasks : List Task}
    (h : tasks'.Sublist tasks) :
    Task.stepsOf tasks' ≤ Task.stepsOf tasks := by
  induction h with
  | slnil => exact Nat.le_refl _
  | cons t _ ih => exact Nat.le_trans ih (Nat.le_add_left _ _)
  | cons_cons t _ ih => exact Nat.add_le_add_left ih _

/- The induction is on the tasks, with those that went on. -/
theorem mapM_goOn_steps
    (tasks : List Task)
    (w : World)
    (a : List Task) :
    Effect.Ends (tasks.mapM goOn) w fun tasks' w' =>
      w'.tasks = w.tasks ∧ w'.clock = w.clock ∧
        Task.stepsOf tasks' ≤ Task.stepsOf tasks ∧
        (∀ t ∈ tasks, ∀ d, t.due? = some d → d ≤ w.clock →
          Task.stepsOf tasks' < Task.stepsOf tasks) ∧
        Ledger.Steps (w.ledger.withTasks (a ++ tasks))
          (w'.ledger.withTasks (a ++ tasks')) := by
  induction tasks generalizing w a with
  | nil => exact ⟨rfl, rfl, Nat.le_refl _, by simp, .refl⟩
  | cons t tasks ih =>
      rw [List.mapM_cons]
      refine (goOn_steps w t a tasks).bind ?_
      rintro t' w₁ ⟨hT₁, hC₁, hLe₁, hLess₁, hGoes₁⟩
      refine (ih w₁ (a ++ [t'])).bind ?_
      rintro tasks' w' ⟨hT, hC, hLe, hLess, hGoes⟩
      simp only [Effect.ends_pure, Task.stepsOf]
      refine ⟨hT.trans hT₁, hC.trans hC₁, by omega, ?_, ?_⟩
      · intro u hMem d hDue hTime
        rcases List.mem_cons.mp hMem with rfl | hMem
        · have := hLess₁ d hDue hTime
          omega
        · have := hLess u hMem d hDue (hC₁ ▸ hTime)
          omega
      · refine hGoes₁.trans ?_
        simpa using hGoes

/- A new task has sent its first statement, at the least. -/
theorem spawn_ends
    (c : Connection)
    (limit : Nat)
    (b : BoundCommand)
    (w : World) :
    Effect.Ends (spawn c limit b) w fun id w' =>
      id = w.started ∧
        ∃ deadline time,
          Ledger.Steps
            ((w.ledger.ask c (Progress.start b).statement).start
              ⟨w.started, c, limit, deadline,
                .waiting time (.start b)
                  (w.ledger.reply? c
                    (Progress.start b).statement)⟩)
            w'.ledger := by
  unfold spawn
  rw [Effect.ends_bind, Effect.ends_get]
  simp only
  rw [Effect.ends_bind, Effect.ends_set]
  let t : Task := ⟨w.started, c, limit, w.clock + limit * 1000,
    .died⟩
  refine (send_steps _ t (.start b) w.tasks []).bind ?_
  rintro state w₁ ⟨hTasks, -, -, time, hGoes⟩
  refine ⟨rfl, t.deadline, time, hGoes.trans ?_⟩
  rw [← hTasks]
  exact .refl

------------------------------------------------------------
-- Jobs
------------------------------------------------------------

theorem releaseDetached_ends
    (w : World)
    (c : Connection)
    (inTransaction : Bool) :
    Effect.Ends (releaseDetached c inTransaction) w fun _ w' =>
      w'.clock = w.clock ∧
        ∃ es, Released c inTransaction es ∧
          w'.ledger = w.ledger.add es := by
  cases inTransaction with
  | false =>
      refine (callOn_noted w c .close nofun).discard ?_
      rintro _ w' ⟨hClock, ok, hLedger⟩
      exact ⟨hClock, _, .plain ok, hLedger⟩
  | true =>
      refine (callOn_ends w c .commit nofun).bind ?_
      rintro r w₁ ⟨hClock₁, ⟨rfl, hCommit⟩ | ⟨f, rfl, hCommit⟩⟩
      · refine (callOn_noted w₁ c .close nofun).discard ?_
        rintro _ w' ⟨hClock, ok, hLedger⟩
        refine ⟨hClock.trans hClock₁, _, .committed ok, ?_⟩
        refine hLedger.trans ?_
        simp [hCommit, Ledger.add]
      · refine ⟨hClock₁, _, .failed, ?_⟩
        change w₁.ledger.add [.discarded c] = _
        simp [hCommit, Ledger.add]

/- What is left of a job and those behind it. -/
def restOf
    (isDone : Bool)
    (j : Job)
    (js : List Job) : List Job :=
  if isDone then js else j :: js

theorem runJob_steps
    (w : World)
    (j : Job)
    (a b : List Job) :
    Effect.Ends (runJob j) w fun isDone w' =>
      w'.jobs = w.jobs ∧ w'.tasks.Sublist w.tasks ∧
        w'.clock = w.clock ∧
        Ledger.Steps (w.ledger.withJobs (a ++ j :: b))
          (w'.ledger.withJobs (a ++ restOf isDone j b)) := by
  cases j with
  | commit c =>
      refine (releaseDetached_ends w c true).bind ?_
      rintro _ w₁ ⟨hClock, es, hEvents, hLedger⟩
      have hTasks : w₁.tasks = w.tasks :=
        congrArg Ledger.tasks hLedger
      refine ⟨congrArg Ledger.jobs hLedger, ?_, hClock, ?_⟩
      · change w₁.tasks.Sublist w.tasks
        rw [hTasks]
      · change Ledger.Steps _ (w₁.ledger.close.withJobs (a ++ b))
        rw [hLedger]
        exact .single (.committed rfl hEvents)
  | afterTask id inTransaction =>
      unfold runJob
      rw [Effect.ends_bind, Effect.ends_get]
      cases hTask : w.task? id with
      | none =>
          refine ⟨rfl, .refl _, rfl, ?_⟩
          exact .single (.void rfl hTask)
      | some t =>
          simp only
          split
          · exact ⟨rfl, .refl _, rfl, .refl⟩
          next hWaiting =>
          have hLess : (w.tasks.filter (·.id != id)).Sublist
              w.tasks := List.filter_sublist
          cases hState : t.state with
          | waiting time p reply =>
              simp [Task.isWaiting, Task.due?, hState] at hWaiting
          | died =>
              refine ⟨rfl, hLess, rfl, ?_⟩
              exact .single (.forgotten rfl hTask (.inr hState))
          | stopped f =>
              refine ⟨rfl, hLess, rfl, ?_⟩
              exact .single
                (.forgotten rfl hTask (.inl ⟨f, hState⟩))
          | finished c r =>
              rw [Effect.ends_bind]
              unfold removeTask
              rw [Effect.ends_modify]
              refine (releaseDetached_ends _ c _).bind ?_
              rintro _ w' ⟨hClock, es, hEvents, hLedger⟩
              refine ⟨congrArg Ledger.jobs hLedger, ?_,
                hClock, ?_⟩
              · change w'.ledger.tasks.Sublist w.tasks
                rw [hLedger]
                exact hLess
              · change Ledger.Steps _
                  (w'.ledger.close.withJobs (a ++ b))
                rw [hLedger]
                exact .single
                  (.released rfl hTask hState hEvents)

/- The induction is on the jobs, behind those that remain. -/
theorem runEach_steps
    (js : List Job)
    (w : World)
    (a : List Job) :
    Effect.Ends (runEach js) w fun rest w' =>
      w'.jobs = w.jobs ∧ w'.tasks.Sublist w.tasks ∧
        w'.clock = w.clock ∧
        Ledger.Steps (w.ledger.withJobs (a ++ js))
          (w'.ledger.withJobs (a ++ rest)) := by
  induction js generalizing w a with
  | nil => exact ⟨rfl, .refl _, rfl, .refl⟩
  | cons j js ih =>
      unfold runEach
      refine (runJob_steps w j a js).bind ?_
      rintro isDone w₁ ⟨hJobs₁, hTasks₁, hClock₁, hGoes₁⟩
      cases isDone with
      | true =>
          refine (ih w₁ a).bind ?_
          rintro rest w' ⟨hJobs, hTasks, hClock, hGoes⟩
          exact ⟨hJobs.trans hJobs₁, hTasks.trans hTasks₁,
            hClock.trans hClock₁, hGoes₁.trans hGoes⟩
      | false =>
          refine (ih w₁ (a ++ [j])).bind ?_
          rintro rest w' ⟨hJobs, hTasks, hClock, hGoes⟩
          simp only [List.append_assoc, List.singleton_append]
            at hGoes
          exact ⟨hJobs.trans hJobs₁, hTasks.trans hTasks₁,
            hClock.trans hClock₁, hGoes₁.trans hGoes⟩

theorem runJobs_steps (w : World) :
    Effect.Ends runJobs w fun _ w' =>
      w'.tasks.Sublist w.tasks ∧ w'.clock = w.clock ∧
        w.ledger.Steps w'.ledger := by
  unfold runJobs
  rw [Effect.ends_bind, Effect.ends_get]
  refine (runEach_steps w.jobs w []).bind ?_
  rintro rest w' ⟨_, hTasks, hClock, hGoes⟩
  exact ⟨hTasks, hClock, hGoes⟩

------------------------------------------------------------
-- Time
------------------------------------------------------------

/-
  An arrival at a time at which a task is due leaves fewer
  arrivals.
-/
theorem arrive_steps
    (w : World)
    (time : Nat) :
    Effect.Ends (arrive time) w fun _ w' =>
      (w.nextDue? = some time → w'.arrivals < w.arrivals) ∧
        w.ledger.Steps w'.ledger := by
  unfold arrive
  rw [Effect.ends_bind, Effect.ends_modify, Effect.ends_bind,
    Effect.ends_get]
  let w₀ : World := { w with clock := max w.clock time }
  refine (mapM_goOn_steps w₀.tasks w₀ []).bind ?_
  rintro tasks' w₁ ⟨_, _, _, hLess, hGoes₁⟩
  rw [Effect.ends_bind, Effect.ends_modify]
  refine (runJobs_steps _).mono ?_
  rintro _ w' ⟨hTasks, _, hGoes⟩
  refine ⟨fun hDue => ?_, hGoes₁.trans hGoes⟩
  have hMem := List.min?_mem hDue
  rcases List.mem_filterMap.mp hMem with ⟨t, hTask, hTime⟩
  have hClock : time ≤ w₀.clock := Nat.le_max_right _ _
  have hSome : Task.stepsOf tasks' < w.arrivals :=
    hLess t hTask time hTime hClock
  have hRest : w'.arrivals ≤ Task.stepsOf tasks' :=
    stepsOf_sublist hTasks
  omega

theorem passFor_steps
    (finish fuel : Nat)
    (w : World) :
    Effect.Ends (passFor finish fuel) w fun _ w' =>
      w.ledger.Steps w'.ledger := by
  induction fuel generalizing w with
  | zero => exact .refl
  | succ fuel ih =>
      unfold passFor
      rw [Effect.ends_bind, Effect.ends_get]
      cases hDue : w.nextDue? with
      | none => exact .refl
      | some time =>
          simp only
          split
          · refine (arrive_steps w time).bind ?_
            rintro _ w₁ ⟨_, hGoes₁⟩
            refine (ih w₁).mono ?_
            intro _ w' hGoes
            exact hGoes₁.trans hGoes
          · exact .refl

theorem pass_steps
    (millis : Nat)
    (w : World) :
    Effect.Ends (pass millis) w fun _ w' =>
      w.ledger.Steps w'.ledger :=
  passFor_steps (w.clock + millis) (w.arrivals + 1) w

/-
  A task that somebody waits for is due at some time, and so
  the bound on the arrivals is never used up before its end.
-/
theorem passUntilEnd_steps
    (id fuel : Nat)
    (w : World)
    (hFuel : w.arrivals < fuel) :
    Effect.Ends (passUntilEnd id fuel) w fun _ w' =>
      w.ledger.Steps w'.ledger ∧
        ∀ t, w'.task? id = some t → t.isWaiting = false := by
  induction fuel generalizing w with
  | zero => omega
  | succ fuel ih =>
      unfold passUntilEnd
      rw [Effect.ends_bind, Effect.ends_get]
      cases hTask : w.task? id with
      | none =>
          refine ⟨.refl, fun t h => ?_⟩
          exact absurd (hTask.symm.trans h) nofun
      | some t =>
          simp only
          cases hWaiting : t.isWaiting with
          | false =>
              refine ⟨.refl, fun u h => ?_⟩
              cases hTask.symm.trans h
              exact hWaiting
          | true =>
              have hDue : w.nextDue?.isSome = true := by
                rw [Task.isWaiting, Option.isSome_iff_exists]
                  at hWaiting
                rcases hWaiting with ⟨d, hD⟩
                rw [nextDue?, List.isSome_min?_iff]
                have hMem := List.mem_of_find?_eq_some hTask
                exact List.ne_nil_of_mem
                  (List.mem_filterMap.mpr ⟨t, hMem, hD⟩)
              rcases Option.isSome_iff_exists.mp hDue with
                ⟨time, hTime⟩
              simp only [hTime, ↓reduceIte]
              refine (arrive_steps w time).bind ?_
              rintro _ w₁ ⟨hLess, hGoes₁⟩
              have hLess := hLess hTime
              refine (ih w₁ (by omega)).mono ?_
              rintro _ w' ⟨hGoes, hEnd⟩
              exact ⟨hGoes₁.trans hGoes, hEnd⟩

/-
  Waiting for a task ends with the state of the task, which is
  forgotten.
-/
theorem await_ends
    (id : Nat)
    (w : World) :
    Effect.Ends (await id) w fun state w' =>
      ∃ l, w.ledger.Steps l ∧ w'.ledger = l.forget id ∧
        state = ((l.task? id).map (·.state)).getD .died ∧
        ∀ t, l.task? id = some t → t.isWaiting = false := by
  unfold await
  rw [Effect.ends_bind, Effect.ends_get]
  refine (passUntilEnd_steps id (w.arrivals + 1) w
    (Nat.lt_succ_self _)).bind ?_
  rintro _ w₁ ⟨hGoes, hEnd⟩
  exact ⟨w₁.ledger, hGoes, rfl, rfl, hEnd⟩

end World

end Failover
