import Failover.Proofs.Connection.Once

/-
  Requests with the background between them: after each of
  them any task may go on and any job may be done, whenever it
  can.  However they are interleaved, each connection is
  counted and goes back once.

  Key definitions include:
    * `World.taskAt`, `World.jobAt`
    * `Workspace.Move`
    * `Workspace.play`, `Workspace.plays`

  Main statements:
    * `Workspace.plays_follows`
    * `Workspace.run_eq_plays`
    * `Workspace.plays_balance`
-/

namespace Failover

------------------------------------------------------------
-- The background, one thing at a time
------------------------------------------------------------

namespace World

/- The task at a place goes on, if it can. -/
def taskAt (i : Nat) : Effect Unit := do
  let now ← get
  match now.tasks.drop i with
  | [] => return ()
  | t :: b =>
      let t ← goOn t
      modify fun w => { w with
        tasks := now.tasks.take i ++ t :: b }

/- The job at a place is done, if it can be. -/
def jobAt (i : Nat) : Effect Unit := do
  let now ← get
  match now.jobs.drop i with
  | [] => return ()
  | j :: b =>
      let isDone ← runJob j
      modify fun w => { w with
        jobs := now.jobs.take i ++ restOf isDone j b }

/- Time passes, and nobody takes what has arrived. -/
def later (millis : Nat) : Effect Unit :=
  modify fun w => { w with clock := w.clock + millis }

theorem taskAt_steps
    (i : Nat)
    (w : World) :
    Effect.Ends (taskAt i) w fun _ w' =>
      w.ledger.Steps w'.ledger := by
  unfold taskAt
  rw [Effect.ends_bind, Effect.ends_get]
  rcases hDrop : w.tasks.drop i with _ | ⟨t, b⟩
  · exact .refl
  · have hTasks : w.tasks = w.tasks.take i ++ t :: b := by
      rw [← hDrop, List.take_append_drop]
    refine (goOn_steps w t (w.tasks.take i) b).bind ?_
    rintro t' w₁ ⟨-, -, -, -, hSteps⟩
    rw [← hTasks] at hSteps
    exact hSteps

theorem jobAt_steps
    (i : Nat)
    (w : World) :
    Effect.Ends (jobAt i) w fun _ w' =>
      w.ledger.Steps w'.ledger := by
  unfold jobAt
  rw [Effect.ends_bind, Effect.ends_get]
  rcases hDrop : w.jobs.drop i with _ | ⟨j, b⟩
  · exact .refl
  · have hJobs : w.jobs = w.jobs.take i ++ j :: b := by
      rw [← hDrop, List.take_append_drop]
    refine (runJob_steps w j (w.jobs.take i) b).bind ?_
    rintro isDone w₁ ⟨-, -, -, hSteps⟩
    rw [← hJobs] at hSteps
    exact hSteps

/- Some connections are active that nobody here has opened. -/
def countedFrom
    (backend : String → Backend)
    (n : Nat) : World :=
  { initial backend with active := n }

end World

------------------------------------------------------------
-- Moves
------------------------------------------------------------

namespace Workspace

/-
  A request is answered, a task or a job of the background has
  its turn, or all jobs have, or time passes.
-/
inductive Move where
  | request (q : Request)
  | task (i : Nat)
  | job (i : Nat)
  | background
  | later (millis : Nat)

def play : Move → Act Unit
  | .request q => discard (answer q)
  | .task i => World.taskAt i
  | .job i => World.jobAt i
  | .background => World.runJobs
  | .later millis => World.later millis

def plays (ms : List Move) : Act Unit :=
  ms.forM play

/- The background has its turn after each of the requests. -/
theorem run_eq_plays (qs : List Request) :
    discard (run qs) =
      plays (qs.flatMap fun q => [.request q, .background]) := by
  induction qs with
  | nil => rfl
  | cons q qs ih =>
      have hRun : discard (run (q :: qs)) =
          perform q >>= fun _ => discard (run qs) := by
        rw [run, List.mapM_cons]
        rfl
      rw [hRun, ih]
      rfl

variable {ws : Workspace} {w : World}

theorem play_follows
    (hTidy : ws.Tidy)
    (m : Move) :
    Act.Ends (play m) ws w fun _ ws' w' =>
      Follows (fun _ => True) [] [] ws w [] [] ws' w' := by
  have hAround {e : Effect Unit}
      (hSteps : Effect.Ends e w fun _ w' =>
        w.ledger.Steps w'.ledger) :
      Act.Ends (liftM e) ws w fun _ ws' w' =>
        Follows (fun _ => True) [] [] ws w [] [] ws' w' := by
    rw [Act.ends_lift]
    exact hSteps.mono fun _ w' h => .inHand hTidy (.around h)
  cases m with
  | request q =>
      rw [play, Act.ends_discard]
      refine (answer_follows hTidy q).mono ?_
      exact fun _ ws' w' h => h.mono fun _ _ => trivial
  | task i => exact hAround (World.taskAt_steps i w)
  | job i => exact hAround (World.jobAt_steps i w)
  | background =>
      exact hAround ((World.runJobs_steps w).mono fun _ _ h => h.2.2)
  | later millis => exact hAround .refl

/- The induction is on the moves that are left. -/
theorem plays_follows
    (ms : List Move)
    (ws : Workspace)
    (w : World)
    (hTidy : ws.Tidy) :
    Act.Ends (plays ms) ws w fun _ ws' w' =>
      Follows (fun _ => True) [] [] ws w [] [] ws' w' := by
  induction ms generalizing ws w with
  | nil => exact .refl hTidy
  | cons m ms ih =>
      refine (play_follows hTidy m).bind ?_
      intro _ ws₁ w₁ hFirst
      refine (ih ws₁ w₁ hFirst.tidy).mono ?_
      exact fun _ ws' w' hRest => hFirst.trans hRest

end Workspace

------------------------------------------------------------
-- Balance
------------------------------------------------------------

namespace Scene

variable {cut : Connection → Prop}

/- How many connections are active makes no difference. -/
theorem Sound.countedFrom
    (backend : String → Backend)
    (n : Nat) :
    Sound ⟨[], [], (World.countedFrom backend n).ledger⟩ := by
  rcases Sound.initial backend with
    ⟨hNumbered, hClaimed, hPaired, hAnswered⟩
  refine ⟨?_, hClaimed, ?_, ?_⟩
  · exact ⟨hNumbered.1, hNumbered.2, hNumbered.3, hNumbered.4⟩
  · exact ⟨hPaired.1, hPaired.2, hPaired.3⟩
  · exact ⟨hAnswered.1, hAnswered.2⟩

/- The count is exact before anything is opened. -/
theorem Booked.initial
    (backend : String → Backend)
    (n : Nat) :
    Booked n ⟨[], [], (World.countedFrom backend n).ledger⟩ where
  sound := .countedFrom backend n
  returns := nofun
  counted := ⟨rfl, List.nodup_nil, nofun⟩
  opened := nofun

theorem Traced.initial
    (backend : String → Backend)
    (n : Nat) :
    Traced cut ⟨[], [], (World.countedFrom backend n).ledger⟩ where
  clean := Custody.Clean.initial
  once := Custody.Once.initial
  fate := fun _ _ hMem => absurd hMem List.not_mem_nil

end Scene

namespace Workspace

/-
  In whatever order requests are answered and the background
  goes on, and if then all is dropped where nothing goes on:
  connections are counted one by one as they are opened and
  released, the count is exact, and it comes back to where it
  was when all that is held was given up.
-/
theorem plays_balance
    (d : DataAccess)
    (backend : String → Backend)
    (n : Nat)
    (ms : List Move) :
    Act.Ends (plays ms) (ofAccess d) (World.countedFrom backend n)
      fun _ ws w =>
        Scene.Turnovers (fun _ => False)
          ⟨[], [], (World.countedFrom backend n).ledger⟩
          (ws.scene w [] []) ∧
        Scene.Balanced n (fun _ => False) (ws.scene w [] []) ∧
        Effect.Ends ws.abandon w fun _ w' =>
          Scene.Turnovers (ws.AtWork w) (ws.scene w [] [])
            ⟨[], [], w'.ledger⟩ ∧
          Scene.Balanced n (ws.AtWork w) ⟨[], [], w'.ledger⟩ := by
  refine (plays_follows ms (ofAccess d) _
    (tidy_ofAccess d)).mono ?_
  intro _ ws w hFollows
  have hInitial := Scene.Booked.initial backend n
  have hPartings : Scene.Partings (fun _ => False) _
      (ws.scene w [] []) := hFollows.steps.partings
  rcases hInitial.partings hPartings with ⟨hTurnovers, hBooked⟩
  have hTraced : Scene.Traced _ (ws.scene w [] []) :=
    (Scene.Traced.initial backend n).partings hInitial.sound
      hPartings
  have hProper : (ws.scene w [] []).Proper :=
    (Scene.Proper.initial _).steps hInitial.sound hFollows.steps
  refine ⟨hTurnovers, hBooked.balanced hTraced hProper, ?_⟩
  refine (abandon_partings ws w).mono ?_
  intro _ w' hLeft
  rcases hBooked.partings hLeft with ⟨hLast, hBooked'⟩
  have hMore : Scene.Traced (ws.AtWork w) (ws.scene w [] []) :=
    hTraced.mono fun _ => False.elim
  have hTraced' := hMore.partings hBooked.sound hLeft
  exact ⟨hLast, hBooked'.balanced hTraced' (.initial _)⟩

end Workspace

end Failover
