import Failover.Proofs.Access.Reporting
import Failover.Proofs.Transaction.Window
import Mathlib.Data.List.Flatten

/-
  Whatever is requested, each failure that is counted for a
  repository is reported, by the end of the request in which
  it is counted.  The one that is not is that of a row which
  cannot be mapped: it is counted, and nobody reports it.

  Key definitions include:
    * `Workspace.uncounted`
    * `Workspace.Request.lapse?`
    * `Workspace.Moment.Accompanied`

  Main statements:
    * `Workspace.perform_accounts`
    * `Workspace.perform_lapses`
    * `Workspace.failures_reported_but_lapses`
-/

namespace Failover

namespace Workspace

open World (Silent)
open Effect (Yields)

------------------------------------------------------------
-- Readers that are in use
------------------------------------------------------------

/- Failures that readers have reported and not yet counted. -/
def uncountedOf (xs : List (Holder × Reader)) : List Incident :=
  xs.flatMap fun x => x.2.uncounted

def uncounted (ws : Workspace) : List Incident :=
  uncountedOf ws.readers

/- Readers of two lists are those of both. -/
theorem uncountedOf_append (xs ys : List (Holder × Reader)) :
    uncountedOf (xs ++ ys) = uncountedOf xs ++ uncountedOf ys :=
  List.flatMap_append

/- A reader that is given away takes its incidents along. -/
theorem count_without
    (h : Holder)
    (xs : List (Holder × Reader))
    (x : Incident) :
    (uncountedOf (without h xs)).count x ≤
      (uncountedOf xs).count x :=
  (List.filter_sublist.flatMap _).count_le x

/- A reader is taken from under its name. -/
theorem count_taken
    {ws : Workspace}
    {h : Holder}
    {r : Reader}
    (hReader : ws.reader? h = some r)
    (x : Incident) :
    r.uncounted.count x +
        (uncountedOf (without h ws.readers)).count x ≤
      ws.uncounted.count x := by
  rcases List.append_of_mem (mem_of_reader? hReader) with
    ⟨a, b, hReaders⟩
  have hOthers : without h ws.readers =
      without h a ++ without h b := by
    simp [without, hReaders]
  have hFirst := count_without h a x
  have hLast := count_without h b x
  have hAll : ws.uncounted =
      uncountedOf a ++ (r.uncounted ++ uncountedOf b) := by
    rw [uncounted, hReaders, uncountedOf_append]
    rfl
  rw [hOthers, hAll, uncountedOf_append]
  simp only [List.count_append]
  omega

/- A workspace reports what it counts, then or before. -/
def Candid (x y : Workspace × World) : Prop :=
  x.2.Accounts x.1.uncounted y.1.uncounted y.2

instance : IsPreorder (Workspace × World) Candid where
  refl x := .refl x.2
  trans _ _ _ := .trans

/- The world goes on, and the readers stay as they are. -/
theorem candid_of_world
    {ws : Workspace}
    {w w' : World}
    (h : w.Candid w') : Candid (ws, w) (ws, w') :=
  h.frame ws.uncounted

/-
  An effect of the world reports what it counts in a workspace
  too.
-/
theorem lift_candid
    {α : Type}
    {e : Effect α}
    (h : Effect.Keeps World.Candid e) :
    Act.Keeps Candid (liftM e : Act α) :=
  .lift h fun _ _ _ => candid_of_world

/-
  A change that leaves the readers as they are counts no
  failure.
-/
theorem modify_candid
    {f : Workspace → Workspace}
    (h : ∀ ws, (f ws).readers = ws.readers) :
    Act.Keeps Candid (modify f) := by
  refine .modify fun ws w => ?_
  change w.Accounts (uncountedOf ws.readers)
    (uncountedOf (f ws).readers) w
  rw [h ws]
  exact .refl w

------------------------------------------------------------
-- Names
------------------------------------------------------------

/- Taking a session out says and counts nothing. -/
theorem removeSession_candid
    (name : String) : Act.Keeps Candid (removeSession name) :=
  modify_candid fun _ => rfl

/- Taking an operation out of the scene counts no failure. -/
theorem removeOperation_candid
    (name : String) : Act.Keeps Candid (removeOperation name) :=
  modify_candid fun _ => rfl

/- A dropped session has no failures left to count. -/
theorem dropSession_candid
    (name : String) : Act.Keeps Candid (dropSession name) := by
  unfold dropSession
  refine .get_bind fun ws => ?_
  split
  · exact .pure _
  · next s _ =>
    refine (removeSession_candid name).bind fun _ => ?_
    exact lift_candid s.drop_silent.candid

/- Putting a session back says and counts nothing. -/
theorem setSession_candid
    (name : String)
    (s : Session) : Act.Keeps Candid (setSession name s) :=
  modify_candid fun _ => rfl

theorem keepSession_candid
    (name : String)
    (s : Session) : Act.Keeps Candid (keepSession name s) :=
  (dropSession_candid name).bind
    fun _ => setSession_candid name s

/- Dropping an operation reports and counts nothing. -/
theorem dropOperation_candid
    (name : String) : Act.Keeps Candid (dropOperation name) := by
  unfold dropOperation
  refine .get_bind fun ws => ?_
  split
  · exact .pure _
  · next o _ =>
    refine (removeOperation_candid name).bind fun _ => ?_
    exact lift_candid (Session.dropOperation_silent o).candid

theorem keepOperation_candid
    (name : String)
    (o : Operation) : Act.Keeps Candid (keepOperation name o) :=
  (dropOperation_candid name).bind
    fun _ => modify_candid fun _ => rfl

/- A reader is released, and counts what it has reported. -/
theorem dropReader_candid
    (h : Holder) : Act.Keeps Candid (dropReader h) := by
  intro ws w
  unfold dropReader
  rw [Act.ends_bind, Act.ends_get]
  cases hReader : ws.reader? h with
  | none => exact World.Accounts.refl w
  | some r =>
      simp only
      rw [Act.ends_bind]
      unfold removeReader
      rw [Act.ends_modify, Act.ends_bind, Act.ends_lift,
        Act.ends_run]
      let ws₁ := { ws with readers := without h ws.readers }
      refine (Reader.release_books r w).mono ?_
      rintro _ r' w₁ ⟨-, hBooks⟩
      have hReleased : Candid (ws, w) (ws₁, w₁) := by
        refine ⟨_, _, hBooks, fun x => ?_⟩
        have hTaken := count_taken hReader x
        change _ + (uncountedOf (without h ws.readers)).count x ≤ _
        simpa using hTaken
      cases h with
      | named name =>
          exact (lift_candid r'.session.drop_silent.candid ws₁
            w₁).mono fun _ _ _ => hReleased.trans
      | lender name =>
          exact (keepSession_candid name r'.session ws₁ w₁).mono
            fun _ _ _ => hReleased.trans

/- A reader is kept, with what it has to count. -/
theorem keepReader_accounts
    (h : Holder)
    (r : Reader)
    (ws : Workspace)
    (w : World) :
    Act.Ends (keepReader h r) ws w fun _ ws' w' =>
      w.Accounts (r.uncounted ++ ws.uncounted) ws'.uncounted
        w' := by
  unfold keepReader
  refine (dropReader_candid h ws w).bind ?_
  intro _ ws₁ w₁ hDropped
  unfold setReader
  rw [Act.ends_modify]
  refine (hDropped.frame r.uncounted).mono (fun x => ?_)
    fun x => ?_
  · simp only [List.count_append]
    omega
  · have hOthers := count_without h ws₁.readers x
    change (uncountedOf (without h ws₁.readers ++ [(h, r)])).count
      x ≤ ((uncountedOf ws₁.readers) ++ r.uncounted).count x
    rw [uncountedOf_append]
    simp only [List.count_append, uncountedOf,
      List.flatMap_singleton] at hOthers ⊢
    omega

theorem renameReader_candid
    (h : Holder)
    (name : String) : Act.Keeps Candid (renameReader h name) := by
  intro ws w
  unfold renameReader
  rw [Act.ends_bind, Act.ends_get]
  cases hReader : ws.reader? h with
  | none => exact World.Accounts.refl w
  | some r =>
      simp only
      rw [Act.ends_bind]
      unfold removeReader
      rw [Act.ends_modify]
      refine (keepReader_accounts (.named name) r _ w).mono ?_
      intro _ ws' w' hKept
      refine hKept.mono (fun x => ?_) fun _ => Nat.le_refl _
      rw [List.count_append]
      exact count_taken hReader x

/- A reader does something under its name. -/
theorem setReader_accounts
    {ws : Workspace}
    {w w' : World}
    {h : Holder}
    {r r' : Reader}
    (xs : List Incident)
    (hReader : ws.reader? h = some r)
    (hDone : w.Accounts (xs ++ r.uncounted) r'.uncounted w') :
    w.Accounts (xs ++ ws.uncounted)
      (uncounted { ws with
        readers := without h ws.readers ++ [(h, r')] }) w' := by
  refine (hDone.frame (uncountedOf (without h ws.readers))).mono
    (fun x => ?_) fun x => ?_
  · have hTaken := count_taken hReader x
    simp only [List.count_append]
    omega
  · change (uncountedOf (without h ws.readers ++
      [(h, r')])).count x ≤ _
    rw [uncountedOf_append]
    simp only [List.count_append, uncountedOf,
      List.flatMap_singleton]
    omega

------------------------------------------------------------
-- Sessions and readers at work
------------------------------------------------------------

/-
  A session that is kept under a name reports what it counts
  if its act does.
-/
theorem onSession_candid
    (name : String)
    {act : Session.Try Result}
    (hAct : Session.Keeps World.Candid act.run) :
    Act.Keeps Candid (onSession name act) := by
  unfold onSession
  refine .get_bind fun ws => ?_
  split
  · exact .pure _
  · next s _ =>
    refine (lift_candid (hAct.run s)).bind fun x => ?_
    exact (setSession_candid name x.2).bind fun _ => .pure _

/-
  A session's act whose result is left out reports what it
  counts, if the act does.
-/
theorem quietly_candid
    (name : String)
    {act : Session.Try Unit}
    (hAct : Session.Keeps World.Candid act.run) :
    Act.Keeps Candid (onSession name (quietly act)) :=
  onSession_candid name (hAct.tryBind fun _ => .tryPure _)

/-
  An act of a reader that is held under a name reports what it
  counts, if the act does.
-/
theorem onReader_candid
    (h : Holder)
    {act : Reader.Act Result}
    (hAct : Act.Keeps Reader.Candid act) :
    Act.Keeps Candid (onReader h act) := by
  intro ws w
  unfold onReader
  rw [Act.ends_bind, Act.ends_get]
  cases hReader : ws.reader? h with
  | none => exact World.Accounts.refl w
  | some r =>
      simp only
      rw [Act.ends_bind, Act.ends_lift, Act.ends_run]
      refine (hAct r w).mono ?_
      intro _ r' w' hDone
      exact setReader_accounts [] hReader hDone

/- A session or a reader is new, and is kept. -/
theorem keepMade_candid
    (name : String)
    {make : Effect (Except Failure Session)}
    (hMake : Effect.Keeps World.Candid make) :
    Act.Keeps Candid
      (do keepMade name (← liftM make) : Act Answer) := by
  refine (lift_candid hMake).bind fun x => ?_
  cases x with
  | error f => exact .pure _
  | ok s => exact (keepSession_candid name s).bind fun _ => .pure _

/- A session for a command is only set up. -/
theorem makeBound_candid
    (d : DataAccess)
    (repository : String)
    (command : Option Command) :
    Effect.Keeps World.Candid (makeBound d repository command) := by
  unfold makeBound
  cases d.repository repository with
  | error f => exact .pure _
  | ok r =>
      refine (Session.make_silent r 30).candid.bind fun s => ?_
      cases command with
      | none => exact .pure _
      | some c =>
          refine ((Session.setCommand_candid c).run s).bind ?_
          exact fun _ => .pure _

/- A reader that has nothing to count may be kept. -/
theorem keepReader_candid
    (h : Holder)
    {r : Reader}
    (hNone : r.uncounted = []) :
    Act.Keeps Candid (keepReader h r) := by
  intro ws w
  have hKept := keepReader_accounts h r ws w
  rw [hNone] at hKept
  exact hKept

/- A completed reader comes with a report, if with a failure. -/
theorem openReader_candid
    (s : Session)
    (o : Operation)
    (h : Holder)
    (giveBack : Session → Act Unit)
    (hGiveBack : ∀ s, Act.Keeps Candid (giveBack s)) :
    Act.Keeps Candid (openReader s o h giveBack) := by
  intro ws w
  unfold openReader
  rw [Act.ends_bind, Act.ends_lift]
  refine (s.openReader_yields o w).mono ?_
  rintro ⟨x, s₁⟩ w₁ ⟨hCandid, hFine⟩
  have hOpened : Candid (ws, w) (ws, w₁) := candid_of_world hCandid
  cases x with
  | ok r =>
      exact (keepReader_candid h hFine ws w₁).mono
        fun _ _ _ => hOpened.trans
  | error f =>
      exact (hGiveBack s₁ ws w₁).mono fun _ _ _ => hOpened.trans

------------------------------------------------------------
-- Requests
------------------------------------------------------------

theorem complete_candid
    (session operation : String)
    (t : Target) :
    Act.Keeps Candid (complete session operation t) := by
  unfold complete
  refine .get_bind fun ws => ?_
  split
  · next s o _ _ =>
    refine (removeOperation_candid operation).bind fun _ => ?_
    split
    · exact onSession_candid session
        ((Session.completeNonQuery_candid o).tryBind
          fun _ => .tryPure _)
    · exact onSession_candid session
        ((Session.completeScalar_candid o t).tryBind
          fun _ => .tryPure _)
    · refine (removeSession_candid session).bind fun _ => ?_
      exact openReader_candid s o _ _ (setSession_candid session)
  · exact .pure _

theorem completeOwned_candid
    (session operation reader : String) :
    Act.Keeps Candid (completeOwned session operation reader) := by
  unfold completeOwned
  refine .get_bind fun ws => ?_
  split
  · next s o _ _ =>
    split
    · refine (removeOperation_candid operation).bind fun _ => ?_
      refine (removeSession_candid session).bind fun _ => ?_
      exact openReader_candid s o _ _
        fun s => lift_candid s.drop_silent.candid
    · exact .pure _
  · exact .pure _

/- Executing a command of any kind reports what it counts. -/
theorem execute_candid
    (session : String)
    (kind : Operation.Kind)
    (t : Target) :
    Act.Keeps Candid (execute session kind t) := by
  unfold execute
  cases kind with
  | nonQuery =>
      exact onSession_candid session
        (Session.executeNonQuery_candid.tryBind
          fun _ => .tryPure _)
  | scalar =>
      exact onSession_candid session
        ((Session.executeScalar_candid t).tryBind
          fun _ => .tryPure _)
  | reader =>
      refine .get_bind fun ws => ?_
      split
      · exact .pure _
      · next s _ =>
        refine (removeSession_candid session).bind fun _ => ?_
        refine (lift_candid
          ((Session.start_candid .reader).run s)).bind ?_
        rintro ⟨x, s₁⟩
        cases x with
        | error f =>
            exact (setSession_candid session s₁).bind
              fun _ => .pure _
        | ok o =>
            exact openReader_candid s₁ o _ _
              (setSession_candid session)

/- An operation that was started is kept under its name. -/
theorem startAs_candid
    (session : String)
    (kind : Operation.Kind)
    (operation : String) :
    Act.Keeps Candid (startAs session kind operation) := by
  unfold startAs
  refine .get_bind fun ws => ?_
  split
  · exact .pure _
  · next s _ =>
    refine (lift_candid
      ((Session.start_candid kind).run s)).bind ?_
    rintro ⟨x, s₁⟩
    refine (setSession_candid session s₁).bind fun _ => ?_
    cases x with
    | error f => exact .pure _
    | ok o =>
        exact (keepOperation_candid operation o).bind
          fun _ => .pure _

/- Rows of a cluster come with a reader that owes nothing. -/
theorem runReader_candid
    (cluster : String)
    (c : Command)
    (name : String) :
    Act.Keeps Candid (runReader cluster c name) := by
  intro ws w
  unfold runReader
  rw [Act.ends_bind, Act.ends_get, Act.ends_bind, Act.ends_lift]
  refine (ws.access.executeReader_yields cluster c w).mono ?_
  rintro ⟨x, c'⟩ w₁ ⟨hCandid, hFine⟩
  have hRan : Candid (ws, w) (ws, w₁) := candid_of_world hCandid
  cases x with
  | error f => exact hRan
  | ok r =>
      exact (keepReader_candid (.named name) hFine ws w₁).mono
        fun _ _ _ => hRan.trans

/- A request for what is not there does nothing. -/
theorem ifThere_candid
    (isThere : Bool)
    {act : Act Unit}
    (hAct : Act.Keeps Candid act) :
    Act.Keeps Candid (ifThere isThere act) := by
  unfold ifThere
  split
  · exact hAct.bind fun _ => .pure _
  · exact .pure _

/- A row is pulled that cannot be mapped. -/
def Request.lapse?
    (q : Request)
    (ws : Workspace) : Option Incident :=
  match q with
  | .pull h test => (ws.reader? h).bind (·.lapse? test)
  | _ => none

/- Pulling a row by a request does what the reader does. -/
theorem answer_pull
    {ws : Workspace}
    {w : World}
    {h : Holder}
    {r : Reader}
    {test : Reader → Except Failure Unit}
    {Q : Workspace → World → Prop}
    (hReader : ws.reader? h = some r)
    (hPull : Act.Ends (Reader.pull test) r w fun _ r' w' =>
      Q { ws with readers := without h ws.readers ++ [(h, r')] }
        w') :
    Act.Ends (answer (.pull h test)) ws w
      fun _ ws' w' => Q ws' w' := by
  unfold answer
  rw [Act.ends_bind, Act.ends_get]
  simp only [hReader]
  rw [Act.ends_bind, Act.ends_lift, Act.ends_run]
  refine hPull.mono ?_
  intro item r' w' hQ
  unfold setReader
  rw [Act.ends_bind, Act.ends_modify]
  rcases item with _ | ⟨f | _⟩ <;> exact hQ

/- A pull accounts for the row it fails to map. -/
theorem pull_accounts
    (h : Holder)
    (test : Reader → Except Failure Unit)
    (ws : Workspace)
    (w : World) :
    Act.Ends (answer (.pull h test)) ws w fun _ ws' w' =>
      w.Accounts
        (((ws.reader? h).bind (·.lapse? test)).toList ++
          ws.uncounted)
        ws'.uncounted w' := by
  cases hReader : ws.reader? h with
  | none =>
      unfold answer
      rw [Act.ends_bind, Act.ends_get]
      simp only [hReader]
      exact .refl w
  | some r =>
      refine answer_pull hReader
        ((Reader.pull_accounts r w test).mono ?_)
      intro _ r' w' hPulled
      exact setReader_accounts _ hReader hPulled

/- Each answer accounts for its own lapse and no other. -/
theorem answer_accounts
    (q : Request)
    (ws : Workspace)
    (w : World) :
    Act.Ends (answer q) ws w fun _ ws' w' =>
      w.Accounts ((q.lapse? ws).toList ++ ws.uncounted)
        ws'.uncounted w' := by
  have hRan {α : Type} {e : Effect α}
      (hCandid : Effect.Keeps World.Candid e)
      (after : α → Answer) :
      Act.Keeps Candid (do return after (← liftM e) : Act Answer) :=
    (lift_candid hCandid).bind fun _ => .pure _
  have hCandid {act : Act Answer} (h : Act.Keeps Candid act) :
      Act.Ends act ws w fun _ ws' w' =>
        w.Accounts ([] ++ ws.uncounted) ws'.uncounted w' :=
    h ws w
  unfold answer
  rw [Act.ends_bind, Act.ends_get]
  cases q with
  | openSession cluster name =>
      exact hCandid (keepMade_candid name
        (ws.access.openSession_silent cluster).candid)
  | openRepositorySession repository name =>
      exact hCandid (keepMade_candid name
        (ws.access.openRepositorySession_silent repository).candid)
  | bindSession repository name command =>
      exact hCandid (keepMade_candid name
        (makeBound_candid ws.access repository command))
  | setCommand name c =>
      exact hCandid (quietly_candid name
        (Session.setCommand_candid c))
  | takeCommand name =>
      exact hCandid (onSession_candid name
        (Session.takeCommand_candid.tryLift.tryBind
          fun _ => .tryPure _))
  | connect name =>
      exact hCandid (quietly_candid name Session.connect_candid)
  | begin name =>
      exact hCandid (quietly_candid name Session.begin_candid)
  | commit name =>
      exact hCandid (quietly_candid name
        (Session.endTransaction_candid .commit))
  | rollback name =>
      exact hCandid (quietly_candid name
        (Session.endTransaction_candid .rollback))
  | dispose name =>
      exact hCandid (quietly_candid name Session.dispose_candid)
  | dropSession name =>
      exact hCandid (ifThere_candid _ (dropSession_candid name))
  | execute name kind t =>
      exact hCandid (execute_candid name kind t)
  | start name kind operation =>
      exact hCandid (startAs_candid name kind operation)
  | complete name operation t =>
      exact hCandid (complete_candid name operation t)
  | completeOwned name operation reader =>
      exact hCandid (completeOwned_candid name operation reader)
  | dropOperation operation =>
      exact hCandid
        (ifThere_candid _ (dropOperation_candid operation))
  | scalar cluster c t =>
      exact hCandid (hRan (ws.access.execute_candid cluster c
        (Session.executeScalar_candid t))
        fun x => .ran (x.1.map (.value t)) x.2)
  | nonQuery cluster c =>
      exact hCandid (hRan (ws.access.execute_candid cluster c
        Session.executeNonQuery_candid)
        fun x => .ran (x.1.map .count) x.2)
  | reader cluster c name =>
      exact hCandid (runReader_candid cluster c name)
  | read h =>
      exact hCandid (onReader_candid h
        (Reader.read_candid.map Result.moved))
  | nextResult h =>
      exact hCandid (onReader_candid h
        (Reader.nextResult_candid.map Result.moved))
  | release h =>
      exact hCandid (onReader_candid h
        (Reader.release_candid.map fun _ => Result.nothing))
  | pull h test => exact pull_accounts h test ws w
  | dropReader h =>
      exact hCandid (ifThere_candid _ (dropReader_candid h))
  | renameReader h name =>
      exact hCandid (ifThere_candid _ (renameReader_candid h name))
  | wait millis =>
      exact hCandid (hRan (World.pass_silent millis).candid
        fun _ => .gave (.ok .nothing))
  | shutDown =>
      exact hCandid (hRan ws.access.shutDown_silent.candid
        fun _ => .gave (.ok .nothing))

/- A failure is counted, and none is reported. -/
theorem answer_lapses
    {q : Request}
    {ws : Workspace}
    {x : Incident}
    (w : World)
    (hLapse : q.lapse? ws = some x) :
    Act.Ends (answer q) ws w fun _ _ w' => w.Books [x] [] w' := by
  cases q with
  | pull h test =>
      rcases Option.bind_eq_some_iff.mp hLapse with
        ⟨r, hReader, hOfReader⟩
      exact answer_pull hReader (Reader.pull_lapses w hOfReader)
  | _ => cases hLapse

/- The background counts nothing, and reports nothing. -/
theorem perform_accounts
    (q : Request)
    (ws : Workspace)
    (w : World) :
    Act.Ends (perform q) ws w fun _ ws' w' =>
      w.Accounts ((q.lapse? ws).toList ++ ws.uncounted)
        ws'.uncounted w' := by
  unfold perform
  refine (answer_accounts q ws w).bind ?_
  intro a ws₁ w₁ hAnswered
  rw [Act.ends_bind, Act.ends_lift]
  refine (World.runJobs_silent w₁).mono ?_
  exact fun _ w' hJobs => hAnswered.trans hJobs.accounts

/-
  A request that lapses counts this failure without a
  report.
-/
theorem perform_lapses
    {q : Request}
    {ws : Workspace}
    {x : Incident}
    (w : World)
    (hLapse : q.lapse? ws = some x) :
    Act.Ends (perform q) ws w fun _ _ w' => w.Books [x] [] w' := by
  unfold perform
  refine (answer_lapses w hLapse).bind ?_
  intro a ws₁ w₁ hAnswered
  rw [Act.ends_bind, Act.ends_lift]
  refine (World.runJobs_silent w₁).mono ?_
  exact fun _ w' hJobs => hAnswered.trans hJobs.books

/-
  Dropping all that is in use counts what readers have
  reported.
-/
theorem abandon_accounts
    (ws : Workspace)
    (w : World) :
    Effect.Ends ws.abandon w fun _ w' =>
      w.Accounts ws.uncounted [] w' := by
  have hOperation (o : Operation) :
      Effect.Keeps Silent o.dropAbroad :=
    fun _ => .same rfl rfl
  have hSame (x : Incident) :
      ws.uncounted.count x =
        (uncountedOf (byName Holder.name ws.readers)).count x :=
    ((List.mergeSort_perm _ _).symm.flatMap_right _).count_eq x
  unfold abandon
  refine (Effect.Keeps.forM
    (fun x : String × Session => x.2.dropAbroad_silent)
    (byName id ws.sessions) w).bind ?_
  intro _ w₁ hSessions
  refine (Effect.Keeps.forM
    (fun x : String × Operation => hOperation x.2)
    (byName id ws.operations) w₁).bind ?_
  intro _ w₂ hOperations
  refine Effect.Ends.forM
    (P := fun xs w' => w.Accounts ws.uncounted (uncountedOf xs) w')
    ?_ ?_
  · refine (hSessions.trans hOperations).accounts.mono
      (fun _ => Nat.le_refl _) fun x => ?_
    exact Nat.le_of_eq (hSame x).symm
  · rintro ⟨h, r⟩ xs w₃ hBefore
    rw [Effect.ends_bind, Act.ends_run]
    refine (Reader.release_books r w₃).mono ?_
    rintro _ r' w₄ ⟨-, hBooks⟩
    refine (r'.session.dropAbroad_silent w₄).mono ?_
    intro _ w' hDropped
    have hReleased : w₃.Accounts (r.uncounted ++ uncountedOf xs)
        (uncountedOf xs) w₄ :=
      (World.Accounts.counts hBooks).frame (uncountedOf xs)
    exact (hBefore.trans hReleased).trans hDropped.accounts

------------------------------------------------------------
-- Runs
------------------------------------------------------------

namespace Moment

/- The failure that is counted and not reported, if any. -/
def lapse? (m : Moment) : Option Incident :=
  m.request.lapse? m.before.1

/- A repository has the failures more that were counted. -/
def Counts (m : Moment) : Prop :=
  ∀ name, (m.after.2.health name).failures =
    (m.before.2.health name).failures +
      (counted m.news).countP (·.1 == name)

/-
  Failures that are counted are reported meanwhile, or were
  before by readers that had not counted them.
-/
def Accompanied (m : Moment) : Prop :=
  ∀ x, (counted m.news).count x +
      m.after.1.uncounted.count x ≤
    (complained m.news).count x + m.before.1.uncounted.count x

/-
  The outcomes that a moment counts and reports are those of
  its news.
-/
theorem books_news
    {m : Moment}
    {cs rs : List Incident}
    (hBooks : m.before.2.Books cs rs m.after.2) :
    m.Counts ∧ counted m.news = cs ∧ complained m.news = rs := by
  rcases hBooks.news with ⟨es, hLog, rfl, rfl⟩
  have hNews : m.news = es := by
    rw [news, hLog, List.drop_left]
  refine ⟨fun name => ?_, by rw [hNews], by rw [hNews]⟩
  rw [hNews]
  exact hBooks.failures name

/- Each moment reports what it counts, or it lapses. -/
theorem accompanied_or_lapses
    {m : Moment}
    (hMoment : m.IsPerformed) :
    m.Counts ∧ (m.lapse? = none → m.Accompanied) ∧
      ∀ x, m.lapse? = some x →
        counted m.news = [x] ∧ complained m.news = [] := by
  have hLeads : Act.Leads (perform m.request) m.before.1
      m.before.2 m.answer m.after.1 m.after.2 := hMoment
  rcases (hLeads.ends_iff _).mp (perform_accounts m.request
    m.before.1 m.before.2) with ⟨cs, rs, hBooks, hLe⟩
  rcases books_news hBooks with ⟨hCounts, hCounted, hComplained⟩
  refine ⟨hCounts, fun hNone x => ?_, fun x hLapse => ?_⟩
  · have hThis := hLe x
    rw [show m.request.lapse? m.before.1 = none from hNone]
      at hThis
    rw [hCounted, hComplained]
    exact hThis
  · exact (books_news ((hLeads.ends_iff _).mp
      (perform_lapses m.before.2 hLapse))).2

end Moment

/- All failures that are counted and not reported. -/
def lapses (ms : List Moment) : List Incident :=
  ms.filterMap (·.lapse?)

/- The lapses of a run are those of its moments, in turn. -/
theorem lapses_cons (m : Moment) (ms : List Moment) :
    lapses (m :: ms) = m.lapse?.toList ++ lapses ms := by
  cases hLapse : m.lapse? <;> simp [lapses, hLapse]

/- The induction is on the requests that are left. -/
theorem isPerformed_of_mem_trace
    {qs : List Request}
    {ws : Workspace}
    {w : World}
    {m : Moment}
    (hMem : m ∈ trace qs ws w) : m.IsPerformed := by
  induction qs generalizing ws w with
  | nil => cases hMem
  | cons q qs ih =>
      rcases List.mem_cons.mp hMem with rfl | hLater
      · rfl
      · exact ih hLater

/-
  All that is counted in a run was reported, but for lapses.
  The induction is on the requests that are left.
-/
theorem run_accounts
    (qs : List Request)
    (ws : Workspace)
    (w : World) :
    Act.Ends (run qs) ws w fun _ ws' w' =>
      w.Accounts (lapses (trace qs ws w) ++ ws.uncounted)
        ws'.uncounted w' := by
  unfold run
  induction qs generalizing ws w with
  | nil => exact .refl w
  | cons q qs ih =>
      rw [List.mapM_cons]
      let m := momentOf q ws w
      let ms := trace qs m.after.1 m.after.2
      have hFirst : w.Accounts
          (m.lapse?.toList ++ ws.uncounted)
          m.after.1.uncounted m.after.2 :=
        perform_accounts q ws w
      have hLeads : Act.Leads (perform q) ws w m.answer m.after.1
          m.after.2 := rfl
      rw [Act.ends_bind, hLeads.ends_iff]
      refine (ih m.after.1 m.after.2).bind ?_
      intro _ ws' w' hRest
      have hBoth : w.Accounts
          (lapses (m :: ms) ++ ws.uncounted)
          (lapses ms ++ m.after.1.uncounted) m.after.2 := by
        refine (hFirst.frame (lapses ms)).mono (fun x => ?_)
          fun x => ?_
        · simp only [lapses_cons, List.count_append]
          omega
        · simp only [List.count_append]
          omega
      exact hBoth.trans hRest

/-
  In every run each request adds to the failures of a
  repository those that it counts, and each of these is
  reported by the end of the request: meanwhile, or before by
  a reader that had not counted it.  The exception is a row
  that cannot be mapped.  Its failure is counted, and nothing
  is reported.
-/
theorem failures_reported_but_lapses
    (d : DataAccess)
    (backend : String → Backend)
    (qs : List Request) :
    (∀ m ∈ trace qs (ofAccess d) (World.initial backend),
      m.Counts ∧ (m.lapse? = none → m.Accompanied) ∧
        ∀ x, m.lapse? = some x →
          counted m.news = [x] ∧ complained m.news = []) ∧
    Act.Ends (run qs) (ofAccess d) (World.initial backend)
      fun _ ws w =>
        (∀ x, (counted w.log).count x + ws.uncounted.count x ≤
          (complained w.log).count x +
            (lapses (trace qs (ofAccess d)
              (World.initial backend))).count x) ∧
        Effect.Ends ws.abandon w fun _ w' =>
          w.Accounts ws.uncounted [] w' := by
  refine ⟨fun m hMem => Moment.accompanied_or_lapses
    (isPerformed_of_mem_trace hMem), ?_⟩
  refine (run_accounts qs (ofAccess d) (World.initial
    backend)).mono ?_
  rintro _ ws w ⟨cs, rs, hBooks, hLe⟩
  refine ⟨fun x => ?_, abandon_accounts ws w⟩
  rcases hBooks.news with ⟨es, hLog, rfl, rfl⟩
  have hThis := hLe x
  have hEvents : w.log = es := hLog
  have hNone : (ofAccess d).uncounted = [] := rfl
  rw [hNone, List.append_nil] at hThis
  rw [hEvents]
  exact hThis

/- A row is pulled that has no field of the name. -/
def pullUnmapped : List Request :=
  [.bindSession "a" "s" (some (.ofText .text "SELECT 1")),
    .execute "s" .reader .bool,
    .pull (.lender "s") fun r =>
      (r.ofField (r.cursor.tryGetByName .bool "id")).map
        fun _ => ()]

def unmappedMoments : List Moment :=
  trace pullUnmapped (ofAccess oneRepository)
    (World.initial fun _ => .willing)

/- The event is a call of the error reporter. -/
def isReport : Event → Bool
  | .reported _ _ _ => true
  | _ => false

/- The failure that is counted is nowhere reported. -/
theorem unmapped_row_is_not_reported :
    ¬ ∀ (d : DataAccess) (backend : String → Backend)
      (qs : List Request),
      ∀ m ∈ trace qs (ofAccess d) (World.initial backend),
        ∀ x ∈ counted m.news, ∃ message,
          .reported x.1 message x.2 ∈ m.after.2.log := by
  intro h
  let x : Incident := ("a", .resultConversion "a"
    "Cannot convert result from 'a': no field named 'id'")
  have hCounted :
      unmappedMoments.map (counted ·.news) = [[], [], [x]] := by
    decide +kernel
  have hReports :
      unmappedMoments.all (!·.after.2.log.any isReport) = true := by
    decide +kernel
  have hLast : [x] ∈ unmappedMoments.map (counted ·.news) := by
    rw [hCounted]
    exact .tail _ (.tail _ (.head _))
  rcases List.mem_map.mp hLast with ⟨m, hMem, hNews⟩
  have hX : x ∈ counted m.news := by
    rw [hNews]
    exact .head _
  rcases h oneRepository (fun _ => .willing) pullUnmapped m hMem x
    hX with ⟨message, hReported⟩
  have hNone := List.all_eq_true.mp hReports m hMem
  rw [Bool.not_eq_true', List.any_eq_false] at hNone
  exact hNone _ hReported rfl

end Workspace

end Failover
