import Failover.Proofs.Health.Reporting
import Failover.Proofs.Scene.Session
import Failover.Session.Operation

/-
  A session reports each failure that it counts, at once and
  for its own repository.  Only a reader's operation is over
  with a failure that was reported before.

  Key definitions include:
    * `Session.incidents`

  Main statements:
    * `Session.setCommand_candid`, `Session.ensureOpen_candid`
    * `Session.settle_books`, `Session.settle_candid`
    * `Session.executeNonQuery_candid`
    * `Session.executeScalar_candid`
-/

namespace Failover

namespace Session

open World (Candid Silent)

variable {α : Type}

/- A failure of a session, if it has one. -/
def incidents
    (s : Session)
    (cause : Option Failure) : List Incident :=
  cause.toList.map fun f => (s.repository.name, f)

/- The first of two failures is one of them. -/
theorem count_incidents
    (s : Session)
    (a b : Option Failure)
    (x : Incident) :
    (s.incidents (a <|> b)).count x ≤
      (s.incidents b).count x + (s.incidents a).count x := by
  cases a with
  | none => exact Nat.le_refl _
  | some f => exact Nat.le_add_left _ _

/- Where nothing is said, nothing goes unreported. -/
theorem Keeps.candid
    {act : Act α}
    (h : Keeps Silent act) : Keeps Candid act :=
  h.mono fun _ _ => Silent.accounts

/- An effect that is silent is so in a session. -/
theorem lift_candid
    {e : Effect α}
    (h : Effect.Keeps Silent e) :
    Keeps Candid (liftM e : Act α) :=
  (Keeps.lift h).candid

------------------------------------------------------------
-- Connections
------------------------------------------------------------

/- A report of what is not counted is no outcome. -/
theorem report_silent
    (f : Failure)
    {message : String}
    (hMessage : message ∉ complaints) :
    Keeps Silent (report f message) :=
  fun s _ => ⟨rfl, .noted (e := .reported s.repository.name
    message f) (decide_eq_true hMessage) rfl rfl⟩

/- A failure that is recorded counts for the repository. -/
theorem recordFailure_books
    (s : Session)
    (w : World)
    (f : Failure) :
    Act.Ends (recordFailure f) s w fun _ s' w' =>
      s' = s ∧ w.Books (s.incidents (some f)) [] w' :=
  ⟨rfl, World.recordFailure_books s.repository.name f w⟩

/- A report is one of the failure to the same repository. -/
theorem report_books
    (s : Session)
    (w : World)
    (f : Failure)
    {message : String}
    (hMessage : message ∈ complaints) :
    Act.Ends (report f message) s w fun _ s' w' =>
      s' = s ∧ w.Books [] (s.incidents (some f)) w' := by
  let e : Event := .reported s.repository.name message f
  have hReported : w.Books [] e.complained?.toList
      { w with log := w.log ++ [e] } :=
    .noted (e := e) rfl rfl rfl
  have hComplained : e.complained? = some (s.repository.name, f) :=
    if_pos hMessage
  rw [hComplained] at hReported
  exact ⟨rfl, hReported⟩

/- A failure that is counted is reported after it. -/
theorem report_counted
    {s : Session}
    {w w₁ : World}
    {f : Failure}
    {message : String}
    (hMessage : message ∈ complaints)
    (hCounted : w.Books (s.incidents (some f)) [] w₁) :
    Act.Ends (report f message) s w₁ fun _ s' w' =>
      s' = s ∧ w.Candid w' := by
  refine (report_books s w₁ f hMessage).mono ?_
  rintro _ _ w' ⟨rfl, hReported⟩
  exact ⟨rfl, _, _, hCounted.trans hReported,
    fun _ => Nat.le_refl _⟩

/- A refusal is neither counted nor reported. -/
theorem ensureUsable_candid : Keeps Candid ensureUsable.run := by
  unfold ensureUsable
  refine .tryGet fun s => ?_
  split
  · exact .refuse _
  · exact .tryPure _

/- The failure is counted, told of, and reported. -/
theorem openLink_candid : Keeps Candid openLink.run := by
  intro s w
  rw [Try.ends_run]
  unfold openLink
  simp only [Try.ends_bind, Try.ends_get, Try.ends_liftEffect]
  refine (World.openConnection_silent s.repository.name w).mono ?_
  intro x w₁ hOpened
  cases x with
  | ok c =>
      refine ⟨rfl, (hOpened.trans ?_).accounts⟩
      exact .noted (e := .connectionOpened _) rfl rfl rfl
  | error f =>
      simp only [Try.ends_bind, Try.ends_liftAct]
      refine (recordFailure_books s w₁ f).mono ?_
      rintro _ s w₂ ⟨rfl, hCounted⟩
      let e : Event := .connectionFailed
        (World.connectionInfo s.repository w₂.active)
      let w₃ := { w₂ with log := w₂.log ++ [e] }
      have hTold : w₂.Books [] [] w₃ := .noted (e := e) rfl rfl rfl
      change Act.Ends (report f "Failed to open connection") s w₃
        fun _ s' w' => Stays Candid (s, w) (s', w')
      refine (report_counted (by decide)
        (hCounted.trans hTold)).mono ?_
      rintro _ _ w' ⟨rfl, hCandid⟩
      exact ⟨rfl, hOpened.accounts.trans hCandid⟩

/-
  A connection that cannot be opened is counted and
  reported.
-/
theorem ensureOpen_candid : Keeps Candid ensureOpen.run := by
  unfold ensureOpen
  refine .tryGet fun s => ?_
  split
  · exact .tryPure _
  · exact .refuse _
  · exact openLink_candid.tryBind fun _ => .tryPure _

/- Giving a connection back counts no outcome. -/
theorem linkReleased_silent : Keeps Silent linkReleased :=
  fun _ _ => ⟨rfl, .noted (e := .connectionClosed _) rfl rfl rfl⟩

theorem discardLink_silent : Keeps Silent discardLink := by
  unfold discardLink
  refine Act.Keeps.get_bind fun s => ?_
  split
  · next c _ =>
    refine .bind (fun _ _ => ⟨rfl, .same rfl rfl⟩) fun _ => ?_
    exact .bind (Keeps.lift (World.note_silent rfl))
      fun _ => linkReleased_silent
  · exact .pure _

/- Closing a connection counts no outcome and tells none. -/
theorem closeLink_silent : Keeps Silent closeLink := by
  intro s w
  unfold closeLink
  rw [Act.ends_bind, Act.ends_get]
  split
  · refine (discardLink_silent s w).bind ?_
    exact fun _ _ _ h => h
  · split
    · next c _ =>
      rw [Act.ends_bind, Act.ends_set, Act.ends_bind, Act.ends_lift]
      refine (World.callOn_silent c .close w).mono ?_
      intro result w₁ hCalled
      refine (linkReleased_silent _ w₁).bind ?_
      rintro _ s' w' ⟨hSame, hReleased⟩
      exact ⟨hSame, hCalled.trans hReleased⟩
    · exact ⟨rfl, .same rfl rfl⟩

------------------------------------------------------------
-- Commands
------------------------------------------------------------

/- Binding that fails is reported as it is counted. -/
theorem setCommand_candid
    (c : Command) : Keeps Candid (setCommand c).run := by
  intro s w
  rw [Try.ends_run]
  unfold setCommand
  simp only [Try.ends_bind, ends_ensureUsable, Try.ends_get]
  split
  · exact ⟨rfl, .refl w⟩
  split
  · exact ⟨rfl, .refl w⟩
  let s₁ := { s with command := none, bound := none }
  simp only [Try.ends_bind, Try.ends_modify, Try.ends_get,
    Try.ends_liftEffect]
  refine (World.bindCommand_silent s₁.repository c w).mono ?_
  intro x w₁ hBound
  cases x with
  | ok b => exact ⟨rfl, hBound.accounts⟩
  | error f =>
      simp only [Try.ends_bind, Try.ends_liftAct]
      refine (recordFailure_books s₁ w₁ f).mono ?_
      rintro _ _ w₂ ⟨rfl, hCounted⟩
      refine (report_counted (by decide) hCounted).mono ?_
      rintro _ _ w' ⟨rfl, hCandid⟩
      exact ⟨rfl, hBound.accounts.trans hCandid⟩

theorem takeCommand_candid : Keeps Candid takeCommand :=
  fun _ w => ⟨rfl, .refl w⟩

/- Connecting reports what opening does. -/
theorem connect_candid : Keeps Candid connect.run := by
  unfold connect
  refine ensureUsable_candid.tryBind fun _ => ?_
  exact ensureOpen_candid.tryBind fun _ => .tryPure _

------------------------------------------------------------
-- Transactions
------------------------------------------------------------

/- Complaints of transactions are not those of a count. -/
theorem report_candid
    (f : Failure)
    {message : String}
    (hMessage : message ∉ complaints) :
    Keeps Candid (report f message) :=
  (report_silent f hMessage).candid

/-
  How a transaction fails to end is no complaint that
  counts.
-/
theorem Ending.complaint_uncounted
    (e : Ending) : e.complaint ∉ complaints := by
  cases e <;> decide

/-
  The end of a transaction is told, but no outcome is
  counted.
-/
theorem endTransaction_candid
    (e : Ending) : Keeps Candid (endTransaction e).run := by
  have hAfter (result : Except Failure Unit) :
      Keeps Candid (afterEnding e result).run := by
    unfold afterEnding
    refine .tryBind (fun _ w => ⟨rfl, .refl w⟩) fun _ => ?_
    cases result with
    | ok _ => exact .tryPure _
    | error f =>
        refine .tryBind ?_ fun _ => .throw f
        exact report_candid f e.complaint_uncounted
  unfold endTransaction
  refine .tryGet fun s => ?_
  split
  · split
    · next c _ =>
      refine .tryBind ?_ fun result => hAfter result
      exact lift_candid (World.callOn_silent c e.call)
    · exact .refuse _
    · exact hAfter _
  · exact .tryPure _

/-
  The beginning of a transaction reports each failure that it
  counts.
-/
theorem begin_candid : Keeps Candid begin.run := by
  have hAfter (result : Except Failure Unit) :
      Keeps Candid (afterBegin result).run := by
    unfold afterBegin
    cases result with
    | ok _ => exact fun _ w => ⟨rfl, .refl w⟩
    | error f =>
        refine .tryBind ?_ fun _ => .throw f
        exact report_candid f (by decide)
  have hFresh : Keeps Candid beginFresh.run := by
    unfold beginFresh
    refine .tryBind ?_ fun _ => .tryGet fun s => ?_
    · exact ensureOpen_candid.tryBind fun _ => .tryPure _
    split
    · next c _ =>
      refine .tryBind ?_ fun result => hAfter result
      exact lift_candid (World.callOn_silent c .begin)
    · exact hAfter _
  unfold begin
  refine ensureUsable_candid.tryBind fun _ => .tryGet fun s => ?_
  split
  · exact (endTransaction_candid .commit).tryBind fun _ => hFresh
  · exact hFresh

------------------------------------------------------------
-- The end of a session
------------------------------------------------------------

/- The end of a session counts nothing. -/
theorem dispose_candid : Keeps Candid dispose.run := by
  have hRelease : Keeps Candid release := by
    unfold release
    refine (endTransaction_candid .commit).bind fun result => ?_
    cases result with
    | ok _ => exact closeLink_silent.candid
    | error f =>
        exact discardLink_silent.candid.bind fun _ => .pure _
  unfold dispose
  refine .tryGet fun s => ?_
  split
  · split
    · exact .refuse _
    · refine .tryBind (fun _ w => ⟨rfl, .refl w⟩) fun _ => ?_
      refine .tryBind (Keeps.tryLift hRelease) fun result => ?_
      refine .tryBind (fun _ w => ⟨rfl, .refl w⟩) fun _ => ?_
      cases result with
      | ok _ => exact .tryPure _
      | error f => exact .throw f
  · exact .tryPure _

/- A session that is given up says nothing. -/
theorem drop_silent
    (s : Session) : Effect.Keeps Silent s.drop := by
  unfold drop
  split
  · next c _ =>
    split
    · exact fun _ => .same rfl rfl
    · refine (World.callOn_silent c .close).discard.bind ?_
      exact fun _ _ => .same rfl rfl
  · exact .pure _

/- A session that is dropped elsewhere says nothing. -/
theorem dropAbroad_silent
    (s : Session) : Effect.Keeps Silent s.dropAbroad := by
  unfold dropAbroad
  split
  · next c _ =>
    split
    · exact (World.note_silent rfl).bind fun _ _ => .same rfl rfl
    · refine (World.callOn_silent c .close).discard.bind ?_
      exact fun _ _ => .same rfl rfl
  · exact .pure _

------------------------------------------------------------
-- Operations
------------------------------------------------------------

/- Dropping an operation counts no outcome and tells none. -/
theorem dropOperation_silent
    (o : Operation) : Effect.Keeps Silent o.drop :=
  fun _ => .same rfl rfl

/-
  The start of an operation counts a refused connection
  only.
-/
theorem start_candid
    (kind : Operation.Kind) : Keeps Candid (start kind).run := by
  have hBound : Keeps Candid boundCommand.run := by
    unfold boundCommand
    refine .tryGet fun s => ?_
    split
    · exact .tryPure _
    · exact .throw _
  intro s w
  rw [Try.ends_run]
  unfold start
  simp only [Try.ends_bind, ends_ensureUsable, Try.ends_get]
  split
  · exact ⟨rfl, .refl w⟩
  split
  · exact ⟨rfl, .refl w⟩
  refine (hBound.tryBind fun x => .tryGet fun s => ?_) s w
  refine .tryBind (lift_candid (World.note_silent rfl)) fun _ => ?_
  refine ensureOpen_candid.tryBind fun openedHere s w => ?_
  rw [Try.ends_run, Try.ends_bind, Try.ends_get]
  simp only
  split
  · simp only [Try.ends_bind, Try.ends_getWorld, Try.ends_set,
      Try.ends_liftEffect, Try.ends_pure]
    refine (World.spawn_silent _ _ _ w).mono ?_
    exact fun _ _ hSpawned => ⟨rfl, hSpawned.accounts⟩
  · exact ⟨rfl, .refl w⟩

/- Waiting for the end of an operation counts nothing yet. -/
theorem finish_candid
    (o : Operation) : Keeps Candid (finish o).run := by
  have hLost : Keeps Candid connectionLost := by
    refine .bind (fun _ w => ⟨rfl, .refl w⟩) fun _ => ?_
    exact linkReleased_silent.candid
  intro s w
  rw [Try.ends_run]
  unfold finish
  rw [Try.ends_bind, Try.ends_get]
  simp only
  split
  · simp only [Try.ends_bind, Try.ends_liftEffect, Try.ends_refuse]
    refine Effect.Ends.mono (dropOperation_silent o w) ?_
    exact fun _ _ hDropped => ⟨rfl, hDropped.accounts⟩
  have hAwait :
      Keeps Candid (liftM (World.await o.task) : Act _) :=
    lift_candid (World.await_silent o.task)
  refine (hAwait.tryBind fun state => ?_) s w
  split
  · exact .tryBind (fun _ w => ⟨rfl, .refl w⟩) fun _ => .tryPure _
  · exact hLost.tryLift.tryBind fun _ => .tryPure _
  · exact hLost.tryLift.tryBind fun _ => .tryPure _

------------------------------------------------------------
-- Settling
------------------------------------------------------------

/- An outcome that is a failure is counted. -/
theorem recordOutcome_books
    (s : Session)
    (w : World)
    (context : Operation.Context)
    (cause : Option Failure) :
    Act.Ends (recordOutcome context cause true) s w
      fun _ s' w' =>
        s' = s ∧ w.Books (s.incidents cause) [] w' := by
  let e : Event :=
    .commandEnded s.repository.name context.text cause.isNone
  have hTold (w₁ : World) :
      w₁.Books [] [] { w₁ with log := w₁.log ++ [e] } :=
    .noted (e := e) rfl rfl rfl
  unfold recordOutcome
  rw [Act.ends_bind, Act.ends_get]
  cases cause with
  | none =>
      simp only
      rw [Act.ends_bind, Act.ends_lift]
      refine (World.recordSuccess_books s.repository.name _
        w).mono ?_
      intro _ w₁ hCounted
      exact ⟨rfl, hCounted.trans (hTold w₁)⟩
  | some f =>
      simp only
      rw [Act.ends_bind]
      refine (recordFailure_books s w f).mono ?_
      rintro _ s w₁ ⟨rfl, hCounted⟩
      exact ⟨rfl, hCounted.trans (hTold w₁)⟩

/- The report comes last, if there is one to make. -/
theorem recordOutcome_reports
    (context : Operation.Context)
    (cause : Option Failure) :
    recordOutcome context cause false = (do
      recordOutcome context cause true
      match cause with
      | none => return ()
      | some f => report f "Command execution failed") := by
  cases cause <;> rfl

/- A connection for one command goes back in silence. -/
theorem closeOpenedHere_silent
    (context : Operation.Context) :
    Keeps Silent (closeOpenedHere context) := by
  unfold closeOpenedHere
  refine Act.Keeps.get_bind fun s => ?_
  split
  · refine closeLink_silent.bind fun result => ?_
    cases result with
    | ok _ => exact .pure _
    | error f => exact report_silent f (by decide)
  · exact .pure _

/- The failure was reported before. -/
theorem settle_books
    (s : Session)
    (w : World)
    (context : Operation.Context)
    (cause : Option Failure) :
    Act.Ends (settle context cause true) s w
      fun _ _ w' => w.Books (s.incidents cause) [] w' := by
  unfold settle
  refine (recordOutcome_books s w context cause).bind ?_
  rintro _ s w₁ ⟨rfl, hCounted⟩
  refine (closeOpenedHere_silent context s w₁).mono ?_
  intro _ s' w' hSilent
  have hBooks := hCounted.trans hSilent.2.books
  rwa [List.append_nil] at hBooks

/- An outcome that is settled is counted with its report. -/
theorem settle_candid
    (context : Operation.Context)
    (cause : Option Failure) :
    Keeps Candid (settle context cause false) := by
  have hRecorded :
      Keeps Candid (recordOutcome context cause false) := by
    intro s w
    rw [recordOutcome_reports, Act.ends_bind]
    refine (recordOutcome_books s w context cause).mono ?_
    rintro _ s w₁ ⟨rfl, hCounted⟩
    cases cause with
    | none => exact ⟨rfl, .counts hCounted⟩
    | some f =>
        refine (report_counted (by decide) hCounted).mono ?_
        rintro _ _ w' ⟨rfl, hCandid⟩
        exact ⟨rfl, hCandid⟩
  unfold settle
  exact hRecorded.bind
    fun _ => (closeOpenedHere_silent context).candid

/-
  Settling an operation with a result reports the failure that
  it counts.
-/
theorem settled_candid
    (context : Operation.Context)
    (result : Except Failure α) :
    Keeps Candid (settled context result).run := by
  unfold settled
  cases result with
  | ok a =>
      refine .tryBind ?_ fun _ => .tryPure a
      exact settle_candid context none
  | error f =>
      refine .tryBind ?_ fun _ => .throw f
      exact settle_candid context (some f)

------------------------------------------------------------
-- Results
------------------------------------------------------------

theorem applyOutputs_candid
    (o : OutputValues) : Keeps Candid (applyOutputs o) :=
  fun _ w => ⟨rfl, .refl w⟩

/- An outcome is used as a whole. -/
theorem settleWhole_candid
    (context : Operation.Context)
    (reply : Reply)
    (make : Reply → Except Failure α) :
    Keeps Candid (do
      let whole ← ExceptT.lift (takeWhole reply)
      settled context (make whole) : Try α).run := by
  have hTaken : Keeps Candid (takeWhole reply) := by
    unfold takeWhole
    cases Progress.whole reply with
    | error f => exact .pure _
    | ok o => exact (applyOutputs_candid _).bind fun _ => .pure _
  exact hTaken.tryLift.tryBind
    fun whole => settled_candid context _

/- Completing a command counts its outcome with a report. -/
theorem completeNonQuery_candid
    (o : Operation) : Keeps Candid (completeNonQuery o).run := by
  unfold completeNonQuery
  refine (finish_candid o).tryBind fun reply => ?_
  exact settleWhole_candid o.context reply _

/- A value that does not convert counts as a failure too. -/
theorem completeScalar_candid
    (o : Operation)
    (t : Target) : Keeps Candid (completeScalar o t).run := by
  unfold completeScalar
  refine (finish_candid o).tryBind fun reply => ?_
  refine .tryGet fun s => ?_
  exact settleWhole_candid o.context reply
    fun whole => whole.bind (scalarOf s.repository.name t)

/- Starting to read rows reports each failure that it counts. -/
theorem completeRows_candid
    (o : Operation) : Keeps Candid (completeRows o).run := by
  unfold completeRows
  refine (finish_candid o).tryBind fun reply => ?_
  cases reply with
  | error f => exact settled_candid _ _
  | ok outcome =>
      refine .tryBind ?_ fun _ => .tryPure _
      exact applyOutputs_candid outcome.outputs

/- A command without rows reports each failure that it counts. -/
theorem executeNonQuery_candid :
    Keeps Candid executeNonQuery.run :=
  (start_candid .nonQuery).tryBind
    fun o => completeNonQuery_candid o

theorem executeScalar_candid
    (t : Target) : Keeps Candid (executeScalar t).run :=
  (start_candid .scalar).tryBind
    fun o => completeScalar_candid o t

end Session

end Failover
