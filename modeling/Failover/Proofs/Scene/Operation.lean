import Failover.Proofs.Scene.Session

/-
  Operations of a session, as steps of a scene in which the
  session stands alone with its operation.

  Key definitions include:
    * `Session.Begins`
    * `Session.Lost`, `Session.Takes`
    * `Session.Gives`

  Main statements:
    * `Session.start_begins`, `Session.start_ends`
    * `Session.finish_ends`
    * `Session.settled_ends`
    * `Session.completeNonQuery_ends`
    * `Session.completeScalar_ends`
    * `Session.openReader_ends`
-/

namespace Failover

namespace Session

------------------------------------------------------------
-- The start
------------------------------------------------------------

/-
  The task of a new operation, at its first statement, in the
  ledger in which this has been sent.
-/
def beginning
    (l : Ledger)
    (c : Connection)
    (b : BoundCommand)
    (limit deadline time : Nat) : Ledger :=
  (l.ask c (Progress.start b).statement).start
    ⟨l.started, c, limit, deadline,
      .waiting time (.start b)
        (l.reply? c (Progress.start b).statement)⟩

/-
  What an operation begins with: the session's connection, or
  a new one if the session is closed, and nothing sent yet.
-/
structure Begins
    (may : Nat → Prop)
    (s : Session)
    (w : World)
    (o : Operation)
    (c : Connection)
    (w₁ : World) : Prop where
  session : o.session = s.id
  task : o.task = w₁.ledger.started
  transaction : o.context.inTransaction = s.inTransaction
  goes : Goes may s w { s with link := .opened c } w₁
  new : s.link = .closed →
    c = w.ledger.nextConnection s.repository
  nothing : SendsNothing w.log w₁.log

/-
  An operation begins on a session that is at work from then
  on, or the session is as it was.
-/
theorem start_begins
    (may : Nat → Prop)
    (s : Session)
    (w : World)
    (kind : Operation.Kind) :
    Try.Ends (start kind) s w fun r s' w' =>
      (∃ o c b w₁, r = .ok o ∧ o.kind = kind ∧
        s' = { s with link := .busy } ∧ s.link ≠ .busy ∧
        s.bound = some b ∧ Begins may s w o c w₁ ∧
        ∃ limit deadline time,
          (beginning w₁.ledger c b limit deadline time).Steps
            w'.ledger) ∨
      (∃ f, r = .error f ∧ s' = s ∧
        w.ledger.Steps w'.ledger) := by
  unfold start
  simp only [Try.ends_bind, ends_ensureUsable, Try.ends_get]
  split
  · exact .inr ⟨_, rfl, trivial, .refl⟩
  next hUsed =>
  have hUsable := Bool.eq_false_of_not_eq_true hUsed
  split
  · exact .inr ⟨_, rfl, rfl, .refl⟩
  next hBusy =>
  rw [Try.ends_bind]
  unfold boundCommand
  rw [Try.ends_bind, Try.ends_get]
  simp only
  split
  · next command b hCommand hBound =>
    simp only [Try.ends_pure, Try.ends_bind, Try.ends_get,
      Try.ends_liftEffect]
    have hTraced (w₁ : World) (e : Event)
        (hAside : e.isAside = true)
        (hLedger : w₁.ledger = w.ledger.add [e]) :
        w.ledger.Steps w₁.ledger := by
      rw [hLedger]
      exact .single (.noted e hAside)
    refine (ensureOpen_ends may s _ hUsable).mono ?_
    rintro r s₁ w₁ ⟨hGoes₁, hOpened⟩
    rcases hOpened with ⟨c, isNew, rfl, rfl, hNew, hNothing⟩ |
      ⟨f, rfl, rfl, hSteps⟩
    · simp only [Try.ends_bind, Try.ends_getWorld,
        Try.ends_set, Try.ends_liftEffect]
      refine (World.spawn_ends c _ b w₁).mono ?_
      rintro id w₂ ⟨rfl, deadline, time, hWork⟩
      refine .inl ⟨_, c, b, w₁, rfl, rfl, rfl, hBusy, hBound,
        ?_, _, deadline, time, hWork⟩
      refine ⟨rfl, rfl, rfl, ?_, hNew, ?_⟩
      · exact .trans (.around (hTraced _ _ rfl rfl)) hGoes₁
      · exact .trans (.noted fun _ => rfl) hNothing
    · exact .inr ⟨f, rfl, rfl, (hTraced _ _ rfl rfl).trans hSteps⟩
  · exact .inr ⟨_, rfl, rfl, .refl⟩

/- The operation and its session, as steps of their scene. -/
theorem Begins.steps
    {may : Nat → Prop}
    {s : Session}
    {w w₁ : World}
    {o : Operation}
    {c : Connection}
    {b : BoundCommand}
    {limit deadline time : Nat}
    (h : Begins may s w o c w₁)
    (hBound : s.bound = some b) :
    Scene.Steps may ⟨[s], [], w.ledger⟩
      ⟨[{ s with link := .busy }], [o],
        beginning w₁.ledger c b limit deadline time⟩ := by
  refine h.goes.steps.tail ?_
  rcases o with ⟨session, kind, task, context⟩
  cases h.session
  cases h.task
  exact .started kind context limit deadline time rfl hBound
    h.transaction

theorem start_ends
    (may : Nat → Prop)
    (s : Session)
    (w : World)
    (kind : Operation.Kind) :
    Try.Ends (start kind) s w fun r s' w' =>
      (∃ o, r = .ok o ∧ o.session = s.id ∧ o.kind = kind ∧
        s' = { s with link := .busy } ∧ s.link ≠ .busy ∧
        Scene.Steps may ⟨[s], [], w.ledger⟩
          ⟨[s'], [o], w'.ledger⟩) ∨
      (∃ f, r = .error f ∧ Goes may s w s' w' ∧
        s'.inTransaction = s.inTransaction) := by
  refine (start_begins may s w kind).mono ?_
  rintro r s' w' (⟨o, c, b, w₁, rfl, hKind, rfl, hBusy, hBound,
    hBegins, limit, deadline, time, hWork⟩ | ⟨f, rfl, rfl, hSteps⟩)
  · refine .inl ⟨o, rfl, hBegins.session, hKind, rfl, hBusy, ?_⟩
    exact (hBegins.steps hBound).trans (Scene.Steps.around hWork)
  · exact .inr ⟨f, rfl, .around hSteps, rfl⟩

------------------------------------------------------------
-- The end of the work
------------------------------------------------------------

/-
  A session that has failed and has no connection, as is left
  of one that lost it.
-/
def Lost
    {α : Type}
    (s : Session)
    (r : Except Failure α)
    (i : Nat) : Prop :=
  i = s.id ∧ s.link = .closed ∧ ∃ f, r = .error f

/-
  A session takes the end of an operation in, which is its
  own if it succeeds.  Nothing but the loss of its connection
  ends its transaction.
-/
structure Takes
    {α : Type}
    (s : Session)
    (o : Operation)
    (w : World)
    (r : Except Failure α)
    (s' : Session)
    (w' : World) : Prop where
  id : s'.id = s.id
  repository : s'.repository = s.repository
  own : ∀ a, r = .ok a → o.session = s.id
  steps : Scene.Steps (Lost s' r)
    ⟨[s], [o], w.ledger⟩ ⟨[s'], [], w'.ledger⟩

/- The session goes on with a result that is no better. -/
theorem Takes.trans
    {α β : Type}
    {s s₁ s' : Session}
    {o : Operation}
    {w w₁ w' : World}
    {r : Except Failure α}
    {r' : Except Failure β}
    (h : Takes s o w r s₁ w₁)
    (hGoes : Goes (fun _ => False) s₁ w₁ s' w')
    (hLink : s₁.link = .closed → s'.link = .closed)
    (hFail : ∀ f, r = .error f → ∃ f', r' = .error f') :
    Takes s o w r' s' w' where
  id := hGoes.id.trans h.id
  repository := hGoes.repository.trans h.repository
  own := by
    intro a hOk
    cases r with
    | ok b => exact h.own b rfl
    | error f =>
        rcases hFail f rfl with ⟨f', hError⟩
        cases hOk.symm.trans hError
  steps := by
    have hImp (i : Nat) (hI : Lost s₁ r i) : Lost s' r' i := by
      rcases hI with ⟨rfl, hClosed, f, hError⟩
      exact ⟨hGoes.id.symm, hLink hClosed, hFail f hError⟩
    refine (h.steps.mono hImp).trans ?_
    exact hGoes.steps.mono fun _ hFalse => hFalse.elim

/-
  What the end of a task gives: its result or what it was
  stopped by, or a failure of its own if the task is lost.
-/
inductive Gives
    (l : Ledger)
    (id : Nat) : Reply → Prop where
  | finished
      {t : Task}
      {c : Connection}
      {result : Reply}
      (hTask : l.task? id = some t)
      (hState : t.state = .finished c result) : Gives l id result
  | stopped
      {t : Task}
      {f : Failure}
      (hTask : l.task? id = some t)
      (hState : t.state = .stopped f) : Gives l id (.error f)
  | lost
      {f : Failure}
      (hLate : f.isPreExecution = false) : Gives l id (.error f)

/-
  The work has ended and the connection is back or lost.  An
  operation of another session is dropped.
-/
theorem finish_ends
    (s : Session)
    (o : Operation)
    (w : World) :
    Try.Ends (finish o) s w fun r s' w' =>
      (∃ f, r = .error f ∧ o.session ≠ s.id ∧
        Takes s o w (.error f : Reply) s' w' ∧
        f.isPreExecution = false) ∨
      (∃ reply, r = .ok reply ∧ o.session = s.id ∧
        Takes s o w reply s' w' ∧
        ∃ l, w.ledger.Steps l ∧ SendsNothing l.log w'.log ∧
          Gives l o.task reply) := by
  unfold finish
  rw [Try.ends_bind, Try.ends_get]
  simp only
  split
  · next hOther =>
    refine .inl ⟨_, rfl, hOther, ⟨rfl, rfl, nofun, ?_⟩, rfl⟩
    exact .single (.dropped o)
  · next hOwn =>
    have hSession : o.session = s.id := Decidable.not_not.mp hOwn
    rw [Try.ends_bind, Try.ends_liftEffect]
    refine (World.await_ends o.task w).mono ?_
    rintro state w₁ ⟨l, hGoes, hLedger, hState, hEnd⟩
    have hLog : w₁.log = l.log := congrArg Ledger.log hLedger
    have hBefore (may : Nat → Prop) :
        Scene.Steps may ⟨[s], [o], w.ledger⟩ ⟨[s], [o], l⟩ :=
      .around hGoes
    have hLost
        (hTask : ∀ t, l.task? o.task = some t → t.IsLost)
        (f : Failure) :
        Takes s o w (.error f : Reply)
          { s with link := .closed, inTransaction := false }
          { w₁ with
            active := w₁.active - 1
            log := w₁.log ++
              [.connectionClosed (World.connectionInfo
                s.repository (w₁.active - 1))] } := by
      refine ⟨rfl, rfl, nofun, (hBefore _).tail ?_⟩
      change Scene.Step _ _ ⟨_, _, w₁.ledger.unlink s.repository⟩
      rw [hLedger]
      exact .lost hSession hTask fun _ => ⟨rfl, rfl, f, rfl⟩
    cases hTask : l.task? o.task with
    | none =>
        rw [hTask] at hState hLost
        subst hState
        refine .inr ⟨_, rfl, hSession, hLost nofun _, l, hGoes, ?_,
          .lost rfl⟩
        exact hLog ▸ .noted fun _ => rfl
    | some t =>
        rw [hTask] at hState hLost
        have hSome (h : t.IsLost) :
            ∀ u, some t = some u → u.IsLost := by
          rintro u hSame
          cases hSame
          exact h
        change state = t.state at hState
        subst hState
        cases hCase : t.state with
        | waiting time p reply =>
            have hWaiting := hEnd t hTask
            simp [Task.isWaiting, Task.due?, hCase] at hWaiting
        | finished c result =>
            refine .inr ⟨result, rfl, hSession, ⟨rfl, rfl,
              fun _ _ => hSession, (hBefore _).tail ?_⟩, l, hGoes,
              hLog ▸ .refl _, .finished hTask hCase⟩
            change Scene.Step _ _ ⟨_, _, w₁.ledger⟩
            rw [hLedger]
            exact .returned hSession hTask hCase
        | stopped f =>
            refine .inr ⟨_, rfl, hSession, hLost ?_ f, l, hGoes, ?_,
              .stopped hTask hCase⟩
            · exact hSome (.inl ⟨f, hCase⟩)
            · exact hLog ▸ .noted fun _ => rfl
        | died =>
            refine .inr ⟨_, rfl, hSession, hLost ?_ _, l, hGoes, ?_,
              .lost rfl⟩
            · exact hSome (.inr hCase)
            · exact hLog ▸ .noted fun _ => rfl

------------------------------------------------------------
-- Settling
------------------------------------------------------------

variable (s : Session) (w : World)

theorem recordOutcome_ends
    (context : Operation.Context)
    (cause : Option Failure)
    (reported : Bool) :
    Act.Ends (recordOutcome context cause reported) s w
      fun _ s' w' => s' = s ∧ w.ledger.Steps w'.ledger := by
  cases cause with
  | none =>
      refine ⟨rfl, ?_⟩
      exact .tail (.single (.noted _ rfl)) (.noted _ rfl)
  | some f =>
      refine ⟨?_, ?_⟩
      · cases reported <;> rfl
      · cases reported with
        | true =>
            exact .tail (.single (.noted _ rfl)) (.noted _ rfl)
        | false =>
            exact .tail
              (.tail (.single (.noted _ rfl)) (.noted _ rfl))
              (.noted _ rfl)

/- A connection inside a transaction stays. -/
theorem closeOpenedHere_goes (context : Operation.Context) :
    Act.Ends (closeOpenedHere context) s w fun _ s' w' =>
      Goes (fun _ => False) s w s' w' ∧
        (s.link = .closed → s'.link = .closed) := by
  unfold closeOpenedHere
  rw [Act.ends_bind, Act.ends_get]
  split
  · next hClose =>
    have hFalse : s.inTransaction = false := by
      simpa using (Bool.and_eq_true_iff.mp hClose).2
    have hMay (h : s.inTransaction = true) : False := by
      rw [hFalse] at h
      cases h
    refine (closeLink_goes (fun _ => False) s w hMay).bind ?_
    rintro r s' w' ⟨hGoes, hLink⟩
    have hClosed (h : s.link = .closed) : s'.link = .closed := by
      rcases hLink with ⟨-, rfl⟩ | rfl
      · exact h
      · rfl
    cases r with
    | ok _ => exact ⟨hGoes, hClosed⟩
    | error f =>
        exact ⟨hGoes.trans (.around (.single (.noted _ rfl))),
          hClosed⟩
  · exact ⟨.refl s w, fun h => h⟩

theorem settle_goes
    (context : Operation.Context)
    (cause : Option Failure)
    (reported : Bool) :
    Act.Ends (settle context cause reported) s w fun _ s' w' =>
      Goes (fun _ => False) s w s' w' ∧
        (s.link = .closed → s'.link = .closed) := by
  unfold settle
  refine (recordOutcome_ends s w context cause reported).bind ?_
  rintro _ _ w₁ ⟨rfl, hRecorded⟩
  refine (closeOpenedHere_goes _ w₁ context).mono ?_
  rintro _ s' w' ⟨hGoes, hLink⟩
  exact ⟨.trans (.around hRecorded) hGoes, hLink⟩

theorem settled_ends
    {α : Type}
    (context : Operation.Context)
    (result : Except Failure α) :
    Try.Ends (settled context result) s w fun r s' w' =>
      r = result ∧ Goes (fun _ => False) s w s' w' ∧
        (s.link = .closed → s'.link = .closed) := by
  unfold settled
  cases result with
  | ok a =>
      rw [Try.ends_bind, Try.ends_liftAct]
      refine (settle_goes s w context none false).mono ?_
      intro _ s' w' h
      exact ⟨rfl, h⟩
  | error f =>
      rw [Try.ends_bind, Try.ends_liftAct]
      refine (settle_goes s w context (some f) false).mono ?_
      intro _ s' w' h
      exact ⟨rfl, h⟩

------------------------------------------------------------
-- Results
------------------------------------------------------------

/- The command takes the output values that came back. -/
theorem applyOutputs_goes
    (may : Nat → Prop)
    (outputs : OutputValues) :
    Goes may s w
      { s with command := s.command.map (·.storeOutputs outputs) }
      w :=
  .changed s _ s.bound (.stored outputs) w

/- A failure stays one, and else the outputs are stored. -/
theorem takeWhole_goes (reply : Reply) :
    Act.Ends (takeWhole reply) s w fun r s' w' =>
      Goes (fun _ => False) s w s' w' ∧ s'.link = s.link ∧
        r = Progress.whole reply := by
  unfold takeWhole
  cases hWhole : Progress.whole reply with
  | error f => exact ⟨.refl s w, rfl, rfl⟩
  | ok o => exact ⟨applyOutputs_goes s w _ o.outputs, rfl, rfl⟩

/-
  What is made of the end of an operation's work: an outcome
  without failures is turned into a result, and settled.
-/
theorem settleWhole_ends
    {α : Type}
    {s s₁ : Session}
    {w w₁ : World}
    {o : Operation}
    {reply : Reply}
    (hTakes : Takes s o w reply s₁ w₁)
    (result : Reply → Except Failure α)
    (hError : ∀ f, ∃ f', result (.error f) = .error f') :
    Try.Ends (do
        let whole ← ExceptT.lift (takeWhole reply)
        settled o.context (result whole)) s₁ w₁
      (Takes s o w) := by
  rw [Try.ends_bind, Try.ends_lift]
  refine (takeWhole_goes s₁ w₁ reply).mono ?_
  rintro whole s₂ w₂ ⟨hGoes₂, hLink₂, rfl⟩
  refine (settled_ends s₂ w₂ o.context _).mono ?_
  rintro r s' w' ⟨rfl, hGoes, hLink⟩
  refine hTakes.trans (hGoes₂.trans hGoes) ?_ ?_
  · intro hClosed
    exact hLink (hLink₂.trans hClosed)
  · intro f hReply
    rw [hReply]
    exact hError f

theorem completeNonQuery_ends (o : Operation) :
    Try.Ends (completeNonQuery o) s w (Takes s o w) := by
  unfold completeNonQuery
  rw [Try.ends_bind]
  refine (finish_ends s o w).mono ?_
  rintro r s₁ w₁ (⟨f, rfl, -, hTakes, -⟩ |
    ⟨reply, rfl, -, hTakes, -⟩)
  · exact hTakes.trans (.refl s₁ w₁) (fun h => h)
      fun _ _ => ⟨f, rfl⟩
  · exact settleWhole_ends hTakes _ fun f => ⟨f, rfl⟩

theorem completeScalar_ends
    (o : Operation)
    (t : Target) :
    Try.Ends (completeScalar o t) s w (Takes s o w) := by
  unfold completeScalar
  rw [Try.ends_bind]
  refine (finish_ends s o w).mono ?_
  rintro r s₁ w₁ (⟨f, rfl, -, hTakes, -⟩ |
    ⟨reply, rfl, -, hTakes, -⟩)
  · exact hTakes.trans (.refl s₁ w₁) (fun h => h)
      fun _ _ => ⟨f, rfl⟩
  · simp only
    rw [Try.ends_bind, Try.ends_get]
    exact settleWhole_ends hTakes _ fun f => ⟨f, rfl⟩

theorem completeRows_ends (o : Operation) :
    Try.Ends (completeRows o) s w (Takes s o w) := by
  unfold completeRows
  rw [Try.ends_bind]
  refine (finish_ends s o w).mono ?_
  rintro r s₁ w₁ (⟨f, rfl, -, hTakes, -⟩ |
    ⟨reply, rfl, -, hTakes, -⟩)
  · exact hTakes.trans (.refl s₁ w₁) (fun h => h)
      fun _ _ => ⟨f, rfl⟩
  cases reply with
  | error f =>
      refine (settled_ends s₁ w₁ o.context (.error f)).mono ?_
      rintro r s' w' ⟨rfl, hGoes, hLink⟩
      exact hTakes.trans hGoes hLink fun _ _ => ⟨f, rfl⟩
  | ok outcome =>
      exact hTakes.trans (applyOutputs_goes s₁ w₁ _ outcome.outputs)
        (fun h => h) nofun

/- The reader of an operation has the session from then on. -/
theorem openReader_ends (o : Operation) :
    Effect.Ends (s.openReader o) w fun x w' =>
      Takes s o w x.1 x.2 w' ∧
        ∀ r, x.1 = .ok r → r.session = x.2 := by
  unfold openReader
  rw [Effect.ends_bind, Act.ends_run, Try.ends_run]
  refine (completeRows_ends s w o).mono ?_
  intro r s' w' hTakes
  cases r with
  | ok outcome =>
      have hReader : Takes s o w
          (.ok (s'.reader o.context outcome) :
            Except Failure Reader) s' w' :=
        hTakes.trans (.refl s' w') (fun h => h) nofun
      refine ⟨hReader, fun r h => ?_⟩
      cases h
      rfl
  | error f =>
      have hFail : Takes s o w
          (.error f : Except Failure Reader) s' w' :=
        hTakes.trans (.refl s' w') (fun h => h)
          fun _ _ => ⟨f, rfl⟩
      refine ⟨hFail, ?_⟩
      intro r (h : Except.error f = Except.ok r)
      cases h

/- An operation from its start to its end. -/
theorem run_ends
    {α : Type}
    (kind : Operation.Kind)
    (complete : Operation → Try α)
    (hComplete : ∀ o s w,
      Try.Ends (complete o) s w (Takes s o w)) :
    Try.Ends (do complete (← start kind)) s w fun r s' w' =>
      s'.id = s.id ∧ s'.repository = s.repository ∧
        Scene.Steps (Lost s' r) ⟨[s], [], w.ledger⟩
          ⟨[s'], [], w'.ledger⟩ := by
  rw [Try.ends_bind]
  refine (start_ends (fun _ => False) s w kind).mono ?_
  rintro x s₁ w₁ (⟨o, rfl, -, -, rfl, -, hGoes₁⟩ |
    ⟨f, rfl, hGoes₁, -⟩)
  · refine (hComplete o _ w₁).mono ?_
    intro r s' w' hTakes
    refine ⟨hTakes.id, hTakes.repository, ?_⟩
    exact (hGoes₁.mono fun _ h => h.elim).trans hTakes.steps
  · refine ⟨hGoes₁.id, hGoes₁.repository, ?_⟩
    exact hGoes₁.steps.mono fun _ h => h.elim

end Session

end Failover
