import Failover.Proofs.Health.Release
import Failover.Proofs.Operation.Settle
import Failover.Proofs.Scene.Request
import Failover.Proofs.Session.Proper
import Failover.Proofs.Transaction.Within

/-
  Operations from their start to the very end, which for rows
  is the end of the reader.  The session is left as it was, or
  without its connection if this was lost, and one outcome is
  recorded and told.

  Key definitions include:
    * `Reader.Use`, `Reader.shown`
    * `Entry.spend`, `Entry.succeeds`
    * `Session.Restored`, `Session.Settles`

  Main statements:
    * `World.work_keeps`
    * `Reader.uses_settle`
    * `Session.spend_settles`
    * `Workspace.run_settles_once`
-/

namespace Failover

------------------------------------------------------------
-- Connections
------------------------------------------------------------

/- A task that works on a connection goes on to do so. -/
theorem Ledger.Steps.task?_isOn
    {l l' : Ledger}
    {id : Nat}
    {k : Connection}
    (hNodup : l.taskIds.Nodup)
    (hOn : ∀ t, l.task? id = some t → t.IsOn k)
    (h : l.Steps l') :
    ∀ t, l'.task? id = some t → t.IsOn k := by
  have hBoth : l'.taskIds.Nodup ∧
      ∀ t, l'.task? id = some t → t.IsOn k := by
    induction h with
    | refl => exact ⟨hNodup, hOn⟩
    | tail _ hStep ih =>
        refine ⟨ih.1.sublist hStep.taskIds.1, fun t' hTask => ?_⟩
        rcases hStep.task? ih.1 hTask with ⟨t, hOld, hKept⟩
        exact hKept k (ih.2 t hOld)
  exact hBoth.2

/- Work gives back the connection on which it has begun. -/
theorem World.work_keeps
    {w w₁ w₂ : World}
    {k k' : Connection}
    {limit id : Nat}
    {b : BoundCommand}
    {result : Reply}
    (hNodup : w.ledger.taskIds.Nodup)
    (hStarted : ∀ i ∈ w.ledger.taskIds, i < w.ledger.started)
    (hBegun : Effect.Leads (spawn k limit b) w id w₁)
    (hEnd : Effect.Leads (await id) w₁ (.finished k' result) w₂) :
    k' = k := by
  have hSpawned := (hBegun.ends_iff _).mp (spawn_ends k limit b w)
  have hAwaited := (hEnd.ends_iff _).mp (await_ends id w₁)
  rcases hSpawned with ⟨rfl, deadline, time, hWork⟩
  rcases hAwaited with ⟨l, hSteps, -, hState, -⟩
  let s₀ := (Progress.start b).statement
  let t : Task := ⟨w.started, k, limit, deadline,
    .waiting time (.start b) (w.ledger.reply? k s₀)⟩
  let l₀ := (w.ledger.ask k s₀).start t
  have hThis : l₀.task? w.started = some t :=
    (Scene.task?_start (l := w.ledger.ask k s₀) (t := t)
      hStarted rfl).1
  have hApart : l₀.taskIds.Nodup := by
    change ((w.ledger.tasks ++ [t]).map (·.id)).Nodup
    rw [List.map_append]
    exact nodup_snoc hNodup hStarted
  have hFirst (t' : Task) (hTask : l₀.task? w.started = some t') :
      t'.IsOn k := by
    cases hThis.symm.trans hTask
    exact ⟨rfl, nofun⟩
  have hLast := Ledger.Steps.task?_isOn hApart hFirst
    (hWork.trans hSteps)
  cases hFound : l.task? w.started with
  | none =>
      rw [hFound] at hState
      cases hState
  | some t' =>
      rw [hFound] at hState
      exact (hLast t' hFound).finished k' result hState.symm

------------------------------------------------------------
-- Readers
------------------------------------------------------------

namespace Reader

variable {a : Reader} (w : World)

/- What is done with a reader until it is dropped. -/
inductive Use where
  | move (m : Move)
  | release

def Use.act : Use → Act Unit
  | .move m => discard m.act
  | .release => Reader.release

def Move.how : Move → Cursor → Cursor.Moved
  | .read => Cursor.read
  | .nextResult => Cursor.nextResult

/- The failure that has shown when a reader is released. -/
def shown : List Use → Cursor → Option Failure
  | [], k => k.failure
  | .release :: _, k => k.failure
  | .move m :: us, k => shown us (m.how k).cursor

/- All that is done with a reader.  To drop it releases it. -/
def spend (us : List Use) : Act Unit := do
  us.forM Use.act
  release

/- Using a reader that was released changes nothing. -/
theorem use_released
    (u : Use)
    (hReleased : a.released = true) :
    Act.Ends u.act a w fun _ a' w' => a' = a ∧ w' = w := by
  have hMove (complaint : String) (how : Cursor → Cursor.Moved) :
      Act.Ends (discard (move complaint how)) a w
        fun _ a' w' => a' = a ∧ w' = w := by
    unfold move
    rw [Act.ends_discard, Act.ends_bind, Act.ends_get,
      if_pos hReleased]
    exact ⟨rfl, rfl⟩
  cases u with
  | move m =>
      cases m with
      | read => exact hMove _ _
      | nextResult => exact hMove _ _
  | release =>
      change Act.Ends Reader.release a w _
      unfold Reader.release
      rw [Act.ends_bind, Act.ends_get, hReleased]
      exact ⟨rfl, rfl⟩

theorem spend_released
    (us : List Use)
    (hReleased : a.released = true) :
    Act.Ends (spend us) a w fun _ a' w' => a' = a ∧ w' = w := by
  induction us with
  | nil => exact use_released w .release hReleased
  | cons u us ih =>
      refine Act.Ends.bind (P := fun _ a' w' => a' = a ∧ w' = w)
        (f := fun _ => spend us) (use_released w u hReleased) ?_
      rintro _ _ _ ⟨rfl, rfl⟩
      exact ih

/- The reader moves, and its session stays as it is. -/
theorem act_unreleased
    (m : Move)
    (hHeld : a.released = false) :
    Act.Ends m.act a w fun more a' w' =>
      more = (m.how a.cursor).hasMore ∧
        a' = { a with cursor := (m.how a.cursor).cursor } ∧
        w.Unrecorded w' := by
  have hMove (complaint : String) (how : Cursor → Cursor.Moved) :
      Act.Ends (move complaint how) a w fun more a' w' =>
        more = (how a.cursor).hasMore ∧
          a' = { a with cursor := (how a.cursor).cursor } ∧
          w.Unrecorded w' := by
    unfold move
    rw [Act.ends_bind, Act.ends_get, hHeld]
    simp only [Bool.false_eq_true, if_false]
    rw [Act.ends_bind, Act.ends_set]
    cases (how a.cursor).shown with
    | some f => exact ⟨rfl, rfl, .noted rfl rfl rfl⟩
    | none => exact ⟨rfl, rfl, .same rfl rfl⟩
  cases m with
  | read => exact hMove _ _
  | nextResult => exact hMove _ _

theorem move_unreleased
    (m : Move)
    (hHeld : a.released = false) :
    Act.Ends (Use.move m).act a w fun _ a' w' =>
      a' = { a with cursor := (m.how a.cursor).cursor } ∧
        w.Unrecorded w' := by
  change Act.Ends (discard m.act) a w _
  rw [Act.ends_discard]
  exact (act_unreleased w m hHeld).mono fun _ _ _ h => h.2

/- The session and the world when a reader is done with. -/
structure Settled
    (a : Reader)
    (w : World)
    (cause : Option Failure)
    (s' : Session)
    (w' : World) : Prop where
  session : s' = a.session.rested a.context
  tells : w.Tells [(a.session.repository.name, cause.isNone)]
    [a.session.verdict a.context cause.isNone] w'

theorem release_settles (hHeld : a.released = false) :
    Act.Ends release a w fun _ a' w' =>
      a'.released = true ∧
        Settled a w a.cursor.failure a'.session w' := by
  unfold release
  rw [Act.ends_bind, Act.ends_get, hHeld]
  simp only [Bool.not_false, if_true]
  rw [Act.ends_bind, Act.ends_set, ends_onSession]
  refine (Session.settle_tells w a.context a.cursor.failure
    true).mono ?_
  intro _ s' w' hSettled
  exact ⟨rfl, hSettled.1, hSettled.2.1⟩

/-
  However a reader is used, its operation is over once, with
  the failure that had shown when it was first released.
-/
theorem spend_settles
    (us : List Use)
    (hHeld : a.released = false) :
    Act.Ends (spend us) a w fun _ a' w' =>
      Settled a w (shown us a.cursor) a'.session w' := by
  induction us generalizing a w with
  | nil =>
      refine (release_settles w hHeld).mono ?_
      intro _ a' w' hReleased
      exact hReleased.2
  | cons u us ih =>
      change Act.Ends (u.act >>= fun _ => spend us) a w _
      cases u with
      | release =>
          refine (release_settles w hHeld).bind ?_
          intro _ a₁ w₁ hReleased
          refine (spend_released w₁ us hReleased.1).mono ?_
          rintro _ _ _ ⟨rfl, rfl⟩
          exact hReleased.2
      | move m =>
          refine (move_unreleased w m hHeld).bind ?_
          rintro _ _ w₁ ⟨rfl, hMoved⟩
          let a₁ := { a with cursor := (m.how a.cursor).cursor }
          refine (ih (a := a₁) w₁ hHeld).mono ?_
          intro _ a' w' hSettled
          exact ⟨hSettled.session, .after hMoved hSettled.tells⟩

end Reader

------------------------------------------------------------
-- Operations
------------------------------------------------------------

namespace Entry

/- What is done with a result before the session is back. -/
def useAll
    (us : List Reader.Use) :
    (e : Entry) → e.Output → Session.Act Unit
  | .reader, a => do
      let (_, a) ← liftM ((Reader.spend us).run a)
      set a.session
  | _, _ => return ()

/- The bound command is run, and a reader of rows is used. -/
def spend
    (us : List Reader.Use)
    (e : Entry) : Session.Try e.View := do
  let a ← e.run
  e.useAll us a
  return e.view a

theorem spend_eq
    (us : List Reader.Use)
    (e : Entry) :
    e.spend us = (do
      let o ← Session.start e.kind
      let reply ← Session.finish o
      let a ← e.conclude o reply
      e.useAll us a
      return e.view a) := by
  unfold spend
  rw [run_eq]
  simp only [bind_assoc]

/- Whether the outcome that is recorded is a success. -/
def succeeds
    (us : List Reader.Use)
    (repository : String) : Entry → Reply → Bool
  | .reader, .error _ => false
  | .reader, .ok o => (Reader.shown us (.ofSets o.sets)).isNone
  | e, reply => (e.result repository reply).isOk

/- A result that is over at once is used up without effect. -/
theorem useAll_over
    {e : Entry}
    {s : Session}
    {w : World}
    {a : e.Output}
    (us : List Reader.Use)
    (hOver : e.settles true = true) :
    Act.Leads (e.useAll us a) s w () s w := by
  cases e with
  | scalar t => rfl
  | nonQuery => rfl
  | reader => cases hOver

/-
  An operation that is over at once is a success if it has a
  result.
-/
theorem succeeds_over
    {e : Entry}
    {repository : String}
    {reply : Reply}
    {ok : Bool}
    (us : List Reader.Use)
    (hOver : e.settles ok = true)
    (hResult : (e.result repository reply).isOk = ok) :
    e.succeeds us repository reply = ok := by
  cases e with
  | scalar t => exact hResult
  | nonQuery => exact hResult
  | reader =>
      cases reply with
      | error f => exact hResult
      | ok o =>
          change true = ok at hResult
          rw [← hResult] at hOver
          cases hOver

/-
  The reply to an operation settles it, with its result and
  its outcome.
-/
theorem conclude_settles
    {s : Session}
    {o : Operation}
    (e : Entry)
    (us : List Reader.Use)
    (w : World)
    (reply : Reply) :
    Try.Ends (do
        let a ← e.conclude o reply
        e.useAll us a
        return e.view a) s w fun x s' w' =>
      x = e.result s.repository.name reply ∧
      (∃ command, s' = { s.rested o.context with command }) ∧
      w.Tells
        [(s.repository.name,
          e.succeeds us s.repository.name reply)]
        [s.verdict o.context
          (e.succeeds us s.repository.name reply)] w' := by
  rw [Try.ends_bind]
  refine (e.conclude_concludes w reply).mono ?_
  intro x s₁ w₁ hConcludes
  cases hConcludes with
  | complete x command w' hOver hResult hTells =>
      have hSame : (e.result s.repository.name reply).isOk =
          x.isOk := by
        rw [← hResult]
        cases x <;> rfl
      rw [succeeds_over us hOver hSame]
      cases x with
      | error f => exact ⟨hResult, ⟨command, rfl⟩, hTells⟩
      | ok a =>
          simp only
          rw [Try.ends_bind, Try.ends_liftAct,
            (useAll_over us hOver).ends_iff]
          exact ⟨hResult, ⟨command, rfl⟩, hTells⟩
  | reading a outcome command hReply hReader =>
      subst hReply
      subst hReader
      simp only [Try.ends_bind, Try.ends_liftAct]
      unfold useAll
      rw [Act.ends_bind, Act.ends_lift, Act.ends_run]
      refine (Reader.spend_settles w us rfl).mono ?_
      intro _ a' w' hSettled
      refine ⟨rfl, ⟨command, ?_⟩, hSettled.tells⟩
      change a'.session = _
      rw [hSettled.session]
      exact Session.rested_command s command o.context

end Entry

/- The work has ended and gives its connection back. -/
def Task.State.givesBack : Task.State → Bool
  | .finished _ _ => true
  | _ => false

namespace Session

/-
  The session has the connection and the transaction that it
  had, unless the work has ended without its connection.
-/
structure Restored
    (s : Session)
    (state : Task.State)
    (s' : Session) : Prop where
  link : s'.link = if state.givesBack then s.link else .closed
  transaction :
    s'.inTransaction = (state.givesBack && s.inTransaction)

/-
  How an operation goes from its start to the end of its use.
  Its result is made of the reply with which its work ended.
-/
inductive Settles
    (s : Session)
    (w : World)
    (c : Command)
    (us : List Reader.Use)
    (e : Entry) :
    Except Failure e.View → Session → World → Prop where
  | unavailable (f : Failure) (info : ConnectionInfo) (w' : World)
      (hLink : s.link = .closed)
      (hTells : w.Tells [(s.repository.name, false)]
        [.connectionFailed info] w') :
      Settles s w c us e (.error f) s w'
  | ran (o : Operation) (state : Task.State)
      (x : Except Failure e.View) (ok : Bool) (s' : Session)
      (w₁ w₂ w' : World)
      (hStart : Act.Leads (start e.kind).run s w (.ok o)
        { s with link := .busy } w₁)
      (hEnd : Effect.Leads (World.await o.task) w₁ state w₂)
      (hResult : x = e.result s.repository.name
        (state.reply s.repository.name))
      (hOk : ok = e.succeeds us s.repository.name
        (state.reply s.repository.name))
      (hRestored : s.Restored state s')
      (hTells : w.Tells [(s.repository.name, ok)]
        [.commandEnded s.repository.name c.text ok] w') :
      Settles s w c us e x s' w'

variable {s : Session} {c : Command} {b : BoundCommand} (w : World)

/- The connection that comes back is closed if it was new. -/
theorem restored_rested
    {k : Connection}
    {context : Operation.Context}
    {state : Task.State}
    (hProper : s.IsProper)
    (hLink : s.link =
      if context.openedHere then .closed else .opened k)
    (hKeeps : ∀ k' result, state = .finished k' result → k' = k) :
    s.Restored state
      ((after { s with link := .busy } state).rested context) := by
  have hOutside (hClosed : s.link = .closed) :
      s.inTransaction = false := by
    by_contra hIn
    exact hProper.transaction (Bool.eq_true_of_not_eq_false hIn)
      hClosed
  unfold rested
  cases state with
  | finished k' result =>
      cases hKeeps k' result rfl
      cases hOpened : context.openedHere with
      | true =>
          rw [hOpened] at hLink
          have hFalse := hOutside hLink
          refine ⟨?_, ?_⟩
          · simp [after, hFalse, hLink, Task.State.givesBack]
          · simp [after, hFalse, Task.State.givesBack]
      | false =>
          rw [hOpened] at hLink
          exact ⟨hLink.symm, rfl⟩
  | _ =>
      refine ⟨?_, ?_⟩
      · cases context.openedHere <;> rfl
      · cases context.openedHere <;> rfl

/- A session keeps its repository as its work ends. -/
theorem after_repository
    (s : Session)
    (state : Task.State) :
    (s.after state).repository = s.repository := by
  cases state <;> rfl

theorem spend_settles
    (e : Entry)
    (us : List Reader.Use)
    (hProper : s.IsProper)
    (hNodup : w.ledger.taskIds.Nodup)
    (hStarted : ∀ i ∈ w.ledger.taskIds, i < w.ledger.started)
    (hUsable : s.disposed = false)
    (hFree : s.link ≠ .busy)
    (hCommand : s.command = some c)
    (hBound : s.bound = some b) :
    Try.Ends (e.spend us) s w (Settles s w c us e) := by
  rcases Act.exists_leads s w (start e.kind).run with
    ⟨x, s₁, w₁, hStart⟩
  have hBegun : Begun s w c b x s₁ w₁ :=
    (hStart.ends_iff _).mp
      (start_begun w e.kind hUsable hFree hCommand hBound)
  rw [Entry.spend_eq, Try.ends_bind]
  refine (hStart.ends_iff _).mpr ?_
  cases hBegun with
  | unavailable f info w' hLink hTells =>
      exact .unavailable f info _ hLink hTells
  | started o k w₂ w' hOwn hText hLink hApart hWork =>
      simp only
      rw [Try.ends_bind]
      refine (finish_tells (s := { s with link := .busy }) w₁
        hOwn).mono ?_
      rintro _ _ w₃ ⟨state, w₄, hEnd, rfl, rfl, hFinished⟩
      simp only
      refine (e.conclude_settles us w₃ _).mono ?_
      rintro x _ w₅ ⟨hResult, ⟨command, rfl⟩, hTells⟩
      unfold verdict at hTells
      rw [after_repository] at hResult hTells
      rw [hText] at hTells
      have hKeeps (k' result) (hSame : state = .finished k' result) :
          k' = k := by
        subst hSame
        have hTasks : w₂.ledger.taskIds = w.ledger.taskIds :=
          congrArg (List.map Task.id) hApart.tasks
        refine World.work_keeps (hTasks ▸ hNodup) ?_ hWork hEnd
        intro i hI
        exact Nat.lt_of_lt_of_eq (hStarted i (hTasks ▸ hI))
          hApart.started.symm
      have hRestored := restored_rested hProper hLink hKeeps
      refine .ran o state x _ _ w₁ w₄ w₅ hStart hEnd hResult rfl
        ⟨hRestored.link, hRestored.transaction⟩ ?_
      have hSpawned := (hWork.ends_iff _).mp
        (World.spawn_recordsNothing k _ b w₂)
      exact .after (hApart.unrecorded.trans
        (hSpawned.trans hFinished)) hTells

end Session

namespace Workspace

/-
  After any requests: an operation of a session that is free
  and has a command leaves the session as it was, or without
  its connection if this was lost.  It records one outcome and
  tells one, whatever the engines do, however its rows are
  read, and whether or not a connection can be closed.
-/
theorem run_settles_once
    (d : DataAccess)
    (backend : String → Backend)
    (qs : List Request) :
    Act.Ends (run qs) (ofAccess d) (World.initial backend)
      fun _ ws w =>
        ∀ s ∈ ws.heldSessions, s.disposed = false →
          s.link ≠ .busy → ∀ c, s.command = some c →
            ∀ (e : Entry) (us : List Reader.Use),
              Try.Ends (e.spend us) s w (s.Settles w c us e) := by
  refine (run_follows qs (ofAccess d) (World.initial backend)
    (tidy_ofAccess d)).mono ?_
  intro _ ws w hFollows s hMem hUsable hFree c hCommand e us
  have hInitial := Scene.Sound.initial backend
  have hNumbered := (hInitial.steps hFollows.steps).numbered
  have hProper : (ws.scene w [] []).Proper :=
    (Scene.Proper.initial _).steps hInitial hFollows.steps
  have hBound := (hProper s hMem).command
  rw [hCommand, Option.isSome_some] at hBound
  rcases Option.isSome_iff_exists.mp hBound.symm with ⟨b, hBound⟩
  exact Session.spend_settles w e us (hProper s hMem)
    hNumbered.tasks hNumbered.started hUsable hFree hCommand
    hBound

end Workspace

end Failover
