import Failover.Proofs.Scene.Request
import Failover.Proofs.Session.Proper

/-
  What a session can be asked for, and when it is refused: an
  operation that is under way keeps it from all else, and
  after its end it does nothing any more.

  Key definitions include:
    * `Session.Use`, `Session.Use.act`
    * `Session.Use.NeedsRest`

  Main statements:
    * `Session.refused_while_busy`
    * `Session.idle_after_dispose`
    * `Workspace.run_sessions`
-/

namespace Failover

namespace Session

------------------------------------------------------------
-- Uses
------------------------------------------------------------

/- One use of a session, with all that it is given. -/
inductive Use where
  | setCommand (c : Command)
  | takeCommand
  | connect
  | begin
  | commit
  | rollback
  | dispose
  | start (kind : Operation.Kind)
  | completeNonQuery (o : Operation)
  | completeScalar (o : Operation) (t : Target)
  | completeRows (o : Operation)
  | executeNonQuery
  | executeScalar (t : Target)

namespace Use

/- What a use does, without the result of one that succeeds. -/
def act : Use → Try Unit
  | .setCommand c => Session.setCommand c
  | .takeCommand => discard (ExceptT.lift Session.takeCommand)
  | .connect => Session.connect
  | .begin => Session.begin
  | .commit => Session.commit
  | .rollback => Session.rollback
  | .dispose => Session.dispose
  | .start kind => discard (Session.start kind)
  | .completeNonQuery o => discard (Session.completeNonQuery o)
  | .completeScalar o t => discard (Session.completeScalar o t)
  | .completeRows o => discard (Session.completeRows o)
  | .executeNonQuery => discard Session.executeNonQuery
  | .executeScalar t => discard (Session.executeScalar t)

/- The operation that is to be completed. -/
def operation? : Use → Option Operation
  | .completeNonQuery o => some o
  | .completeScalar o _ => some o
  | .completeRows o => some o
  | _ => none

/- The uses of a session that is not at work. -/
def NeedsRest (s : Session) : Use → Prop
  | .setCommand _ => True
  | .takeCommand => False
  | .connect => True
  | .begin => True
  | .commit => s.inTransaction = true
  | .rollback => s.inTransaction = true
  | .dispose => True
  | .start _ => True
  | .completeNonQuery _ => False
  | .completeScalar _ _ => False
  | .completeRows _ => False
  | .executeNonQuery => True
  | .executeScalar _ => True

end Use

------------------------------------------------------------
-- Refusals
------------------------------------------------------------

variable {s : Session} (w : World)

/- Nothing is done but to say that the state is wrong. -/
def Refused
    {α : Type}
    (s : Session)
    (w : World)
    (r : Except Failure α)
    (s' : Session)
    (w' : World) : Prop :=
  (∃ message,
    r = .error (.invalidState s.repository.name message)) ∧
    s' = s ∧ w' = w

/- A refusal ends the rest. -/
theorem Refused.bind
    {α β : Type}
    {w : World}
    {act : Try α}
    {f : α → Try β}
    (h : Try.Ends act s w (Refused s w)) :
    Try.Ends (act >>= f) s w (Refused s w) := by
  refine Try.Ends.bind h ?_ ?_
  · intro a s' w' hRefused
    rcases hRefused with ⟨⟨message, hFail⟩, -⟩
    cases hFail
  · intro x s' w' hRefused
    rcases hRefused with ⟨⟨message, hFail⟩, hSame⟩
    cases hFail
    exact ⟨⟨message, rfl⟩, hSame⟩

/- A refusal stays one if its result is thrown away. -/
theorem Refused.discard
    {α : Type}
    {w : World}
    {act : Try α}
    (h : Try.Ends act s w (Refused s w)) :
    Try.Ends (discard act) s w (Refused s w) := by
  rw [Try.ends_discard]
  refine h.mono ?_
  intro r s' w' hRefused
  rcases hRefused with ⟨⟨message, rfl⟩, hSame⟩
  exact ⟨⟨message, rfl⟩, hSame⟩

------------------------------------------------------------
-- Sessions at work
------------------------------------------------------------

/- A busy session does not open a connection. -/
theorem ensureOpen_refused (hLink : s.link = .busy) :
    Try.Ends ensureOpen s w (Refused s w) := by
  unfold ensureOpen
  rw [Try.ends_bind, Try.ends_get]
  simp only [hLink]
  exact ⟨⟨_, rfl⟩, rfl, rfl⟩

/-
  A session whose connection is in use does not end its
  transaction.
-/
theorem endTransaction_refused
    (e : Ending)
    (hTransaction : s.inTransaction = true)
    (hLink : s.link = .busy) :
    Try.Ends (endTransaction e) s w (Refused s w) := by
  unfold endTransaction
  rw [Try.ends_bind, Try.ends_get]
  simp only [hTransaction, hLink, if_true]
  exact ⟨⟨_, rfl⟩, rfl, rfl⟩

/-
  A session whose connection is in use begins no other
  transaction.
-/
theorem beginFresh_refused (hLink : s.link = .busy) :
    Try.Ends beginFresh s w (Refused s w) :=
  Refused.bind (Refused.discard (ensureOpen_refused w hLink))

section
variable (hUsable : s.disposed = false) (hLink : s.link = .busy)
include hUsable hLink

/- A session whose connection is in use takes no command. -/
theorem setCommand_refused (c : Command) :
    Try.Ends (setCommand c) s w (Refused s w) := by
  unfold setCommand
  simp only [Try.ends_bind, ends_ensureUsable, Try.ends_get,
    hUsable, hLink, if_true]
  exact ⟨⟨_, rfl⟩, rfl, rfl⟩

/- A session whose connection is in use does not connect. -/
theorem connect_refused :
    Try.Ends connect s w (Refused s w) := by
  unfold connect
  simp only [Try.ends_bind, ends_ensureUsable, hUsable]
  exact Refused.discard (ensureOpen_refused w hLink)

/- A transaction that is active cannot be ended either. -/
theorem begin_refused :
    Try.Ends begin s w (Refused s w) := by
  unfold begin
  simp only [Try.ends_bind, ends_ensureUsable, hUsable,
    Try.ends_get]
  by_cases hTransaction : s.inTransaction = true
  · simp only [hTransaction, if_true]
    exact Refused.bind
      (endTransaction_refused w .commit hTransaction hLink)
  · simp only [hTransaction]
    exact beginFresh_refused w hLink

/-
  A session whose connection is in use starts no other
  operation.
-/
theorem start_refused (kind : Operation.Kind) :
    Try.Ends (start kind) s w (Refused s w) := by
  unfold start
  simp only [Try.ends_bind, ends_ensureUsable, Try.ends_get,
    hUsable, hLink, if_true]
  exact ⟨⟨_, rfl⟩, rfl, rfl⟩

/- A session whose connection is in use cannot be disposed of. -/
theorem dispose_refused :
    Try.Ends dispose s w (Refused s w) := by
  unfold dispose
  rw [Try.ends_bind, Try.ends_get]
  simp only [hUsable, hLink, Bool.not_false, if_true]
  exact ⟨⟨_, rfl⟩, rfl, rfl⟩

/-
  A use that needs the session at rest is refused while an
  operation is under way.
-/
theorem refused_while_busy
    (u : Use)
    (hNeeds : u.NeedsRest s) :
    Try.Ends u.act s w (Refused s w) := by
  cases u with
  | setCommand c => exact setCommand_refused w hUsable hLink c
  | takeCommand => exact hNeeds.elim
  | connect => exact connect_refused w hUsable hLink
  | begin => exact begin_refused w hUsable hLink
  | commit => exact endTransaction_refused w .commit hNeeds hLink
  | rollback =>
      exact endTransaction_refused w .rollback hNeeds hLink
  | dispose => exact dispose_refused w hUsable hLink
  | start kind =>
      exact Refused.discard (start_refused w hUsable hLink kind)
  | completeNonQuery o => exact hNeeds.elim
  | completeScalar o t => exact hNeeds.elim
  | completeRows o => exact hNeeds.elim
  | executeNonQuery =>
      exact Refused.discard
        (Refused.bind (start_refused w hUsable hLink _))
  | executeScalar t =>
      exact Refused.discard
        (Refused.bind (start_refused w hUsable hLink _))

end

------------------------------------------------------------
-- Sessions that were given up
------------------------------------------------------------

/- Ending a transaction does nothing where none is active. -/
theorem endTransaction_idle
    (e : Ending)
    (hTransaction : s.inTransaction = false) :
    Try.Ends (endTransaction e) s w fun r s' w' =>
      r = .ok () ∧ s' = s ∧ w' = w := by
  unfold endTransaction
  rw [Try.ends_bind, Try.ends_get]
  simp only [hTransaction]
  exact ⟨rfl, rfl, rfl⟩

/- Disposing of a session twice does nothing more than once. -/
theorem dispose_idle (hDisposed : s.disposed = true) :
    Try.Ends dispose s w fun r s' w' =>
      r = .ok () ∧ s' = s ∧ w' = w := by
  unfold dispose
  rw [Try.ends_bind, Try.ends_get]
  simp only [hDisposed]
  exact ⟨rfl, rfl, rfl⟩

/-
  A session that was given up stays so, without a connection.
  Nothing happens but that an operation of another session
  may be left to the background.
-/
structure StaysIdle
    {α : Type}
    (w : World)
    (r : Except Failure α)
    (s' : Session)
    (w' : World) : Prop where
  disposed : s'.disposed = true
  link : s'.link = .closed
  world : ∃ jobs, w' = { w with jobs }

/- An act that does nothing does nothing without its result. -/
theorem StaysIdle.discard
    {α : Type}
    {w : World}
    {act : Try α}
    (h : Try.Ends act s w (StaysIdle w)) :
    Try.Ends (discard act) s w (StaysIdle w) := by
  rw [Try.ends_discard]
  exact h.mono fun r s' w' h => ⟨h.disposed, h.link, h.world⟩

/- No operation starts after the end of the session. -/
theorem start_unusable
    (hDisposed : s.disposed = true)
    (kind : Operation.Kind) :
    Try.Ends (start kind) s w fun r s' w' =>
      (∃ f, r = .error f) ∧ s' = s ∧ w' = w := by
  unfold start
  rw [Try.ends_bind, ends_ensureUsable, if_pos hDisposed]
  exact ⟨⟨_, rfl⟩, rfl, rfl⟩

section
variable {w} {α : Type}
variable (hDisposed : s.disposed = true) (hLink : s.link = .closed)
include hDisposed hLink

theorem StaysIdle.refl (r : Except Failure α) :
    StaysIdle w r s w :=
  ⟨hDisposed, hLink, w.jobs, rfl⟩

/-
  Whatever asks first whether the session can be used does
  nothing after its end.
-/
theorem unusable_idle (f : Unit → Try α) :
    Try.Ends (ensureUsable >>= f) s w (StaysIdle w) := by
  rw [Try.ends_bind, ends_ensureUsable, if_pos hDisposed]
  exact .refl hDisposed hLink _

/- An operation of another session is dropped. -/
theorem foreign_idle
    {o : Operation}
    (hOther : o.session ≠ s.id)
    (f : Reply → Try α) :
    Try.Ends (finish o >>= f) s w (StaysIdle w) := by
  unfold finish
  simp only [Try.ends_bind, Try.ends_get, if_pos hOther]
  exact ⟨hDisposed, hLink, _, rfl⟩

/- No operation is run after the end of the session. -/
theorem run_idle
    (kind : Operation.Kind)
    (complete : Operation → Try α) :
    Try.Ends (do complete (← start kind)) s w (StaysIdle w) := by
  refine Try.Ends.bind (start_unusable w hDisposed kind) ?_ ?_
  · intro o s' w' hFails
    rcases hFails with ⟨⟨f, hFail⟩, -⟩
    cases hFail
  · intro f s' w' hFails
    rcases hFails with ⟨-, rfl, rfl⟩
    exact .refl hDisposed hLink _

/-
  A session that was given up does nothing, whatever is asked
  of it.
-/
theorem idle_after_dispose
    (hTransaction : s.inTransaction = false)
    (u : Use)
    (hOther : ∀ o, u.operation? = some o → o.session ≠ s.id) :
    Try.Ends u.act s w (StaysIdle w) := by
  have hNothing
      {act : Try Unit}
      (h : Try.Ends act s w fun r s' w' =>
        r = .ok () ∧ s' = s ∧ w' = w) :
      Try.Ends act s w (StaysIdle w) := by
    refine h.mono ?_
    rintro r s' w' ⟨-, rfl, rfl⟩
    exact .refl hDisposed hLink r
  cases u with
  | setCommand c => exact unusable_idle hDisposed hLink _
  | takeCommand => exact ⟨hDisposed, hLink, w.jobs, rfl⟩
  | connect => exact unusable_idle hDisposed hLink _
  | begin => exact unusable_idle hDisposed hLink _
  | commit =>
      exact hNothing (endTransaction_idle w .commit hTransaction)
  | rollback =>
      exact hNothing (endTransaction_idle w .rollback hTransaction)
  | dispose => exact hNothing (dispose_idle w hDisposed)
  | start kind =>
      exact StaysIdle.discard (unusable_idle hDisposed hLink _)
  | completeNonQuery o =>
      exact StaysIdle.discard
        (foreign_idle hDisposed hLink (hOther o rfl) _)
  | completeScalar o t =>
      exact StaysIdle.discard
        (foreign_idle hDisposed hLink (hOther o rfl) _)
  | completeRows o =>
      exact StaysIdle.discard
        (foreign_idle hDisposed hLink (hOther o rfl) _)
  | executeNonQuery =>
      exact StaysIdle.discard (run_idle hDisposed hLink _ _)
  | executeScalar t =>
      exact StaysIdle.discard (run_idle hDisposed hLink _ _)

end

/- A session that is not at work is given up when asked to. -/
theorem dispose_disposes (hLink : s.link ≠ .busy) :
    Try.Ends dispose s w fun _ s' _ => s'.disposed = true := by
  unfold dispose
  rw [Try.ends_bind, Try.ends_get]
  simp only
  split
  · simp only [Try.ends_bind, Try.ends_modify, Try.ends_lift,
      Try.ends_liftExcept]
    rw [release_disposed]
    exact Act.Ends.mono (P := fun _ _ _ => True) trivial
      fun _ _ _ _ => rfl
  · next hDisposed => simpa using hDisposed

------------------------------------------------------------
-- Sessions among others
------------------------------------------------------------

/-
  How a session behaves while some operations are under way,
  be they its own or those of others.
-/
structure Behaves
    (s : Session)
    (os : List Operation)
    (w : World) : Prop where
  proper : s.IsProper
  givenUp : s.disposed = true → ∀ u : Use,
    (∀ o, u.operation? = some o → o ∈ os) →
      Try.Ends u.act s w (StaysIdle w)
  dropped : s.disposed = true →
    Effect.Ends s.drop w fun _ w' => w' = w
  atWork : ∀ o ∈ os, o.session = s.id →
    s.link = .busy ∧ ∀ u : Use, u.NeedsRest s →
      Try.Ends u.act s w (Refused s w)
  outside : s.inTransaction = false → ∀ e : Ending,
    Try.Ends (endTransaction e) s w fun r s' w' =>
      r = .ok () ∧ s' = s ∧ w' = w
  disposes : s.link ≠ .busy →
    Try.Ends dispose s w fun _ s' _ => s'.disposed = true
  disposedTwice : s.disposed = true →
    Try.Ends dispose s w fun r s' w' =>
      r = .ok () ∧ s' = s ∧ w' = w

/- A proper session does what its state allows. -/
theorem IsProper.behaves
    {ss : List Session}
    {os : List Operation}
    {l : Ledger}
    (hPaired : Scene.Paired ⟨ss, os, l⟩)
    (hMem : s ∈ ss)
    (hProper : s.IsProper) : s.Behaves os w where
  proper := hProper
  givenUp := by
    intro hDisposed u hHeld
    have hLink := hProper.disposed hDisposed
    have hTransaction : s.inTransaction = false := by
      by_contra hIn
      exact hProper.transaction (Bool.eq_true_of_not_eq_false hIn)
        hLink
    refine idle_after_dispose hDisposed hLink hTransaction u ?_
    intro o hOperation hSame
    have hBusy := (hPaired.busy o (hHeld o hOperation) s hMem
      hSame).1
    cases hLink.symm.trans hBusy
  dropped := by
    intro hDisposed
    unfold drop
    rw [hProper.disposed hDisposed]
    rfl
  atWork := by
    intro o hO hSame
    have hBusy := (hPaired.busy o hO s hMem hSame).1
    have hUsable := hProper.usable (by simp [hBusy])
    exact ⟨hBusy, refused_while_busy w hUsable hBusy⟩
  outside := fun hTransaction e =>
    endTransaction_idle w e hTransaction
  disposes := dispose_disposes w
  disposedTwice := dispose_idle w

end Session

namespace Workspace

/-
  After any requests: no session has two operations under way,
  each session behaves as it should, and one that was given up
  is so for ever, whatever else is requested.
-/
theorem run_sessions
    (d : DataAccess)
    (backend : String → Backend)
    (qs : List Request) :
    Act.Ends (run qs) (ofAccess d) (World.initial backend)
      fun _ ws w =>
        (ws.heldOperations.map (·.session)).Nodup ∧
        ∀ s ∈ ws.heldSessions,
          s.Behaves ws.heldOperations w ∧
          (s.disposed = true → ∀ later : List Request,
            Act.Ends (run later) ws w fun _ ws' _ =>
              ∀ s' ∈ ws'.heldSessions, s'.id = s.id →
                s'.disposed = true ∧ s'.link = .closed) := by
  refine (run_follows qs (ofAccess d) (World.initial backend)
    (tidy_ofAccess d)).mono ?_
  intro _ ws w hFollows
  have hInitial := Scene.Sound.initial backend
  have hSound := hInitial.steps hFollows.steps
  have hProper : (ws.scene w [] []).Proper :=
    (Scene.Proper.initial _).steps hInitial hFollows.steps
  refine ⟨hSound.paired.sole, ?_⟩
  intro s hMem
  refine ⟨(hProper s hMem).behaves w hSound.paired hMem, ?_⟩
  intro hDisposed later
  refine (run_follows later ws w hFollows.tidy).mono ?_
  intro _ ws' w' hLater s' hMem' hSame
  have hGivenUp := hSound.numbered.givenUp hMem hDisposed
  have hProper' := hProper.steps hSound hLater.steps
  have hStill := (hGivenUp.steps hLater.steps).disposed s' hMem'
    hSame
  exact ⟨hStill, (hProper' s' hMem').disposed hStill⟩

end Workspace

end Failover
