import Failover.Proofs.Scene.Background
import Failover.Proofs.Scene.Exchange
import Mathlib.Data.Bool.Basic

/-
  What sessions do between their operations, as steps of a
  scene in which they stand alone.

  Key definitions include:
    * `Session.Goes`

  Main statements:
    * `Session.ensureOpen_ends`
    * `Session.closeLink_goes`, `Session.discardLink_goes`
    * `Session.endTransaction_ends`
    * `Session.begin_ends`
    * `Session.dispose_goes`
    * `Session.drop_steps`
-/

namespace Failover

namespace Session

variable {may : Nat → Prop}

------------------------------------------------------------
-- A session on its own
------------------------------------------------------------

/-
  A session goes on in a world, to stay the one that it is on
  the repository where it is.
-/
structure Goes
    (may : Nat → Prop)
    (s : Session)
    (w : World)
    (s' : Session)
    (w' : World) : Prop where
  id : s'.id = s.id
  repository : s'.repository = s.repository
  steps : Scene.Steps may ⟨[s], [], w.ledger⟩ ⟨[s'], [], w'.ledger⟩

namespace Goes

variable {s s₁ s' : Session}
variable {w w₁ w' : World}

theorem refl
    (s : Session)
    (w : World) : Goes may s w s w :=
  ⟨rfl, rfl, .refl⟩

theorem trans
    (h₁ : Goes may s w s₁ w₁)
    (h : Goes may s₁ w₁ s' w') : Goes may s w s' w' :=
  ⟨h.id.trans h₁.id, h.repository.trans h₁.repository,
    h₁.steps.trans h.steps⟩

theorem single
    (hId : s'.id = s.id)
    (hRepository : s'.repository = s.repository)
    (h : Scene.Step may ⟨[s], [], w.ledger⟩
      ⟨[s'], [], w'.ledger⟩) : Goes may s w s' w' :=
  ⟨hId, hRepository, .single h⟩

/- The world goes on and the session stays as it is. -/
theorem around
    (h : w.ledger.Steps w'.ledger) : Goes may s w s w' :=
  ⟨rfl, rfl, .around h⟩

/- Commands come and go without a trace. -/
theorem changed
    (s : Session)
    (command : Option Command)
    (bound : Option BoundCommand)
    (hRebinds : s.Rebinds command bound)
    (w : World) :
    Goes may s w { s with command, bound } w :=
  single rfl rfl
    (.changed command bound s.disposed hRebinds (fun h => h) .inl)

theorem log_grows
    (h : Goes may s w s' w') : w.log <+: w'.log :=
  h.steps.log_grows

end Goes

variable (may : Nat → Prop) (s : Session) (w : World)

------------------------------------------------------------
-- Connections
------------------------------------------------------------

/- A repository's engine gives a new connection or refuses. -/
theorem openConnection_ends (r : Repository) :
    Effect.Ends (World.openConnection r.name) w fun x w' =>
      (∃ f, x = .error f ∧
        w'.ledger = w.ledger.add [.opened r.name none]) ∨
      (x = .ok (w.ledger.nextConnection r) ∧
        w'.ledger = w.ledger.opening r) := by
  unfold World.openConnection
  refine (World.refused?_ends w r.name .opening nofun).bind ?_
  rintro refusal w₁ ⟨hLedger, -⟩
  rw [← hLedger]
  cases refusal with
  | some f => exact .inl ⟨f, rfl, rfl⟩
  | none => exact .inr ⟨rfl, rfl⟩

/- A closed session gets a new connection, or stays closed. -/
theorem openLink_ends
    (hLink : s.link = .closed)
    (hUsable : s.disposed = false) :
    Try.Ends openLink s w fun r s' w' =>
      Goes may s w s' w' ∧
        ((r = .ok () ∧
          s' = { s with
            link := .opened
              (w.ledger.nextConnection s.repository) } ∧
          SendsNothing w.log w'.log) ∨
        (∃ f, r = .error f ∧ s' = s ∧
          w.ledger.Steps w'.ledger)) := by
  unfold openLink
  simp only [Try.ends_bind, Try.ends_get, Try.ends_liftEffect]
  refine (openConnection_ends w s.repository).mono ?_
  rintro x w₁ (⟨f, rfl, hLedger⟩ | ⟨rfl, hLedger⟩)
  · have hOpened : w.ledger.Steps w₁.ledger := by
      rw [hLedger]
      exact .single (.noted _ rfl)
    refine ⟨.around ?told, .inr ⟨f, rfl, rfl, ?told⟩⟩
    refine hOpened.trans ?_
    change w₁.ledger.Steps
      (((w₁.ledger.add [_]).add [_]).add [_])
    exact .tail (.tail (.single (.noted _ rfl)) (.noted _ rfl))
      (.noted _ rfl)
  · refine ⟨.single rfl rfl ?_, .inl ⟨rfl, rfl, ?_⟩⟩
    · change Scene.Step may _ ⟨_, [], w₁.ledger.link s.repository⟩
      rw [hLedger]
      exact .opened hLink hUsable
    · change SendsNothing w.log (w₁.ledger.link s.repository).log
      rw [hLedger]
      exact .trans (.noted fun _ => rfl) (.noted fun _ => rfl)

/- A session has a connection afterwards, or is as before. -/
theorem ensureOpen_ends (hUsable : s.disposed = false) :
    Try.Ends ensureOpen s w fun r s' w' =>
      Goes may s w s' w' ∧
        ((∃ c isNew, r = .ok isNew ∧
          s' = { s with link := .opened c } ∧
          (s.link = .closed →
            c = w.ledger.nextConnection s.repository) ∧
          SendsNothing w.log w'.log) ∨
        (∃ f, r = .error f ∧ s' = s ∧
          w.ledger.Steps w'.ledger)) := by
  unfold ensureOpen
  simp only [Try.ends_bind, Try.ends_get]
  cases hLink : s.link with
  | opened c =>
      have hSame : s = { s with link := .opened c } := by
        rw [← hLink]
      exact ⟨.refl s w, .inl ⟨c, false, rfl, hSame,
        (fun hClosed => by cases hClosed), .refl _⟩⟩
  | busy => exact ⟨.refl s w, .inr ⟨_, rfl, rfl, .refl⟩⟩
  | closed =>
      simp only
      refine (openLink_ends may s w hLink hUsable).bind ?_ ?_
      · rintro _ s' w' ⟨hGoes, ⟨-, hSame, hNothing⟩ |
          ⟨f, hFail, -⟩⟩
        · exact ⟨hGoes, .inl ⟨_, true, rfl, hSame, fun _ => rfl,
            hNothing⟩⟩
        · cases hFail
      · rintro f s' w' ⟨hGoes, ⟨hOk, -⟩ | ⟨f, hFail, hSame⟩⟩
        · cases hOk
        · exact ⟨hGoes, .inr ⟨_, rfl, hSame⟩⟩

/- The connection goes, and a transaction with it. -/
theorem discardLink_goes
    (hMay : s.inTransaction = true → may s.id) :
    Act.Ends discardLink s w fun _ s' w' =>
      Goes may s w s' w' ∧
        ((∀ c, s.link ≠ .opened c) ∧ s' = s ∨
          s' = { s with
            link := .closed, inTransaction := false }) := by
  unfold discardLink
  rw [Act.ends_bind, Act.ends_get]
  cases hLink : s.link with
  | closed => exact ⟨.refl s w, .inl ⟨nofun, rfl⟩⟩
  | busy => exact ⟨.refl s w, .inl ⟨nofun, rfl⟩⟩
  | opened c =>
      refine ⟨.single rfl rfl ?_, .inr rfl⟩
      exact .discarded hLink hMay

theorem closeLink_goes
    (hMay : s.inTransaction = true → may s.id) :
    Act.Ends closeLink s w fun _ s' w' =>
      Goes may s w s' w' ∧
        ((∀ c, s.link ≠ .opened c) ∧ s' = s ∨
          s' = { s with
            link := .closed, inTransaction := false }) := by
  unfold closeLink
  rw [Act.ends_bind, Act.ends_get]
  by_cases hTransaction : s.inTransaction = true
  · rw [if_pos hTransaction]
    exact discardLink_goes may s w hMay
  · rw [if_neg hTransaction]
    have hFalse := Bool.eq_false_of_not_eq_true hTransaction
    cases hLink : s.link with
    | closed => exact ⟨.refl s w, .inl ⟨by simp, rfl⟩⟩
    | busy => exact ⟨.refl s w, .inl ⟨by simp, rfl⟩⟩
    | opened c =>
        simp only [Act.ends_bind, Act.ends_set, Act.ends_lift]
        refine (World.callOn_noted w c .close (by decide)).mono ?_
        rintro r w₁ ⟨-, ok, hLedger⟩
        refine ⟨.single rfl rfl ?_, .inr ?_⟩
        · change Scene.Step may _
            ⟨_, _, w₁.ledger.unlink s.repository⟩
          rw [hLedger]
          exact .closed ok hLink hFalse
        · rw [← hFalse]
          rfl

------------------------------------------------------------
-- Commands
------------------------------------------------------------

theorem bindCommand_ends
    (r : Repository)
    (c : Command) :
    Effect.Ends (World.bindCommand r c) w fun x w' =>
      w.ledger.Steps w'.ledger ∧
        ∀ b, x = .ok b → r.provider.bind c = .ok b := by
  unfold World.bindCommand
  split
  · refine (World.refused?_ends w r.name .bind nofun).bind ?_
    rintro refusal w₁ ⟨hLedger, -⟩
    rw [← hLedger]
    cases refusal with
    | none => exact ⟨.single (.noted _ rfl), fun _ h => h⟩
    | some f => exact ⟨.single (.noted _ rfl), nofun⟩
  · exact ⟨.refl, fun _ h => h⟩

/- A session that was disposed of is refused. -/
theorem ends_ensureUsable
    (Q : Except Failure Unit → Session → World → Prop) :
    Try.Ends ensureUsable s w Q ↔
      if s.disposed then
        Q (.error (s.invalid "session is disposed")) s w
      else Q (.ok ()) s w := by
  unfold ensureUsable
  simp only [Try.ends_bind, Try.ends_get]
  cases s.disposed with
  | true => exact Iff.rfl
  | false => exact Iff.rfl

/-
  Setting a command changes the command of a session and no
  more, whether it can be bound or not.
-/
theorem setCommand_goes (c : Command) :
    Try.Ends (setCommand c) s w fun r s' w' =>
      Goes may s w s' w' ∧
        (∃ command bound, s' = { s with command, bound }) ∧
        w.ledger.Steps w'.ledger ∧
        (r = .ok () → ∃ b, s'.bound = some b ∧
          s.repository.provider.bind c = .ok b) := by
  have hSame :
      Goes may s w s w ∧
        (∃ command bound, s = { s with command, bound }) ∧
        w.ledger.Steps w.ledger :=
    ⟨.refl s w, ⟨_, _, rfl⟩, .refl⟩
  unfold setCommand
  simp only [Try.ends_bind, ends_ensureUsable, Try.ends_get]
  split
  · exact ⟨hSame.1, hSame.2.1, hSame.2.2, fun hOk => by cases hOk⟩
  split
  · exact ⟨hSame.1, hSame.2.1, hSame.2.2, fun hOk => by cases hOk⟩
  let s₁ := { s with command := none, bound := none }
  have hCleared : Goes may s w s₁ w := .changed s none none .none w
  simp only [Try.ends_bind, Try.ends_modify, Try.ends_get,
    Try.ends_liftEffect]
  refine (bindCommand_ends w s₁.repository c).mono ?_
  rintro r w₁ ⟨hSteps, hBound⟩
  have hGoes := hCleared.trans (.around hSteps)
  cases r with
  | ok b =>
      refine ⟨hGoes.trans ?_, ⟨some c, some b, rfl⟩, hSteps,
        fun _ => ⟨b, rfl, hBound b rfl⟩⟩
      exact .changed s₁ (some c) (some b) (.bound (hBound b rfl)) w₁
  | error f =>
      refine ⟨hGoes.trans (.around ?told), ⟨none, none, rfl⟩,
        hSteps.trans ?told, fun hOk => by cases hOk⟩
      change w₁.ledger.Steps ((w₁.ledger.add [_]).add [_])
      exact .tail (.single (.noted _ rfl)) (.noted _ rfl)

theorem takeCommand_goes :
    Act.Ends takeCommand s w fun _ s' w' =>
      Goes may s w s' w' ∧
        s' = { s with command := none, bound := none } :=
  ⟨.changed s none none .none w, rfl⟩

theorem connect_goes :
    Try.Ends connect s w fun _ s' w' =>
      Goes may s w s' w' ∧ s'.inTransaction = s.inTransaction := by
  unfold connect
  simp only [Try.ends_bind, ends_ensureUsable, Try.ends_discard]
  split
  · exact ⟨.refl s w, trivial⟩
  next hUsed =>
  have hUsable := Bool.eq_false_of_not_eq_true hUsed
  refine (ensureOpen_ends may s w hUsable).mono ?_
  rintro r s' w' ⟨hGoes, ⟨c, isNew, -, rfl, -⟩ |
    ⟨f, -, rfl, -⟩⟩
  · exact ⟨hGoes, rfl⟩
  · exact ⟨hGoes, rfl⟩

------------------------------------------------------------
-- Transactions
------------------------------------------------------------

/-
  After the call that ends it a transaction is not active any
  more.
-/
theorem afterEnding_ends
    (e : Ending)
    (r : Except Failure Unit) :
    Try.Ends (afterEnding e r) s w fun r' s' w' =>
      r' = r ∧ s' = { s with inTransaction := false } ∧
        w.ledger.Steps w'.ledger ∧ w.log <+: w'.log := by
  cases r with
  | ok _ => exact ⟨rfl, rfl, .refl, List.prefix_refl _⟩
  | error f =>
      refine ⟨rfl, rfl, .single (.noted _ rfl), ?_⟩
      exact List.prefix_append w.log [_]

/-
  The transaction is over, or the session is at work and is
  refused.  If there is one and the session is not at work,
  its end is a call that succeeds just when this does.
-/
theorem endTransaction_ends
    (e : Ending)
    (hMay : s.inTransaction = true → may s.id) :
    Try.Ends (endTransaction e) s w fun r s' w' =>
      Goes may s w s' w' ∧
        (s' = { s with inTransaction := false } ∨
          s.inTransaction = true ∧ s' = s ∧ s.link = .busy ∧
            ∃ f, r = .error f) ∧
        (s.inTransaction = true → s.link ≠ .closed →
          r = .ok () → ∃ c es, s.link = .opened c ∧
            w'.log = w.log ++ .called e.call c true :: es) := by
  unfold endTransaction
  rw [Try.ends_bind, Try.ends_get]
  simp only
  split
  · next hTransaction =>
    split
    · next c hLink =>
        rw [Try.ends_bind, Try.ends_liftEffect]
        refine (World.callOn_ends w c e.call ?_).mono ?_
        · cases e <;> nofun
        intro r w₁ ⟨_, hCall⟩
        refine (afterEnding_ends s w₁ e r).mono ?_
        rintro r' s' w' ⟨rfl, rfl, hGoes, hPrefix⟩
        have hEnded (ok : Bool) (hLedger : w₁.ledger =
            w.ledger.add [.called e.call c ok]) :
            Goes may s w { s with inTransaction := false } w' := by
          have hCalled :
              Goes may s w { s with inTransaction := false }
                w₁ := by
            refine .single rfl rfl ?_
            rw [hLedger]
            exact .ended e ok hLink hTransaction
              (hMay hTransaction)
          exact hCalled.trans (.around hGoes)
        rcases hCall with ⟨rfl, hLedger⟩ | ⟨f, rfl, hLedger⟩
        · refine ⟨hEnded true hLedger, .inl rfl, ?_⟩
          intro _ _ _
          rcases hPrefix with ⟨es, hLog⟩
          have hCalled : w₁.log = _ := congrArg Ledger.log hLedger
          refine ⟨c, es, hLink, hLog.symm.trans ?_⟩
          rw [hCalled]
          exact List.append_assoc ..
        · exact ⟨hEnded false hLedger, .inl rfl, nofun⟩
    · next hLink =>
        exact ⟨.refl s w, .inr ⟨hTransaction, rfl, hLink, _, rfl⟩,
          nofun⟩
    · next hLink =>
        refine (afterEnding_ends s w e (.ok ())).mono ?_
        rintro r' s' w' ⟨rfl, rfl, hGoes, -⟩
        have hCleared :
            Goes may s w { s with inTransaction := false } w :=
          .single rfl rfl
            (.cleared hLink hTransaction (hMay hTransaction))
        refine ⟨hCleared.trans (.around hGoes), .inl rfl, ?_⟩
        exact fun _ hNot => absurd hLink hNot
  · next hTransaction =>
    have hFalse := Bool.eq_false_of_not_eq_true hTransaction
    refine ⟨.refl s w, .inl ?_, fun h => absurd h hTransaction⟩
    rw [← hFalse]
    rfl

/-
  A transaction that begins is on the connection of the
  session, and its begin is the last thing that happened.
-/
theorem beginFresh_ends
    (hUsable : s.disposed = false)
    (hTransaction : s.inTransaction = false) :
    Try.Ends beginFresh s w fun r s' w' =>
      Goes may s w s' w' ∧
        (r = .ok () →
          s'.inTransaction = true ∧
            ∃ c es, s'.link = .opened c ∧
              w'.log = w.log ++ es ++ [.called .begin c true]) := by
  unfold beginFresh
  rw [Try.ends_bind, Try.ends_discard]
  refine (ensureOpen_ends may s w hUsable).mono ?_
  rintro r s₁ w₁ ⟨hGoes₁, ⟨c, isNew, rfl, rfl, -⟩ |
    ⟨f, rfl, rfl, -⟩⟩
  · simp only [Except.map, Try.ends_bind, Try.ends_get,
      Try.ends_liftEffect]
    refine (World.callOn_ends w₁ c .begin (by decide)).mono ?_
    rintro r w₂ ⟨-, ⟨rfl, hLedger⟩ | ⟨f, rfl, hLedger⟩⟩
    · have hLog : w₂.log = _ := congrArg Ledger.log hLedger
      refine ⟨hGoes₁.trans (.single rfl rfl ?_), ?_⟩
      · change Scene.Step may _ ⟨_, _, w₂.ledger⟩
        rw [hLedger]
        exact .began rfl hTransaction
      · intro _
        rcases hGoes₁.log_grows with ⟨es, hOpened⟩
        refine ⟨rfl, c, es, rfl, hLog.trans ?_⟩
        change w₁.log ++ _ = _
        rw [← hOpened]
    · refine ⟨(hGoes₁.trans (.single rfl rfl ?_)).trans
        (.around (.single (.noted _ rfl))), fun hOk => by cases hOk⟩
      rw [hLedger]
      exact .refused rfl hTransaction
  · exact ⟨hGoes₁, fun hOk => by cases hOk⟩

theorem begin_ends
    (hMay : s.inTransaction = true → may s.id) :
    Try.Ends begin s w fun r s' w' =>
      Goes may s w s' w' ∧
        (r = .ok () →
          s'.inTransaction = true ∧
            ∃ c es, s'.link = .opened c ∧
              w'.log = w.log ++ es ++ [.called .begin c true]) := by
  unfold begin
  simp only [Try.ends_bind, ends_ensureUsable, Try.ends_get]
  split
  · exact ⟨.refl s w, fun hOk => by cases hOk⟩
  next hUsed =>
  have hUsable := Bool.eq_false_of_not_eq_true hUsed
  split
  · rw [Try.ends_bind]
    refine (endTransaction_ends may s w .commit hMay).mono ?_
    rintro r s₁ w₁ ⟨hGoes₁, hState, -⟩
    cases r with
    | error f => exact ⟨hGoes₁, fun hOk => by cases hOk⟩
    | ok _ =>
        have hEnded : s₁ = { s with inTransaction := false } := by
          rcases hState with hEnded | ⟨-, -, -, f, hFail⟩
          · exact hEnded
          · cases hFail
        subst hEnded
        refine (beginFresh_ends may { s with inTransaction := false } w₁
          hUsable rfl).mono ?_
        rintro r' s' w' ⟨hGoes, hOk⟩
        refine ⟨hGoes₁.trans hGoes, fun hBegun => ?_⟩
        rcases hOk hBegun with ⟨hIn, c, es, hLink, hLog⟩
        rcases hGoes₁.log_grows with ⟨es₁, hEnded⟩
        refine ⟨hIn, c, es₁ ++ es, hLink, hLog.trans ?_⟩
        rw [← List.append_assoc]
        exact congrArg (· ++ es ++ _) hEnded.symm
  · next hTransaction =>
    have hFalse := Bool.eq_false_of_not_eq_true hTransaction
    exact beginFresh_ends may s w hUsable hFalse

------------------------------------------------------------
-- The end of a session
------------------------------------------------------------

/- A session that is not at work has no connection by then. -/
theorem release_goes
    (hMay : s.inTransaction = true → may s.id) :
    Act.Ends release s w fun _ s' w' =>
      Goes may s w s' w' ∧
        (s.link ≠ .busy → s'.link = .closed) := by
  have hAfter {s' : Session} {w' : World}
      (hGoes : Goes may s w s' w')
      (hFlag : s'.inTransaction = true → s.inTransaction = true) :
      s'.inTransaction = true → may s'.id := by
    intro hTransaction
    rw [hGoes.id]
    exact hMay (hFlag hTransaction)
  have hClosed {s₁ s' : Session}
      (hLink : s₁.link = s.link)
      (hGone : (∀ c, s₁.link ≠ .opened c) ∧ s' = s₁ ∨
        s' = { s₁ with link := .closed, inTransaction := false })
      (hIdle : s.link ≠ .busy) : s'.link = .closed := by
    rcases hGone with ⟨hNone, rfl⟩ | rfl
    · cases hCase : s'.link with
      | closed => rfl
      | opened c => exact absurd hCase (hNone c)
      | busy => exact absurd (hLink.symm.trans hCase) hIdle
    · rfl
  unfold release
  rw [Act.ends_bind, Try.ends_run]
  refine (endTransaction_ends may s w .commit hMay).mono ?_
  rintro r s₁ w₁ ⟨hGoes₁, hState, -⟩
  have hMay₁ : s₁.inTransaction = true → may s₁.id := by
    refine hAfter hGoes₁ ?_
    rcases hState with rfl | ⟨hTransaction, rfl, -⟩
    · nofun
    · exact fun h => h
  have hLink₁ : s₁.link = s.link := by
    rcases hState with rfl | ⟨-, rfl, -⟩ <;> rfl
  cases r with
  | ok _ =>
      refine (closeLink_goes may s₁ w₁ hMay₁).mono ?_
      rintro _ s' w' ⟨hGoes, hGone⟩
      exact ⟨hGoes₁.trans hGoes, hClosed hLink₁ hGone⟩
  | error f =>
      refine (discardLink_goes may s₁ w₁ hMay₁).bind ?_
      rintro _ s' w' ⟨hGoes, hGone⟩
      exact ⟨hGoes₁.trans hGoes, hClosed hLink₁ hGone⟩

/- Whether a session is given up is not asked in between. -/
theorem release_disposed
    (disposed : Bool)
    (Q : Except Failure Unit → Session → World → Prop) :
    Act.Ends release { s with disposed } w Q ↔
      Act.Ends release s w fun r s' w' =>
        Q r { s' with disposed } w' := by
  rcases s with ⟨id, r, n, command, bound, link, inTransaction, d⟩
  cases inTransaction with
  | false =>
      cases link <;> exact Iff.rfl
  | true =>
      cases link with
      | closed => exact Iff.rfl
      | busy => exact Iff.rfl
      | opened c =>
          unfold release commit endTransaction
          simp only [Act.ends_bind, Try.ends_run, Try.ends_bind,
            Try.ends_get, Try.ends_liftEffect, if_true]
          refine Effect.ends_congr fun r w₁ => ?_
          cases r <;> exact Iff.rfl

/- A session that is given up is closed by then. -/
theorem dispose_goes
    (hMay : s.inTransaction = true → may s.id) :
    Try.Ends dispose s w fun _ s' w' => Goes may s w s' w' := by
  unfold dispose
  rw [Try.ends_bind, Try.ends_get]
  simp only
  split
  · split
    · exact .refl s w
    · next hIdle =>
      simp only [Try.ends_bind, Try.ends_modify, Try.ends_lift,
        Try.ends_liftExcept]
      rw [release_disposed]
      refine (release_goes may s w hMay).mono ?_
      rintro r s' w' ⟨hGoes, hClosed⟩
      refine hGoes.trans (.single rfl rfl ?_)
      exact .changed none none true .none (fun _ => rfl)
        fun _ => .inr (hClosed hIdle)
  · exact .refl s w

/- Nobody holds the session any more. -/
theorem drop_steps :
    Effect.Ends s.drop w fun _ w' =>
      Scene.Steps may ⟨[s], [], w.ledger⟩ ⟨[], [], w'.ledger⟩ := by
  unfold drop
  split
  · next c hLink =>
    split
    · next hTransaction =>
      exact .single (.leftInTransaction hLink hTransaction)
    · next hTransaction =>
      have hFalse := Bool.eq_false_of_not_eq_true hTransaction
      rw [Effect.ends_bind, Effect.ends_discard]
      refine (World.callOn_noted w c .close nofun).mono ?_
      rintro _ w₁ ⟨-, ok, hLedger⟩
      change Scene.Steps may _ ⟨_, _, w₁.ledger.close⟩
      rw [hLedger]
      exact .single (.leftOpen ok hLink hFalse)
  · next hLink =>
    exact .single (.left fun c h => hLink c h)

end Session

end Failover
