import Failover.Proofs.Health.Direct
import Failover.Proofs.Operation.Start

/-
  The end of an operation of any session: the connection comes
  back or is lost, one outcome is recorded and told, and a
  connection that was opened for the operation is closed.

  Key definitions include:
    * `Session.after`, `Session.rested`
    * `Entry.result`
    * `Entry.Concludes`

  Main statements:
    * `Session.finish_tells`
    * `Session.settle_tells`
    * `Entry.conclude_concludes`
-/

namespace Failover

namespace Session

variable {s : Session} (w : World)

------------------------------------------------------------
-- The end of the work
------------------------------------------------------------

/- The session when the work of its operation has ended. -/
def after
    (s : Session) : Task.State → Session
  | .finished k _ => { s with link := .opened k }
  | _ => { s with link := .closed, inTransaction := false }

theorem finish_tells
    {o : Operation}
    (hOwn : o.session = s.id) :
    Try.Ends (finish o) s w fun x s' w' =>
      ∃ state w₁, Effect.Leads (World.await o.task) w state w₁ ∧
        x = .ok (state.reply s.repository.name) ∧
        s' = s.after state ∧ w.Unrecorded w' := by
  unfold finish
  simp only [Try.ends_bind, Try.ends_get, hOwn, ne_eq,
    not_true, if_false, Try.ends_liftEffect]
  rcases Effect.exists_leads (World.await o.task) w with
    ⟨state, w₁, hEnd⟩
  have hAwaited : w.Unrecorded w₁ :=
    (hEnd.ends_iff _).mp (World.await_recordsNothing o.task w)
  rw [hEnd.ends_iff]
  have hLost : w.Unrecorded
      { w₁ with
        active := w₁.active - 1
        log := w₁.log ++
          [.connectionClosed (World.connectionInfo s.repository
            (w₁.active - 1))] } :=
    hAwaited.trans (.noted rfl rfl rfl)
  cases state with
  | finished k result => exact ⟨_, w₁, hEnd, rfl, rfl, hAwaited⟩
  | stopped f => exact ⟨_, w₁, hEnd, rfl, rfl, hLost⟩
  | died => exact ⟨_, w₁, hEnd, rfl, rfl, hLost⟩
  | waiting => exact ⟨_, w₁, hEnd, rfl, rfl, hLost⟩

------------------------------------------------------------
-- Settling
------------------------------------------------------------

/- The session when an operation of some context is over. -/
def rested
    (s : Session)
    (context : Operation.Context) : Session :=
  if context.openedHere && !s.inTransaction then
    match s.link with
    | .opened _ => { s with link := .closed }
    | _ => s
  else s

/- What an operation of some context says of its outcome. -/
def verdict
    (s : Session)
    (context : Operation.Context)
    (ok : Bool) : Event :=
  .commandEnded s.repository.name context.text ok

theorem recordOutcome_tells
    (context : Operation.Context)
    (cause : Option Failure)
    (reported : Bool) :
    Act.Ends (recordOutcome context cause reported) s w
      fun _ s' w' => s' = s ∧
        w.Tells [(s.repository.name, cause.isNone)]
          [s.verdict context cause.isNone] w' ∧
        SendsNothing w.log w'.log := by
  cases cause with
  | none =>
      refine ⟨rfl, ?_, ?_⟩
      · exact (World.recordSuccess_tells _ _ w).trans
          (.noted rfl rfl rfl)
      · exact .trans (.noted fun _ => rfl) (.noted fun _ => rfl)
  | some f =>
      let e := s.verdict context false
      have hTold (w₁ : World)
          (hRecorded : w.Tells [(s.repository.name, false)] [] w₁) :
          w.Tells [(s.repository.name, false)] [e]
            { w₁ with log := w₁.log ++ [e] } :=
        hRecorded.trans (.noted rfl rfl rfl)
      have hBoth := hTold _
        (World.recordFailure_tells s.repository.name f w)
      have hSent : SendsNothing w.log
          (w.log ++ [.recorded s.repository.name (some f)] ++ [e]) :=
        .trans (.noted fun _ => rfl) (.noted fun _ => rfl)
      cases reported with
      | true => exact ⟨rfl, hBoth, hSent⟩
      | false =>
          exact ⟨rfl, hBoth.before (.noted rfl rfl rfl),
            hSent.trans (.noted fun _ => rfl)⟩

/- Whether closing fails is reported, and nothing else. -/
theorem closeOpenedHere_tells (context : Operation.Context) :
    Act.Ends (closeOpenedHere context) s w fun _ s' w' =>
      s' = s.rested context ∧ w.Unrecorded w' ∧
        SendsNothing w.log w'.log := by
  have hNothing : w.Unrecorded w ∧ SendsNothing w.log w.log :=
    ⟨.same rfl rfl, .refl _⟩
  unfold closeOpenedHere rested
  rw [Act.ends_bind, Act.ends_get]
  split
  · next hCloses =>
    have hFalse : s.inTransaction = false := by
      simpa using (Bool.and_eq_true_iff.mp hCloses).2
    unfold closeLink
    simp only [Act.ends_bind, Act.ends_get, hFalse,
      Bool.false_eq_true, if_false]
    cases s.link with
    | closed => exact ⟨rfl, hNothing⟩
    | busy => exact ⟨rfl, hNothing⟩
    | opened k =>
        simp only [Act.ends_bind, Act.ends_set, Act.ends_lift]
        refine ((World.callOn_recordsNothing k .close w).and
          (World.callOn_noted w k .close (by decide))).mono ?_
        rintro result w₁ ⟨hUnrecorded, -, ok, hLedger⟩
        have hClosed : w.Unrecorded
            { w₁ with
              active := w₁.active - 1
              log := w₁.log ++
                [.connectionClosed (World.connectionInfo
                  s.repository (w₁.active - 1))] } :=
          hUnrecorded.trans (.noted rfl rfl rfl)
        have hLog : w₁.log = w.log ++ [.called .close k ok] :=
          congrArg Ledger.log hLedger
        have hSent : SendsNothing w.log w₁.log :=
          hLog ▸ .noted fun _ => rfl
        have hTold := hSent.trans (.noted (e := .connectionClosed
          (World.connectionInfo s.repository (w₁.active - 1)))
          fun _ => rfl)
        cases result with
        | ok _ => exact ⟨rfl, hClosed, hTold⟩
        | error f =>
            exact ⟨rfl, hClosed.trans (.noted rfl rfl rfl),
              hTold.trans (.noted fun _ => rfl)⟩
  · exact ⟨rfl, hNothing⟩

theorem settle_tells
    (context : Operation.Context)
    (cause : Option Failure)
    (reported : Bool) :
    Act.Ends (settle context cause reported) s w fun _ s' w' =>
      s' = s.rested context ∧
        w.Tells [(s.repository.name, cause.isNone)]
          [s.verdict context cause.isNone] w' ∧
        SendsNothing w.log w'.log := by
  unfold settle
  refine (recordOutcome_tells w context cause reported).bind ?_
  rintro _ s₁ w₁ ⟨rfl, hTold, hSent⟩
  refine (closeOpenedHere_tells w₁ context).mono ?_
  rintro _ s' w' ⟨hRested, hUnrecorded, hNothing⟩
  exact ⟨hRested, hTold.before hUnrecorded, hSent.trans hNothing⟩

theorem settled_tells
    {α : Type}
    (context : Operation.Context)
    (result : Except Failure α) :
    Try.Ends (settled context result) s w fun x s' w' =>
      x = result ∧ s' = s.rested context ∧
        w.Tells [(s.repository.name, result.isOk)]
          [s.verdict context result.isOk] w' ∧
        SendsNothing w.log w'.log := by
  unfold settled
  cases result with
  | ok a =>
      rw [Try.ends_bind, Try.ends_liftAct]
      refine (settle_tells w context none false).mono ?_
      intro _ s' w' hSettled
      exact ⟨rfl, hSettled⟩
  | error f =>
      rw [Try.ends_bind, Try.ends_liftAct]
      refine (settle_tells w context (some f) false).mono ?_
      intro _ s' w' hSettled
      exact ⟨rfl, hSettled⟩

/- A session with another command rests as it would without. -/
theorem rested_command
    (s : Session)
    (command : Option Command)
    (context : Operation.Context) :
    rested { s with command } context =
      { s.rested context with command } := by
  rcases s with ⟨i, r, n, c, b, link, mark, disposed⟩
  unfold rested
  split
  · cases link <;> rfl
  · rfl

end Session

------------------------------------------------------------
-- Results
------------------------------------------------------------

namespace Entry

/- The result that is made of a reply. -/
def result
    (repository : String)
    (e : Entry)
    (reply : Reply) : Except Failure e.View :=
  (e.taken reply).bind (e.made repository)

/-
  What comes of the reply to an operation.  The operation is
  over, or a reader has the rows and the session.
-/
inductive Concludes
    (s : Session)
    (context : Operation.Context)
    (reply : Reply)
    (w : World) :
    (e : Entry) → Except Failure e.Output → Session → World →
      Prop where
  | complete {e : Entry} (x : Except Failure e.Output)
      (command : Option Command) (w' : World)
      (hOver : e.settles x.isOk = true)
      (hResult : x.map e.view = e.result s.repository.name reply)
      (hTells : w.Tells [(s.repository.name, x.isOk)]
        [s.verdict context x.isOk] w') :
      Concludes s context reply w e x
        { s.rested context with command } w'
  | reading (a : Reader) (outcome : Outcome)
      (command : Option Command)
      (hReply : reply = .ok outcome)
      (hReader :
        a = Session.reader { s with command } context outcome) :
      Concludes s context reply w .reader (.ok a)
        { s with command } w

variable {s : Session} {o : Operation} (w : World) (reply : Reply)

/- An outcome without failures is turned into a result. -/
theorem settleWhole_tells
    {α : Type}
    (make : Outcome → Except Failure α) :
    Try.Ends (do
        let whole ← ExceptT.lift (Session.takeWhole reply)
        Session.settled o.context (whole.bind make)) s w
      fun x s' w' =>
        x = (Progress.whole reply).bind make ∧
        (∃ command, s' = { s.rested o.context with command }) ∧
        w.Tells [(s.repository.name, x.isOk)]
          [s.verdict o.context x.isOk] w' := by
  rw [Try.ends_bind, Try.ends_lift]
  refine (Session.takeWhole_ends w s reply).mono ?_
  intro whole s₁ w₁ hTaken
  rcases hTaken with ⟨rfl, rfl, hAfter⟩
  have hCommand : ∃ command, s₁ = { s with command } := by
    rw [hAfter]
    cases Progress.whole reply with
    | ok outcome => exact ⟨_, rfl⟩
    | error f => exact ⟨s.command, rfl⟩
  rcases hCommand with ⟨command, rfl⟩
  refine (Session.settled_tells w₁ o.context _).mono ?_
  intro x s' w' hSettled
  rcases hSettled with ⟨rfl, hRested, hTells, -⟩
  refine ⟨rfl, ⟨command, ?_⟩, hTells⟩
  rw [hRested, Session.rested_command]

theorem conclude_concludes
    (e : Entry) :
    Try.Ends (e.conclude o reply) s w
      (Concludes s o.context reply w e) := by
  cases e with
  | scalar t =>
      unfold conclude
      rw [Try.ends_bind, Try.ends_get]
      refine (settleWhole_tells w reply _).mono ?_
      intro x s' w' hSettled
      rcases hSettled with ⟨hMade, ⟨command, rfl⟩, hTells⟩
      refine .complete (e := .scalar t) x command w' rfl ?_ hTells
      rw [hMade]
      exact congrFun Except.map_id _
  | nonQuery =>
      rw [conclude_nonQuery]
      refine (settleWhole_tells w reply _).mono ?_
      intro x s' w' hSettled
      rcases hSettled with ⟨hMade, ⟨command, rfl⟩, hTells⟩
      refine .complete (e := .nonQuery) x command w' rfl ?_ hTells
      rw [hMade]
      exact congrFun Except.map_id _
  | reader =>
      unfold conclude
      rw [Try.ends_bind]
      cases reply with
      | error f =>
          refine (Session.settled_tells w o.context
            (.error f : Except Failure Outcome)).mono ?_
          intro x s' w' hSettled
          rcases hSettled with ⟨rfl, rfl, hTells, -⟩
          exact .complete (e := .reader) (.error f) _ w' rfl rfl hTells
      | ok outcome => exact .reading _ outcome _ rfl rfl

end Entry

end Failover
