import Failover.Proofs.Health.Alone
import Failover.Proofs.Scene.Session
import Failover.Session.Operation

/-
  The operation of a fresh session, stage by stage: which
  outcomes are recorded at which of them, and what the replies
  of the engine make of it while nothing else goes on.

  Key definitions include:
    * `Repository.bindAnswer`
    * `Backend.reply`
    * `Link.calls`
    * `Session.Binds`, `Session.Opens`, `Session.Starts`

  Main statements:
    * `Session.setCommand_binds`
    * `Session.start_starts`
    * `Session.finish_counts`
    * `Session.settled_counts`
-/

namespace Failover

open World (Change callsOf callsFor noCalls)

------------------------------------------------------------
-- Answers of engines
------------------------------------------------------------

/- The bound form of a command, from a call of some number. -/
def Repository.bindAnswer
    (r : Repository)
    (b : Backend)
    (n : Nat)
    (c : Command) : Except Failure BoundCommand :=
  if r.provider.callsToBind then
    match b.refusal .bind n with
    | some f => .error f
    | none => r.provider.bind c
  else r.provider.bind c

/- What a session makes of the end of its task. -/
def Task.State.reply
    (repository : String) : Task.State → Reply
  | .finished _ result => result
  | .stopped f => .error f
  | _ =>
      .error (.execution repository "Execution task failed" none
        false)

/- The connection that the end of a task leaves. -/
def Task.State.link : Task.State → Link
  | .finished c _ => .opened c
  | _ => .closed

/- The limit is in seconds. -/
def WorkEnd.reply
    (repository : String)
    (limit : Nat) : WorkEnd → Reply
  | .finished result => result
  | .overdue => .error (.timeout repository "Command" limit)
  | .died =>
      .error (.execution repository "Execution task failed" none
        false)

theorem WorkEnd.state_reply
    (c : Connection)
    (limit : Nat)
    (e : WorkEnd) :
    (e.state c limit).reply c.repository =
      e.reply c.repository limit := by
  cases e <;> rfl

theorem Task.State.link_ne_busy
    (x : Task.State) : x.link ≠ .busy := by
  cases x <;> simp [link]

theorem WorkEnd.state_link
    {c c' : Connection}
    {limit : Nat}
    {e : WorkEnd}
    (h : (e.state c limit).link = .opened c') : c' = c := by
  cases e <;> cases h
  rfl

/-
  The reply to a bound command whose first statement has some
  number.
-/
def Backend.reply
    (b : Backend)
    (repository : String)
    (limit n : Nat)
    (command : BoundCommand) : Reply :=
  (b.work (limit * 1000) n 0 (.start command)).reply repository
    limit

namespace World

theorem refused?_change
    (repository : String)
    (call : Call)
    (w : World) :
    Effect.Ends (refused? repository call) w fun f w' =>
      f = (w.backend repository).refusal call
        (w.calls repository call) ∧
      Change (callsFor repository call) [] w w' :=
  ⟨rfl, .call repository call rfl rfl rfl rfl rfl⟩

theorem bindCommand_change
    (r : Repository)
    (c : Command)
    (w : World) :
    Effect.Ends (bindCommand r c) w fun x w' =>
      x = r.bindAnswer (w.backend r.name)
        (w.calls r.name .bind) c ∧
      Change (callsFor r.name .bind) [] w w' := by
  unfold bindCommand Repository.bindAnswer
  split
  · refine (refused?_change r.name .bind w).bind ?_
    intro refusal w₁ hAsked
    rcases hAsked with ⟨hRefusal, hChange⟩
    rw [← hRefusal]
    refine (note_change _ w₁).bind ?_
    intro _ w₂ hNoted
    have hBoth := hChange.unasked hNoted
    cases refusal with
    | some f => exact ⟨rfl, hBoth⟩
    | none => exact ⟨rfl, hBoth⟩
  · exact ⟨rfl, .refl⟩

/- A connection to the repository is opened, or refused. -/
theorem openConnection_change
    (repository : String)
    (w : World) :
    Effect.Ends (openConnection repository) w fun x w' =>
      Change (callsFor repository .opening) [] w w' ∧
      ((∃ f, (w.backend repository).refusal .opening
          (w.calls repository .opening) = some f ∧
          x = .error f) ∨
        ((w.backend repository).refusal .opening
          (w.calls repository .opening) = none ∧
          ∃ c : Connection, c.repository = repository ∧
            x = .ok c)) := by
  unfold openConnection
  refine (refused?_change repository .opening w).bind ?_
  intro refusal w₁ hAsked
  rcases hAsked with ⟨hRefusal, hChange⟩
  rw [← hRefusal]
  cases refusal with
  | some f =>
      refine (note_change _ w₁).bind ?_
      intro _ w₂ hNoted
      exact ⟨hChange.unasked hNoted, .inl ⟨f, rfl, rfl⟩⟩
  | none =>
      have hOpened : Change noCalls [] w₁
          { w₁ with connections := w₁.connections + 1 } :=
        .aside rfl rfl rfl rfl rfl
      simp only
      rw [Effect.ends_bind, Effect.ends_modifyGet]
      refine (note_change _ _).bind ?_
      intro _ w₂ hNoted
      constructor
      · exact (hChange.unasked hOpened).unasked hNoted
      · exact .inr ⟨trivial, ⟨w₁.connections, repository⟩, rfl,
          rfl⟩

/-
  Work that begins is waited for.  No outcome is recorded of
  it, and its end is foretold if nothing else goes on.
-/
theorem work_change
    {c : Connection}
    {limit : Nat}
    {b : BoundCommand}
    {id : Nat}
    {w w₁ : World}
    (hBegun : Effect.Leads (spawn c limit b) w id w₁) :
    Effect.Ends (await id) w₁ fun state w' =>
      Change (callsFor c.repository .fetch) [] w w' ∧
      (w.IsQuiet → state = ((w.backend c.repository).work
        (limit * 1000) (w.calls c.repository .fetch) 0
        (.start b)).state c limit) := by
  have hFirst : w.Unrecorded w₁ :=
    (hBegun.ends_iff _).mp (spawn_recordsNothing c limit b w)
  have hLast := await_recordsNothing id w₁
  have hAlone (hQuiet : w.IsQuiet) :=
    work_alone w hQuiet hBegun
  refine ⟨⟨tallies_congr (hFirst.trans hLast).health, ?_⟩, ?_⟩
  · exact fun hQuiet => (hAlone hQuiet).2
  · exact fun hQuiet => (hAlone hQuiet).1

end World

------------------------------------------------------------
-- Commands and connections
------------------------------------------------------------

/- The calls of the engine that a connection comes from. -/
def Link.calls : Link → String → Call → Prop
  | .opened c => callsOf c.repository
  | _ => noCalls

namespace Session

variable {s : Session} (w : World)

/- What comes of binding a command to a session. -/
inductive Binds
    (s : Session)
    (w : World)
    (c : Command) :
    Except Failure Unit → Session → World → Prop where
  | bound (b : BoundCommand) (w' : World)
      (hAnswer : s.repository.bindAnswer
        (w.backend s.repository.name)
        (w.calls s.repository.name .bind) c = .ok b)
      (hChange : Change (callsFor s.repository.name .bind) []
        w w') :
      Binds s w c (.ok ())
        { s with command := some c, bound := some b } w'
  | failed (f : Failure) (w' : World)
      (hAnswer : s.repository.bindAnswer
        (w.backend s.repository.name)
        (w.calls s.repository.name .bind) c = .error f)
      (hChange : Change (callsFor s.repository.name .bind)
        [(s.repository.name, false)] w w') :
      Binds s w c (.error f)
        { s with command := none, bound := none } w'

theorem setCommand_binds
    (c : Command)
    (hUsable : s.disposed = false)
    (hLink : s.link ≠ .busy) :
    Try.Ends (setCommand c) s w (Binds s w c) := by
  rcases s with ⟨i, r, n, command, bound, link, mark, disposed⟩
  cases hUsable
  unfold setCommand
  simp only [Try.ends_bind, ends_ensureUsable,
    Bool.false_eq_true, if_false, Try.ends_get, hLink,
    Try.ends_modify, Try.ends_liftEffect]
  refine (World.bindCommand_change r c w).mono ?_
  intro x w₁ hBound
  rcases hBound with ⟨hAnswer, hChange⟩
  cases x with
  | ok b => exact .bound b w₁ hAnswer.symm hChange
  | error f =>
      have hRecorded := hChange.unasked
        (World.recordFailure_change r.name f w₁)
      exact .failed f _ hAnswer.symm
        (hRecorded.unasked (World.note_change _ _))

/- What comes of opening a connection. -/
inductive Opens
    (s : Session)
    (w : World) :
    Except Failure Unit → Session → World → Prop where
  | opened (c : Connection) (w' : World)
      (hRefusal : (w.backend s.repository.name).refusal .opening
        (w.calls s.repository.name .opening) = none)
      (hRepository : c.repository = s.repository.name)
      (hChange : Change (callsFor s.repository.name .opening) []
        w w') :
      Opens s w (.ok ()) { s with link := .opened c } w'
  | failed (f : Failure) (w' : World)
      (hRefusal : (w.backend s.repository.name).refusal .opening
        (w.calls s.repository.name .opening) = some f)
      (hChange : Change (callsFor s.repository.name .opening)
        [(s.repository.name, false)] w w') :
      Opens s w (.error f) s w'

theorem openLink_opens :
    Try.Ends openLink s w (Opens s w) := by
  unfold openLink
  simp only [Try.ends_bind, Try.ends_get, Try.ends_liftEffect]
  refine (World.openConnection_change s.repository.name w).mono ?_
  intro x w₁ hOpened
  rcases hOpened with ⟨hChange, ⟨f, hRefusal, rfl⟩ |
    ⟨hRefusal, c, hRepository, rfl⟩⟩
  · have hRecorded := hChange.unasked
      (World.recordFailure_change s.repository.name f w₁)
    exact .failed f _ hRefusal
      (hRecorded.unasked (.aside rfl rfl rfl rfl rfl))
  · exact .opened c _ hRefusal hRepository
      (hChange.unasked (.aside rfl rfl rfl rfl rfl))

------------------------------------------------------------
-- Work
------------------------------------------------------------

/-
  What comes of starting a bound command on a closed session.
  The work begins on a connection that is opened for it.
-/
inductive Starts
    (s : Session)
    (w : World)
    (c : Command)
    (b : BoundCommand) :
    Except Failure Operation → Session → World → Prop where
  | begun (o : Operation) (c' : Connection) (w₁ w' : World)
      (hRefusal : (w.backend s.repository.name).refusal .opening
        (w.calls s.repository.name .opening) = none)
      (hRepository : c'.repository = s.repository.name)
      (hChange : Change (callsFor s.repository.name .opening) []
        w w₁)
      (hOwn : o.session = s.id)
      (hOpened : o.context.openedHere = true)
      (hBegun : Effect.Leads
        (World.spawn c' (c.timeout.getD s.defaultTimeout) b) w₁
        o.task w') :
      Starts s w c b (.ok o) { s with link := .busy } w'
  | failed (f : Failure) (w' : World)
      (hRefusal : (w.backend s.repository.name).refusal .opening
        (w.calls s.repository.name .opening) = some f)
      (hChange : Change (callsFor s.repository.name .opening)
        [(s.repository.name, false)] w w') :
      Starts s w c b (.error f) s w'

theorem start_starts
    {c : Command}
    {b : BoundCommand}
    (kind : Operation.Kind)
    (hUsable : s.disposed = false)
    (hLink : s.link = .closed)
    (hCommand : s.command = some c)
    (hBound : s.bound = some b) :
    Try.Ends (start kind) s w (Starts s w c b) := by
  rcases s with ⟨i, r, n, command, bound, link, mark, disposed⟩
  cases hUsable
  cases hLink
  cases hCommand
  cases hBound
  unfold start boundCommand ensureOpen
  simp only [Try.ends_bind, ends_ensureUsable,
    Bool.false_eq_true, if_false, Try.ends_get, reduceCtorEq,
    Try.ends_pure, Try.ends_liftEffect]
  rw [World.note, Effect.ends_modify]
  refine (openLink_opens _).mono ?_
  intro x s₁ w₁ hOpens
  cases hOpens with
  | failed f w' hRefusal hChange =>
      exact .failed f _ hRefusal ((Change.logged _).trans hChange)
  | opened c' w' hRefusal hRepository hChange =>
      simp only [Try.ends_bind, Try.ends_getWorld, Try.ends_set,
        Try.ends_liftEffect]
      rcases Effect.exists_leads
        (World.spawn c' (c.timeout.getD n) b) w₁ with
        ⟨id, w₂, hBegun⟩
      rw [hBegun.ends_iff]
      exact .begun _ c' w₁ w₂ hRefusal hRepository
        ((Change.logged _).trans hChange) rfl rfl hBegun

/-
  The end of the work gives a reply, which may be a failure.
  Its connection comes back, or the session is closed.
-/
theorem finish_counts
    {o : Operation}
    {c : Connection}
    {limit : Nat}
    {b : BoundCommand}
    {w₁ : World}
    (hOwn : o.session = s.id)
    (hTransaction : s.inTransaction = false)
    (hRepository : c.repository = s.repository.name)
    (hBegun : Effect.Leads (World.spawn c limit b) w o.task w₁) :
    Try.Ends (finish o) s w₁ fun x s' w' =>
      ∃ reply link, x = .ok reply ∧ s' = { s with link } ∧
        link ≠ .busy ∧
        Change (callsFor s.repository.name .fetch) [] w w' ∧
        (w.IsQuiet →
          reply = (w.backend s.repository.name).reply
            s.repository.name limit
            (w.calls s.repository.name .fetch) b ∧
          ∀ c', link = .opened c' → c' = c) := by
  rcases s with ⟨i, r, n, command, bound, link, mark, disposed⟩
  cases hTransaction
  rw [← hRepository]
  unfold finish
  simp only [Try.ends_bind, Try.ends_get, hOwn, ne_eq,
    not_true, if_false, Try.ends_liftEffect]
  refine (World.work_change hBegun).mono ?_
  intro state w₂ hEnded
  rcases hEnded with ⟨hChange, hState⟩
  have hAlone (hQuiet : w.IsQuiet) :
      state.reply c.repository =
        (w.backend c.repository).reply c.repository limit
          (w.calls c.repository .fetch) b ∧
      ∀ c', state.link = .opened c' → c' = c := by
    rw [hState hQuiet]
    exact ⟨WorkEnd.state_reply c limit _,
      fun _ hLink => WorkEnd.state_link hLink⟩
  have hLeft := state.link_ne_busy
  refine ⟨state.reply c.repository, state.link, ?_⟩
  -- Losing the connection asks nothing of the engine.
  cases state with
  | finished c' result =>
      exact ⟨rfl, rfl, hLeft, hChange, hAlone⟩
  | stopped f =>
      exact ⟨rfl, rfl, hLeft,
        hChange.unasked (.aside rfl rfl rfl rfl rfl), hAlone⟩
  | died =>
      refine ⟨?_, rfl, hLeft,
        hChange.unasked (.aside rfl rfl rfl rfl rfl), hAlone⟩
      rw [hRepository]
      rfl
  | waiting time p reply =>
      refine ⟨?_, rfl, hLeft,
        hChange.unasked (.aside rfl rfl rfl rfl rfl), hAlone⟩
      rw [hRepository]
      rfl

------------------------------------------------------------
-- Settling
------------------------------------------------------------

/- Exactly one outcome is recorded. -/
theorem recordOutcome_counts
    (context : Operation.Context)
    (cause : Option Failure)
    (reported : Bool) :
    Act.Ends (recordOutcome context cause reported) s w
      fun _ s' w' => s' = s ∧
        Change noCalls [(s.repository.name, cause.isNone)] w w' := by
  cases cause with
  | none =>
      refine ⟨rfl, ?_⟩
      exact (World.recordSuccess_change _ _ w).unasked (.logged _)
  | some f =>
      have hRecorded :=
        World.recordFailure_change s.repository.name f w
      cases reported with
      | true => exact ⟨rfl, hRecorded.unasked (.logged _)⟩
      | false =>
          exact ⟨rfl, (hRecorded.unasked (.logged _)).unasked
            (.logged _)⟩

/- The connection goes back, and the session is closed. -/
theorem closeOpenedHere_counts
    {context : Operation.Context}
    (hOpened : context.openedHere = true)
    (hTransaction : s.inTransaction = false)
    (hLink : s.link ≠ .busy) :
    Act.Ends (closeOpenedHere context) s w fun _ s' w' =>
      s' = { s with link := .closed } ∧
      Change s.link.calls [] w w' := by
  rcases s with ⟨i, r, n, command, bound, link, mark, disposed⟩
  cases hTransaction
  unfold closeOpenedHere closeLink
  simp only [Act.ends_bind, Act.ends_get, hOpened, Bool.not_false,
    Bool.and_self, if_true, Bool.false_eq_true, if_false]
  cases link with
  | busy => exact absurd rfl hLink
  | closed => exact ⟨rfl, .refl⟩
  | opened c =>
      simp only [Act.ends_bind, Act.ends_set, Act.ends_lift]
      refine (World.callOn_change c .close w).mono ?_
      intro result w₁ hCalled
      have hClosed : Change (Link.opened c).calls [] w w₁ :=
        hCalled.mono fun _ _ hCall => hCall.1
      cases result with
      | ok _ =>
          exact ⟨rfl, hClosed.unasked (.aside rfl rfl rfl rfl rfl)⟩
      | error f =>
          exact ⟨rfl, hClosed.unasked (.aside rfl rfl rfl rfl rfl)⟩

theorem settle_counts
    {context : Operation.Context}
    (cause : Option Failure)
    (reported : Bool)
    (hOpened : context.openedHere = true)
    (hTransaction : s.inTransaction = false)
    (hLink : s.link ≠ .busy) :
    Act.Ends (settle context cause reported) s w fun _ s' w' =>
      s' = { s with link := .closed } ∧
      Change s.link.calls [(s.repository.name, cause.isNone)]
        w w' := by
  unfold settle
  refine (recordOutcome_counts w context cause reported).bind ?_
  intro _ s₁ w₁ hRecorded
  rcases hRecorded with ⟨rfl, hCounted⟩
  refine (closeOpenedHere_counts w₁ hOpened hTransaction
    hLink).mono ?_
  intro _ s' w' hClosed
  refine ⟨hClosed.1, ?_⟩
  exact (hCounted.mono fun _ _ hNone => hNone.elim).trans
    hClosed.2

theorem settled_counts
    {α : Type}
    {context : Operation.Context}
    (result : Except Failure α)
    (hOpened : context.openedHere = true)
    (hTransaction : s.inTransaction = false)
    (hLink : s.link ≠ .busy) :
    Try.Ends (settled context result) s w fun x s' w' =>
      x = result ∧ s' = { s with link := .closed } ∧
      Change s.link.calls [(s.repository.name, result.isOk)]
        w w' := by
  unfold settled
  cases result with
  | ok a =>
      rw [Try.ends_bind, Try.ends_liftAct]
      refine (settle_counts w none false hOpened hTransaction
        hLink).mono ?_
      intro _ s' w' hSettled
      exact ⟨rfl, hSettled⟩
  | error f =>
      rw [Try.ends_bind, Try.ends_liftAct]
      refine (settle_counts w (some f) false hOpened hTransaction
        hLink).mono ?_
      intro _ s' w' hSettled
      exact ⟨rfl, hSettled⟩

/- A closed session is dropped without a trace. -/
theorem drop_leads
    (hLink : s.link = .closed) :
    Effect.Leads s.drop w () w := by
  unfold drop
  rw [hLink]
  rfl

------------------------------------------------------------
-- Results
------------------------------------------------------------

/- The command takes the outputs of a whole outcome. -/
theorem takeWhole_ends
    (s : Session)
    (reply : Reply) :
    Act.Ends (takeWhole reply) s w fun whole s' w' =>
      whole = Progress.whole reply ∧ w' = w ∧
      s' = match Progress.whole reply with
        | .ok o => { s with
            command := s.command.map (·.storeOutputs o.outputs) }
        | .error _ => s := by
  unfold takeWhole
  cases Progress.whole reply with
  | error f => exact ⟨rfl, rfl, rfl⟩
  | ok o => exact ⟨rfl, rfl, rfl⟩

/- A whole outcome is turned into a result, and settled. -/
theorem settleWhole_counts
    {α : Type}
    {c : Command}
    {context : Operation.Context}
    (reply : Reply)
    (result : Outcome → Except Failure α)
    (hOpened : context.openedHere = true)
    (hTransaction : s.inTransaction = false)
    (hLink : s.link ≠ .busy)
    (hCommand : s.command = some c) :
    Try.Ends (do
        let whole ← ExceptT.lift (takeWhole reply)
        settled context (whole.bind result)) s w
      fun x s' w' =>
        x.map (·, s'.command) =
          ((Progress.whole reply).bind fun o => (result o).map
            (·, some (c.storeOutputs o.outputs))) ∧
        s'.inTransaction = false ∧ s'.link = .closed ∧
        Change s.link.calls [(s.repository.name, x.isOk)] w w' := by
  rcases s with ⟨i, r, n, command, bound, link, mark, disposed⟩
  cases hTransaction
  cases hCommand
  rw [Try.ends_bind, Try.ends_lift]
  refine (takeWhole_ends w _ reply).mono ?_
  intro whole s₁ w₁ hTaken
  rcases hTaken with ⟨rfl, rfl, rfl⟩
  cases Progress.whole reply with
  | error f =>
      refine (settled_counts w₁ (.error f) hOpened rfl
        hLink).mono ?_
      intro x s' w' hSettled
      rcases hSettled with ⟨rfl, rfl, hChange⟩
      exact ⟨rfl, rfl, rfl, hChange⟩
  | ok o =>
      let s₁ : Session := ⟨i, r, n, some (c.storeOutputs o.outputs),
        bound, link, false, disposed⟩
      refine (settled_counts (s := s₁) w₁ (result o)
        hOpened rfl hLink).mono ?_
      intro x s' w' hSettled
      rcases hSettled with ⟨rfl, rfl, hChange⟩
      exact ⟨rfl, rfl, rfl, hChange⟩

end Session

end Failover
