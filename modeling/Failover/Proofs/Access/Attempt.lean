import Failover.Proofs.Access.Work
import Failover.Proofs.Scene.Access

/-
  Attempts on the members of a cluster.  The failure of one
  that counts as a failure before the execution came up before
  the connection was opened, or is explained by what was sent.

  Key definitions include:
    * `Session.Blames`
    * `Session.Answers`
    * `DataAccess.Explained`

  Main statements:
    * `DataAccess.attemptOn_explained`
    * `DataAccess.attemptReaderOn_explained`
-/

namespace Failover

open Progress (failures)
open Scene (Known)

namespace Session

variable {α : Type}

------------------------------------------------------------
-- Results
------------------------------------------------------------

/-
  A failure that counts as one before the execution came with
  what the task of the operation has given.
-/
def Blames
    (o : Operation)
    (w : World)
    (r : Except Failure α)
    (w' : World) : Prop :=
  ∀ f, r = .error f → f.isPreExecution = true →
    ∃ reply l, w.ledger.Steps l ∧ l.log <+: w'.log ∧
      Gives l o.task reply ∧ f ∈ failures reply

/-
  A failure that is no opening failure blames nothing that
  was not sent.
-/
theorem Blames.late
    {o : Operation}
    {w w' : World}
    {f : Failure}
    (hLate : f.isPreExecution = false) :
    Blames o w (.error f : Except Failure α) w' := by
  rintro f' hFail hPre
  cases hFail
  rw [hLate] at hPre
  cases hPre

variable (s : Session) (w : World) (o : Operation)

/-
  Settling an operation with its reply blames it for an
  opening failure only if the reply is this failure.
-/
theorem settleWhole_blames
    {s₁ : Session}
    {w w₁ : World}
    {o : Operation}
    {l : Ledger}
    {reply : Reply}
    (hSteps : w.ledger.Steps l)
    (hPrefix : l.log <+: w₁.log)
    (hGives : Gives l o.task reply)
    (result : Reply → Except Failure α)
    (hResult : ∀ x f, result x = .error f →
      f.isPreExecution = true → x = .error f) :
    Try.Ends (do
        let whole ← ExceptT.lift (takeWhole reply)
        settled o.context (result whole)) s₁ w₁
      fun r _ w' => Blames o w r w' := by
  rw [Try.ends_bind, Try.ends_lift]
  refine (takeWhole_goes s₁ w₁ reply).mono ?_
  rintro whole s₂ w₂ ⟨hTaken, -, rfl⟩
  refine (settled_ends s₂ w₂ o.context _).mono ?_
  rintro r s' w' ⟨rfl, hSettled, -⟩ f hFail hPre
  refine ⟨reply, l, hSteps, ?_, hGives, ?_⟩
  · exact hPrefix.trans (hTaken.trans hSettled).log_grows
  · exact Progress.whole_failures (hResult _ f hFail hPre)

/-
  Completing a command without rows blames only what its
  operation knows.
-/
theorem completeNonQuery_blames :
    Try.Ends (completeNonQuery o) s w
      fun r _ w' => Blames o w r w' := by
  unfold completeNonQuery
  rw [Try.ends_bind]
  refine (finish_ends s o w).mono ?_
  rintro r s₁ w₁ (⟨f, rfl, -, -, hLate⟩ |
    ⟨reply, rfl, -, -, l, hSteps, hNothing, hGives⟩)
  · exact .late hLate
  · refine settleWhole_blames hSteps hNothing.grows hGives _ ?_
    intro x f hFail _
    cases x with
    | ok outcome => cases hFail
    | error f' =>
        cases hFail
        rfl

/- A value that cannot be converted is no opening failure. -/
theorem scalarOf_late
    {repository : String}
    {t : Target}
    {outcome : Outcome}
    {f : Failure}
    (h : scalarOf repository t outcome = .error f) :
    f.isPreExecution = false := by
  unfold scalarOf at h
  cases hConvert : t.convert (outcome.first?.getD .null) with
  | ok a =>
      rw [hConvert] at h
      cases h
  | error e =>
      rw [hConvert] at h
      cases h
      rfl

/-
  Completing a query for a value blames only what its
  operation knows.
-/
theorem completeScalar_blames (t : Target) :
    Try.Ends (completeScalar o t) s w
      fun r _ w' => Blames o w r w' := by
  unfold completeScalar
  rw [Try.ends_bind]
  refine (finish_ends s o w).mono ?_
  rintro r s₁ w₁ (⟨f, rfl, -, -, hLate⟩ |
    ⟨reply, rfl, -, -, l, hSteps, hNothing, hGives⟩)
  · exact .late hLate
  · simp only
    rw [Try.ends_bind, Try.ends_get]
    refine settleWhole_blames hSteps hNothing.grows hGives _ ?_
    intro x f hFail hPre
    cases x with
    | ok outcome =>
        rw [scalarOf_late hFail] at hPre
        cases hPre
    | error f' =>
        cases hFail
        rfl

/-
  Completing a query for rows blames only what its operation
  knows.
-/
theorem completeRows_blames :
    Try.Ends (completeRows o) s w
      fun r _ w' => Blames o w r w' := by
  unfold completeRows
  rw [Try.ends_bind]
  refine (finish_ends s o w).mono ?_
  rintro r s₁ w₁ (⟨f, rfl, -, -, hLate⟩ |
    ⟨reply, rfl, -, -, l, hSteps, hNothing, hGives⟩)
  · exact .late hLate
  cases reply with
  | ok outcome => exact nofun
  | error f =>
      refine (settled_ends s₁ w₁ o.context (.error f)).mono ?_
      rintro r s' w' ⟨rfl, hSettled, -⟩ f' hFail hPre
      cases hFail
      refine ⟨.error f, l, hSteps, ?_, hGives, ?_⟩
      · exact hNothing.grows.trans hSettled.log_grows
      · exact List.mem_singleton_self f

------------------------------------------------------------
-- Operations on closed sessions
------------------------------------------------------------

/-
  A task begins with the first statement of its command, on
  the connection that its session had until then.
-/
theorem beginning_works
    {s : Session}
    {ss : List Session}
    {os : List Operation}
    {l : Ledger}
    {c : Connection}
    {b : BoundCommand}
    (limit deadline time : Nat)
    (hKnown : Known ⟨s :: ss, os, l⟩)
    (hLink : s.link = .opened c)
    (hNothing : exchanges l.backend c l.log = []) :
    (beginning l c b limit deadline time).Works l.started c b := by
  let s₀ := (Progress.start b).statement
  let t : Task := ⟨l.started, c, limit, deadline,
    .waiting time (.start b) (l.reply? c s₀)⟩
  have hThis : (beginning l c b limit deadline time).task?
      l.started = some t :=
    (Scene.task?_start (t := t) hKnown.sound.numbered.started
      rfl).1
  have hSent : exchanges l.backend c
      (beginning l c b limit deadline time).log =
        [⟨s₀, l.reply? c s₀⟩] := by
    have hAsked := Ledger.exchanges_ask (c := c) s₀
      (hKnown.sound.answered.counted c.repository)
    rw [hNothing] at hAsked
    exact hAsked
  have hAwaits : b.Awaits (.start b) (l.reply? c s₀)
      (exchanges l.backend c
        (beginning l c b limit deadline time).log) := by
    rw [hSent]
    exact ⟨[], .start b, rfl⟩
  refine ⟨fun id hOwn => ?_, ⟨_, _, hAwaits⟩, fun u hTask => ?_⟩
  · by_contra hOther
    have hBefore : (beginning l c b limit deadline time).own? id =
        l.own? id := by
      have hNot : (l.started == id) = false :=
        beq_false_of_ne (Ne.symm hOther)
      simp [Ledger.own?, Ledger.task?, beginning, Ledger.start,
        Ledger.ask, List.find?_append, hNot]
    refine Scene.own?_ne_link hKnown.sound hKnown.clean.sole
      (List.mem_cons_self ..) hLink id ?_
    rw [← hBefore]
    exact hOwn
  · cases hThis.symm.trans hTask
    exact ⟨rfl, hAwaits⟩

/-
  On a closed session an operation works on the connection
  that is opened for it, or nothing is opened.
-/
theorem start_works
    {s : Session}
    {w : World}
    {b : BoundCommand}
    {ss : List Session}
    {os : List Operation}
    (kind : Operation.Kind)
    (hLink : s.link = .closed)
    (hBound : s.bound = some b)
    (hKnown : Known ⟨s :: ss, os, w.ledger⟩) :
    Try.Ends (start kind) s w fun r s' w' =>
      (∃ o, r = .ok o ∧ o.session = s.id ∧
        s' = { s with link := .busy } ∧
        Known ⟨s' :: ss, o :: os, w'.ledger⟩ ∧
        w'.backend = w.backend ∧
        w'.ledger.Works o.task
          (w.ledger.nextConnection s.repository) b) ∨
      (∃ f, r = .error f ∧ s' = s ∧
        w.ledger.Steps w'.ledger) := by
  refine (start_begins (fun _ => False) s w kind).mono ?_
  rintro r s' w' (⟨o, c, b', w₁, rfl, -, rfl, -, hSame, hBegins,
    limit, deadline, time, hWork⟩ | ⟨f, rfl, rfl, hSteps⟩)
  · cases hBound.symm.trans hSame
    have hOpened := hKnown.steps (hBegins.goes.steps.frame ss os)
    have hBackend : w₁.backend = w.backend :=
      ((hBegins.goes.steps.frame ss os).custody hKnown.sound).1
    have hNothing : exchanges w₁.backend c w₁.log = [] := by
      rw [hBegins.nothing.exchanges_eq, hBegins.new hLink]
      exact hKnown.fresh.exchanges_next _ (Nat.le_refl _)
    have hBegun : Known ⟨{ s with link := .busy } :: ss, o :: os,
        beginning w₁.ledger c b limit deadline time⟩ :=
      hKnown.steps ((hBegins.steps hBound).frame ss os)
    have hWorks := beginning_works (b := b) limit deadline time
      hOpened rfl hNothing
    have hThere : w'.ledger.Works w₁.started c b :=
      hWorks.steps hBegun.sound hWork
    have hGoes : Scene.Steps (fun _ => False) _
        ⟨{ s with link := .busy } :: ss, o :: os, w'.ledger⟩ :=
      .around hWork
    refine .inl ⟨o, rfl, hBegins.session, rfl, hBegun.steps hGoes,
      ?_, ?_⟩
    · exact (hGoes.custody hBegun.sound).1.trans hBackend
    · rw [hBegins.task, ← hBegins.new hLink]
      exact hThere
  · exact .inr ⟨f, rfl, rfl, hSteps⟩

/-
  A failure that counts as one before the execution came up
  with the session as it was, or is explained by what was sent
  on the connection that was opened.
-/
def Answers
    (s : Session)
    (w : World)
    (b : BoundCommand)
    (r : Except Failure α)
    (s' : Session)
    (w' : World) : Prop :=
  ∀ f, r = .error f → f.isPreExecution = true →
    s' = s ∧ w.ledger.Steps w'.ledger ∨
    b.Explains s.repository.name
      (exchanges w.backend
        (w.ledger.nextConnection s.repository) w'.log) f

/- The failures of an operation that works on a connection. -/
theorem Blames.explains
    {w w' : World}
    {o : Operation}
    {c : Connection}
    {b : BoundCommand}
    {ss : List Session}
    {os : List Operation}
    {r : Except Failure α}
    (hKnown : Known ⟨ss, os, w.ledger⟩)
    (hBuiltIn : (w.backend c.repository).IsBuiltIn c.repository)
    (hWorks : w.ledger.Works o.task c b)
    (h : Blames o w r w') :
    ∀ f, r = .error f → f.isPreExecution = true →
      b.Explains c.repository (exchanges w.backend c w'.log) f := by
  intro f hFail hPre
  rcases h f hFail hPre with ⟨reply, l, hSteps, hPrefix, hGives, hMem⟩
  have hThere := hWorks.steps hKnown.sound hSteps
  have hAround : Scene.Steps (fun _ => False) _ ⟨ss, os, l⟩ :=
    .around hSteps
  have hBackend : l.backend = w.backend :=
    (hAround.custody hKnown.sound).1
  cases hGives with
  | finished hTask hState =>
      have hAt := (hThere.state _ hTask).2
      rw [hState, hBackend] at hAt
      have hExplained := hAt.explained fun x hX =>
        exchange_isBuiltIn hBuiltIn hX
      exact BoundCommand.Explains.later (hExplained f hMem)
        (exchanges_grow hPrefix)
  | stopped hTask hState =>
      have hAt := (hThere.state _ hTask).2
      rw [hState] at hAt
      rw [List.mem_singleton.mp hMem] at hPre
      rw [hAt] at hPre
      cases hPre
  | lost hLate =>
      rw [List.mem_singleton.mp hMem, hLate] at hPre
      cases hPre

/- An operation from its start to its end. -/
theorem run_answers
    {s : Session}
    {w : World}
    {b : BoundCommand}
    {ss : List Session}
    {os : List Operation}
    (kind : Operation.Kind)
    (complete : Operation → Try α)
    (hComplete : ∀ o s w, Try.Ends (complete o) s w
      fun r _ w' => Blames o w r w')
    (hLink : s.link = .closed)
    (hBound : s.bound = some b)
    (hKnown : Known ⟨s :: ss, os, w.ledger⟩)
    (hBuiltIn : ∀ r, (w.backend r).IsBuiltIn r) :
    Try.Ends (do complete (← start kind)) s w
      (Answers s w b) := by
  rw [Try.ends_bind]
  refine (start_works kind hLink hBound hKnown).mono ?_
  rintro r s₁ w₁ (⟨o, rfl, -, -, hBegun, hBackend, hWorks⟩ |
    ⟨f, rfl, hSame, hSteps⟩)
  · refine (hComplete o s₁ w₁).mono ?_
    intro r _ w' hBlames f hFail hPre
    refine .inr ?_
    rw [← hBackend]
    exact hBlames.explains hBegun (hBackend ▸ hBuiltIn _) hWorks
      f hFail hPre
  · exact fun _ _ _ => .inl ⟨hSame, hSteps⟩

/- A reader that cannot be opened fails as its operation. -/
theorem openReader_blames
    (s : Session)
    (w : World)
    (o : Operation) :
    Effect.Ends (s.openReader o) w fun x w' =>
      Blames o w x.1 w' := by
  unfold openReader
  rw [Effect.ends_bind, Act.ends_run, Try.ends_run]
  refine (completeRows_blames s w o).mono ?_
  intro r s' w' hBlames
  cases r with
  | ok outcome => exact nofun
  | error f =>
      intro f' hFail
      cases hFail
      exact hBlames f rfl

end Session

------------------------------------------------------------
-- Attempts
------------------------------------------------------------

namespace DataAccess

open Session (Answers openReader_blames)

variable {α β : Type}

/- A command that is run answers for its failures. -/
def Accounts (run : Session.Try α) : Prop :=
  ∀ s w b ss os, s.link = .closed → s.bound = some b →
    Known ⟨s :: ss, os, w.ledger⟩ →
    (∀ r, (w.backend r).IsBuiltIn r) →
    Try.Ends run s w (Answers s w b)

theorem accounts_nonQuery :
    Accounts Session.executeNonQuery := by
  intro s w b ss os hLink hBound hKnown hBuiltIn
  exact Session.run_answers .nonQuery _
    (fun o s w => Session.completeNonQuery_blames s w o)
    hLink hBound hKnown hBuiltIn

theorem accounts_scalar (t : Target) :
    Accounts (Session.executeScalar t) := by
  intro s w b ss os hLink hBound hKnown hBuiltIn
  exact Session.run_answers .scalar _
    (fun o s w => Session.completeScalar_blames s w o t)
    hLink hBound hKnown hBuiltIn

/-
  The same of an attempt on a session, which may have failed
  to bind its command as well.
-/
def TellsOn
    (c : Command)
    (s : Session)
    (w : World)
    (x : Except Failure β)
    (s' : Session)
    (w' : World) : Prop :=
  ∀ f, x = .error f → f.isPreExecution = true →
    (s'.link = .closed ∧ w.ledger.Steps w'.ledger) ∨
    ∃ b, s.repository.provider.bind c = .ok b ∧
      b.Explains s.repository.name
        (exchanges w.backend
          (w.ledger.nextConnection s.repository) w'.log) f

/- An attempt fails with the failure of its command only. -/
theorem closeAttempt_error
    (s : Session)
    (w : World)
    (result : Except Failure α) :
    Act.Ends (closeAttempt result) s w fun x _ _ =>
      ∀ f, x = .error f → result = .error f := by
  unfold closeAttempt
  refine Act.Ends.bind (P := fun _ _ _ => True) trivial ?_
  intro _ s₁ w₁ _
  refine Act.Ends.bind (P := fun _ _ _ => True) trivial ?_
  intro disposed s₂ w₂ _
  cases result with
  | error f =>
      intro f' hFail
      cases hFail
      rfl
  | ok a =>
      cases disposed with
      | ok _ => exact nofun
      | error f => exact nofun

/- Giving up on a closed session leaves the world as it is. -/
theorem closeAttempt_closed
    {s : Session}
    (w : World)
    (f : Failure)
    (hLink : s.link = .closed)
    (hTransaction : s.inTransaction = false) :
    Act.Ends (closeAttempt (.error f : Except Failure α)) s w
      fun _ s' w' => s'.link = .closed ∧ w' = w := by
  rcases s with ⟨i, r, n, command, bound, link, mark, disposed⟩
  cases hLink
  cases hTransaction
  cases disposed <;> exact ⟨rfl, rfl⟩

/-
  An attempt in a fresh session tells by its failure what
  was sent of the command.
-/
theorem attempt_tells
    {s : Session}
    {w : World}
    {c : Command}
    {run : Session.Try α}
    {ss : List Session}
    {os : List Operation}
    (hAccounts : Accounts run)
    (hLink : s.link = .closed)
    (hTransaction : s.inTransaction = false)
    (hKnown : Known ⟨s :: ss, os, w.ledger⟩)
    (hBuiltIn : ∀ r, (w.backend r).IsBuiltIn r) :
    Act.Ends (attempt c run) s w (TellsOn c s w) := by
  unfold attempt
  rw [Act.ends_bind, Try.ends_run]
  refine (Session.setCommand_goes (fun _ => False) s w c).mono ?_
  rintro bound s₁ w₁ ⟨hGoes₁, ⟨command, bound', rfl⟩, hSteps₁,
    hBound⟩
  cases bound with
  | error f => exact fun _ _ _ => .inl ⟨hLink, hSteps₁⟩
  | ok _ =>
      rcases hBound rfl with ⟨b, hB, hBind⟩
      let s₁ := { s with command, bound := bound' }
      have hSet := hGoes₁.steps.frame ss os
      have hBackend : w₁.backend = w.backend :=
        (hSet.custody hKnown.sound).1
      simp only
      rw [Act.ends_bind, Try.ends_run]
      refine Act.Ends.mono (hAccounts s₁ w₁ b ss os hLink hB
        (hKnown.steps hSet) (hBackend ▸ hBuiltIn)) ?_
      intro r s₂ w₂ hAnswers
      cases r with
      | ok a =>
          refine (closeAttempt_error s₂ w₂ (.ok a)).mono ?_
          intro x s' w' hError f hFail
          cases hError f hFail
      | error f =>
          by_cases hPre : f.isPreExecution = true
          · rcases hAnswers f rfl hPre with ⟨rfl, hSteps⟩ | hExplains
            · refine (closeAttempt_closed w₂ f hLink
                hTransaction).mono ?_
              rintro x s' w' ⟨hClosed, rfl⟩ f' - -
              exact .inl ⟨hClosed, hSteps₁.trans hSteps⟩
            · refine ((closeAttempt_goes s₂ w₂ (.error f)).and
                (closeAttempt_error s₂ w₂ (.error f))).mono ?_
              rintro x s' w' ⟨hGoes, hError⟩ f' hFail -
              cases hError f' hFail
              refine .inr ⟨b, hBind, ?_⟩
              have hLater := hExplains.later
                (exchanges_grow hGoes.log_grows)
              rw [hBackend] at hLater
              rw [Ledger.nextConnection, ← hSteps₁.connections_eq]
              exact hLater
          · refine (closeAttempt_error s₂ w₂ (.error f)).mono ?_
            intro x s' w' hError f' hFail hPre'
            cases hError f' hFail
            exact absurd hPre' hPre

/- A command starts, and works on a connection of its own. -/
theorem startReader_works
    {s : Session}
    {w : World}
    {ss : List Session}
    {os : List Operation}
    (c : Command)
    (hLink : s.link = .closed)
    (hKnown : Known ⟨s :: ss, os, w.ledger⟩) :
    Try.Ends (startReader c) s w fun x s' w' =>
      (∃ o b, x = .ok o ∧
        s.repository.provider.bind c = .ok b ∧
        Known ⟨s' :: ss, o :: os, w'.ledger⟩ ∧
        w'.backend = w.backend ∧
        w'.ledger.Works o.task
          (w.ledger.nextConnection s.repository) b) ∨
      (∃ f, x = .error f ∧ s'.link = .closed ∧
        w.ledger.Steps w'.ledger) := by
  unfold startReader
  rw [Try.ends_bind]
  refine (Session.setCommand_goes (fun _ => False) s w c).mono ?_
  rintro bound s₁ w₁ ⟨hGoes₁, ⟨command, bound', rfl⟩, hSteps₁,
    hBound⟩
  cases bound with
  | error f => exact .inr ⟨f, rfl, hLink, hSteps₁⟩
  | ok _ =>
      rcases hBound rfl with ⟨b, hB, hBind⟩
      let s₁ := { s with command, bound := bound' }
      have hSet := hGoes₁.steps.frame ss os
      have hBackend : w₁.backend = w.backend :=
        (hSet.custody hKnown.sound).1
      refine (Session.start_works (s := s₁) .reader hLink hB
        (hKnown.steps hSet)).mono ?_
      rintro x s' w' (⟨o, rfl, -, rfl, hBegun, hBackend', hWorks⟩ |
        ⟨f, rfl, rfl, hSteps⟩)
      · refine .inl ⟨o, b, rfl, hBind, hBegun,
          hBackend'.trans hBackend, ?_⟩
        rw [Ledger.nextConnection, ← hSteps₁.connections_eq]
        exact hWorks
      · exact .inr ⟨f, rfl, hLink, hSteps₁.trans hSteps⟩

------------------------------------------------------------
-- Attempts with sessions of their own
------------------------------------------------------------

/-
  Once the main statement was sent, a failure that counts as
  one before the execution is an error of the driver, or came
  up as the output values were read back.
-/
def Explained
    (c : Command)
    (r : Repository)
    (w : World)
    (x : Except Failure β)
    (w' : World) : Prop :=
  ∀ f, x = .error f → f.isPreExecution = true →
    ∀ b, r.provider.bind c = .ok b →
      SentMain b (exchanges w.backend
        (w.ledger.nextConnection r) w'.log) →
      f.IsDriven r.name ∨ b.Misreads r.name f

/-
  What has to be known for it: nothing was opened, or what was
  sent explains the failure.
-/
def Tells
    (c : Command)
    (r : Repository)
    (w : World)
    (x : Except Failure β)
    (w' : World) : Prop :=
  ∀ f, x = .error f → f.isPreExecution = true →
    w'.connections = w.connections ∨
    ∃ b, r.provider.bind c = .ok b ∧
      b.Explains r.name
        (exchanges w.backend (w.ledger.nextConnection r) w'.log)
        f

/- The session that an attempt is made in. -/
def newSession
    (d : DataAccess)
    (r : Repository)
    (w : World) : Session :=
  ⟨w.sessions, r, d.defaultTimeout, none, none, .closed, false,
    false⟩

/- The world in which the session is there. -/
def afterNew (w : World) : World :=
  { w with sessions := w.sessions + 1 }

/- A session of its own is new, closed and known. -/
theorem sessionOn_ends
    (d : DataAccess)
    (r : Repository)
    (w : World)
    {ss : List Session}
    {os : List Operation}
    (hKnown : Known ⟨ss, os, w.ledger⟩) :
    Effect.Ends (d.sessionOn r) w fun s w' =>
      s = d.newSession r w ∧ w' = afterNew w ∧
        Known ⟨s :: ss, os, w'.ledger⟩ := by
  have hMade : Scene.Steps (fun _ => False) ⟨ss, os, w.ledger⟩
      ⟨d.newSession r w :: ss, os, (afterNew w).ledger⟩ :=
    .single (.made r d.defaultTimeout)
  exact ⟨rfl, rfl, hKnown.steps hMade⟩

/- A closed session is dropped without a trace. -/
theorem drop_tells
    {c : Command}
    {s s' : Session}
    {w w₁ : World}
    {x : Except Failure β}
    (hTells : TellsOn c s w x s' w₁) :
    Effect.Ends s'.drop w₁ fun _ w' =>
      Tells c s.repository w x w' := by
  cases hLink : s'.link with
  | closed =>
      have hStill : Effect.Ends s'.drop w₁ fun _ w' => w' = w₁ := by
        unfold Session.drop
        rw [hLink]
        rfl
      refine hStill.mono ?_
      rintro _ w' rfl f hFail hPre
      rcases hTells f hFail hPre with ⟨-, hSteps⟩ | hExplained
      · exact .inl hSteps.connections_eq
      · exact .inr hExplained
  | _ =>
      refine (Session.drop_steps (fun _ => False) s' w₁).mono ?_
      intro _ w' hDropped f hFail hPre
      rcases hTells f hFail hPre with ⟨hClosed, -⟩ |
        ⟨b, hBind, hExplains⟩
      · cases hLink.symm.trans hClosed
      · exact .inr ⟨b, hBind, hExplains.later
          (exchanges_grow hDropped.log_grows)⟩

/-
  A failure is explained by what was sent, which is nothing
  where no connection was opened.
-/
theorem explained_of_known
    {c : Command}
    {r : Repository}
    {w w' : World}
    {x : Except Failure β}
    {ss : List Session}
    {os : List Operation}
    (hKnown : Known ⟨ss, os, w'.ledger⟩)
    (hTells : Tells c r w x w') : Explained c r w x w' := by
  intro f hFail hPre b hBind hSent
  rcases hTells f hFail hPre with hSame |
    ⟨b', hBind', hExplains⟩
  · have hNone := hKnown.fresh.exchanges_next
      (c := w.ledger.nextConnection r) w.backend
      (Nat.le_of_eq hSame)
    rcases hSent with ⟨done, y, rest, hThere, -⟩
    have hEmpty : [] = done ++ y :: rest :=
      hNone.symm.trans hThere
    simp at hEmpty
  · cases hBind.symm.trans hBind'
    rcases hExplains with hDriven | hMisreads | hUnsent
    · exact .inl hDriven
    · exact .inr hMisreads
    · exact absurd hSent hUnsent.not_sentMain

variable {w : World} {ss : List Session} {os : List Operation}

/-
  The failure of an attempt on a member is explained by what
  was sent to it.
-/
theorem attemptOn_explained
    (d : DataAccess)
    (c : Command)
    {run : Session.Try α}
    (hRun : Runs run)
    (hAccounts : Accounts run)
    (r : Repository)
    (hKnown : Known ⟨ss, os, w.ledger⟩)
    (hBuiltIn : ∀ r, (w.backend r).IsBuiltIn r) :
    Effect.Ends (d.attemptOn c run r) w (Explained c r w) := by
  have hMakes := attemptOn_makes d c hRun r w 0 (Nat.zero_le _)
  have hTold : Effect.Ends (d.attemptOn c run r) w
      (Tells c r w) := by
    unfold attemptOn
    refine (sessionOn_ends d r w hKnown).bind ?_
    rintro s w₁ ⟨rfl, rfl, hThere⟩
    rw [Effect.ends_bind, Act.ends_run]
    refine (attempt_tells hAccounts rfl rfl hThere hBuiltIn).mono
      ?_
    intro x s' w₂ hTells
    exact drop_tells hTells
  refine (hMakes.and hTold).mono ?_
  rintro x w' ⟨hSteps, hTells⟩
  exact explained_of_known (hKnown.steps (hSteps.frame ss os))
    hTells

/- The same holds of an attempt whose result is a reader. -/
theorem attemptReaderOn_explained
    (d : DataAccess)
    (c : Command)
    (r : Repository)
    (hKnown : Known ⟨ss, os, w.ledger⟩)
    (hBuiltIn : ∀ r, (w.backend r).IsBuiltIn r) :
    Effect.Ends (d.attemptReaderOn c r) w
      (Explained c r w) := by
  have hMakes := attemptReaderOn_makes d c r w 0 (Nat.zero_le _)
  have hTold : Effect.Ends (d.attemptReaderOn c r) w
      (Tells c r w) := by
    unfold attemptReaderOn
    refine (sessionOn_ends d r w hKnown).bind ?_
    rintro s w₁ ⟨rfl, rfl, hThere⟩
    rw [Effect.ends_bind, Act.ends_run, Try.ends_run]
    refine (startReader_works c rfl hThere).mono ?_
    rintro x s₁ w₂ (⟨o, b, rfl, hBind, hBegun, hBackend, hWorks⟩ |
      ⟨f, rfl, hClosed, hSteps⟩)
    · simp only
      refine (openReader_blames s₁ w₂ o).bind ?_
      rintro ⟨y, s₂⟩ w₃ hBlames
      cases y with
      | ok reader => exact nofun
      | error f =>
          refine drop_tells (s := d.newSession r w) (w := afterNew w)
            ?_
          intro f' hFail hPre
          cases hFail
          refine .inr ⟨b, hBind, ?_⟩
          rw [← hBackend]
          exact hBlames.explains hBegun
            (hBackend ▸ hBuiltIn _) hWorks f rfl hPre
    · simp only
      refine drop_tells (s := d.newSession r w) (w := afterNew w) ?_
      exact fun _ _ _ => .inl ⟨hClosed, hSteps⟩
  refine (hMakes.and hTold).mono ?_
  rintro x w' ⟨hSteps, hTells⟩
  exact explained_of_known (hKnown.steps (hSteps.frame ss os))
    hTells

end DataAccess

end Failover
