import Failover.Proofs.Binding.Values
import Failover.Proofs.Health.Attempt
import Failover.Proofs.Operation.Settle
import Failover.Proofs.Outcome.Sources

/-
  What an attempt sends and what it gains.  The statements on
  its connection are the first ones of the command that the
  caller gave, and an attempt that succeeds has stored the
  output values that the engine reported at their end.

  Key definitions include:
    * `BoundCommand.statements`
    * `BoundCommand.Reports`
    * `Provider.SendsOnly`, `Provider.Reports`
    * `Command.IsRun`

  Main statements:
    * `BoundCommand.Ends.reports`
    * `BoundCommand.Awaits.statements`
    * `Entry.attempt_isRun`
-/

namespace Failover

open Scene (Known)

------------------------------------------------------------
-- Reports
------------------------------------------------------------

/- All that is to be sent, in order. -/
def BoundCommand.statements (b : BoundCommand) : List Statement :=
  b.setup ++ b.main :: b.outputs.statements

/-
  The output values in the first set, if there is one: what
  the parameters find in its first row, each in the column that
  it reads.
-/
def Outcome.rowOutputs
    (parameters : List String)
    (otherwise : OutputValues)
    (o : Outcome) : OutputValues :=
  match o.sets with
  | [] => otherwise
  | s :: _ => s.rows.head?.elim .empty fun row =>
      .ofEntries (ResultSet.readings s.columns parameters row)

/-
  The output values that the engine reported at the end of
  some exchanges: with the outcome of the main statement, in
  its first row, or in the row that was read back.
-/
inductive BoundCommand.Reports
    (b : BoundCommand) :
    List Exchange → OutputValues → Prop where
  | direct
      {xs : List Exchange}
      {o : Outcome}
      (hOutputs : b.outputs = .none) :
      Reports b (xs ++ [⟨b.main, some (.ok o)⟩]) o.outputs
  | mainRow
      {xs : List Exchange}
      {parameters : List String}
      {o : Outcome}
      (hOutputs : b.outputs = .mainRow parameters) :
      Reports b (xs ++ [⟨b.main, some (.ok o)⟩])
        (o.rowOutputs parameters o.outputs)
  | readback
      {xs : List Exchange}
      {s : Statement}
      {parameters : List String}
      {o read : Outcome}
      (hOutputs : b.outputs = .readback s parameters) :
      Reports b
        (xs ++ [⟨b.main, some (.ok o)⟩, ⟨s, some (.ok read)⟩])
        (read.rowOutputs parameters o.outputs)

namespace BoundCommand

variable {b : BoundCommand} {p : Progress} {o : Outcome}
variable {xs : List Exchange}

theorem takeMainRow_outputs
    {parameters : List String}
    {o o' : Outcome}
    (h : Progress.takeMainRow parameters o = .ok o') :
    o'.outputs = o.rowOutputs parameters o.outputs := by
  unfold Progress.takeMainRow at h
  unfold Outcome.rowOutputs
  cases hSets : o.sets with
  | nil =>
      rw [hSets] at h
      cases h
      rfl
  | cons s rest =>
      rw [hSets] at h
      simp only at h
      split at h
      · cases h
      · cases h
        exact s.outputs_eq parameters

theorem takeReadback_outputs
    (parameters : List String)
    (o read : Outcome) :
    (Progress.takeReadback parameters o read).outputs =
      read.rowOutputs parameters o.outputs := by
  unfold Progress.takeReadback Outcome.rowOutputs
  cases read.sets with
  | nil => rfl
  | cons s rest => exact s.outputs_eq parameters

/- The outcome of a command has the values that were reported. -/
theorem Ends.reports
    (h : b.Ends (.ok o) xs) : b.Reports xs o.outputs := by
  rcases h with ⟨p, reply, ⟨done, hStage, rfl⟩, hResult⟩
  cases hStage with
  | setup =>
      simp only [Progress.receive] at hResult
      split at hResult <;> cases hResult
  | main =>
      simp only [Progress.receive] at hResult
      split at hResult
      · cases hResult
      · simp only [Progress.afterMain] at hResult
        split at hResult
        · next hOutputs =>
          cases hResult
          exact .direct hOutputs
        · next hOutputs =>
          rw [takeMainRow_outputs (Progress.Next.result.inj hResult)]
          exact .mainRow hOutputs
        · cases hResult
  | readback hOutputs =>
      simp only [Progress.receive] at hResult
      split at hResult
      · cases hResult
      · next read hWhole =>
        cases hResult
        cases Progress.whole_ok hWhole
        rw [takeReadback_outputs, List.append_assoc]
        exact .readback hOutputs

/-
  What was sent so far is the first part of the statements of
  the command.
-/
theorem Awaits.statements
    {reply : Option Reply}
    (h : b.Awaits p reply xs) :
    xs.map (·.statement) <+: b.statements := by
  rcases h with ⟨done, hStage, rfl⟩
  unfold BoundCommand.statements
  rw [List.map_append]
  cases hStage with
  | setup hSetup =>
      rw [hSetup]
      simp [Progress.statement]
  | main hSetup =>
      rw [hSetup]
      simp [Progress.statement]
  | readback hOutputs hSetup =>
      rw [hSetup, hOutputs]
      simp [Progress.statement, OutputCapture.statements]

end BoundCommand

------------------------------------------------------------
-- The end of an operation
------------------------------------------------------------

namespace Session

variable (s : Session) (w : World)

/- A settled session keeps its command, and nothing is sent. -/
theorem settled_keeps
    {α : Type}
    (context : Operation.Context)
    (result : Except Failure α) :
    Try.Ends (settled context result) s w fun x s' w' =>
      x = result ∧ s'.command = s.command ∧
        SendsNothing w.log w'.log := by
  refine (settled_tells w context result).mono ?_
  rintro x s' w' ⟨rfl, rfl, -, hNothing⟩
  refine ⟨rfl, ?_, hNothing⟩
  unfold rested
  split
  · split <;> rfl
  · rfl

end Session

namespace Entry

variable {e : Entry} {s : Session} {w : World}

/- The values of an outcome are stored if there is a result. -/
theorem settleWhole_stores
    {α : Type}
    (context : Operation.Context)
    (s : Session)
    (w : World)
    (reply : Reply)
    (make : Outcome → Except Failure α) :
    Try.Ends (do
        let whole ← ExceptT.lift (Session.takeWhole reply)
        Session.settled context (whole.bind make)) s w
      fun x s' w' => SendsNothing w.log w'.log ∧
        ∀ a, x = .ok a → ∃ o, reply = .ok o ∧
          s'.command = s.command.map (·.storeOutputs o.outputs) := by
  rw [Try.ends_bind, Try.ends_lift]
  refine (Session.takeWhole_ends w s reply).mono ?_
  rintro whole s₁ w₁ ⟨rfl, rfl, hAfter⟩
  refine (Session.settled_keeps s₁ w₁ context _).mono ?_
  rintro x s' w' ⟨rfl, hSame, hNothing⟩
  refine ⟨hNothing, fun a hOk => ?_⟩
  cases hWhole : Progress.whole reply with
  | error f =>
      rw [hWhole] at hOk
      cases hOk
  | ok o =>
      rw [hWhole] at hAfter
      refine ⟨o, Progress.whole_ok hWhole, ?_⟩
      rw [hSame, hAfter]

theorem conclude_stores
    (e : Entry)
    (o : Operation)
    (s : Session)
    (w : World)
    (reply : Reply) :
    Try.Ends (e.conclude o reply) s w fun x s' w' =>
      SendsNothing w.log w'.log ∧
      ∀ a, x = .ok a → ∃ outcome, reply = .ok outcome ∧
        s'.command =
          s.command.map (·.storeOutputs outcome.outputs) := by
  cases e with
  | scalar t =>
      unfold conclude
      rw [Try.ends_bind, Try.ends_get]
      exact settleWhole_stores o.context s w reply _
  | nonQuery =>
      rw [conclude_nonQuery]
      exact settleWhole_stores o.context s w reply _
  | reader =>
      unfold conclude
      rw [Try.ends_bind]
      cases reply with
      | error f =>
          refine (Session.settled_keeps s w o.context
            (.error f : Except Failure Outcome)).mono ?_
          rintro x s' w' ⟨rfl, -, hNothing⟩
          refine ⟨hNothing, fun a hOk => ?_⟩
          cases hOk
      | ok outcome => exact ⟨.refl _, fun _ _ => ⟨outcome, rfl, rfl⟩⟩

end Entry

------------------------------------------------------------
-- Runs of a command
------------------------------------------------------------

/-
  Nothing is sent but the first statements of a command, as
  the provider binds it.
-/
def Provider.SendsOnly
    (p : Provider)
    (c : Command)
    (xs : List Exchange) : Prop :=
  xs = [] ∨ ∃ b, p.bind c = .ok b ∧
    xs.map (·.statement) <+: b.statements

/- The engine reported some output values for a command. -/
def Provider.Reports
    (p : Provider)
    (c : Command)
    (xs : List Exchange)
    (o : OutputValues) : Prop :=
  ∃ b, p.bind c = .ok b ∧ b.Reports xs o

/-
  A run of a command on a connection, with the command that is
  left if it has a result.
-/
structure Command.IsRun
    (c : Command)
    (p : Provider)
    (xs : List Exchange)
    (x : Except Failure (Option Command)) : Prop where
  sent : p.SendsOnly c xs
  stored : ∀ executed, x = .ok executed →
    ∃ o, p.Reports c xs o ∧ executed = some (c.storeOutputs o)

/- A run that fails before it opens a connection. -/
theorem Command.IsRun.unsent
    {c : Command}
    {p : Provider}
    {f : Failure}
    {r : Repository}
    {l l' : Ledger}
    {ss : List Session}
    {os : List Operation}
    (hKnown : Known ⟨ss, os, l⟩)
    (hSteps : l.Steps l') :
    c.IsRun p
      (exchanges l.backend (l.nextConnection r) l'.log)
      (.error f) := by
  have hAround : Scene.Steps (fun _ => False) ⟨ss, os, l⟩
      ⟨ss, os, l'⟩ := .around hSteps
  refine ⟨.inl ?_, nofun⟩
  refine (hKnown.steps hAround).fresh.exchanges_next _ ?_
  exact Nat.le_of_eq hSteps.connections_eq

namespace Entry

variable {s : Session} {w : World} {c : Command} {b : BoundCommand}
variable {ss : List Session} {os : List Operation}

/-
  The work of an operation and its end.  The statements are
  those that its task has sent, and its result is the task's.
-/
theorem finish_isRun
    {o : Operation}
    {k : Connection}
    (e : Entry)
    (hOwn : o.session = s.id)
    (hCommand : s.command = some c)
    (hBind : s.repository.provider.bind c = .ok b)
    (hKnown : Known ⟨ss, os, w.ledger⟩)
    (hWorks : w.ledger.Works o.task k b) :
    Try.Ends (do e.conclude o (← Session.finish o)) s w
      fun x s' w' => c.IsRun s.repository.provider
        (exchanges w.backend k w'.log)
        (x.map fun _ => s'.command) := by
  rw [Try.ends_bind]
  refine Act.Ends.mono ((Session.finish_ends s o w).and
    (Session.finish_tells w hOwn)) ?_
  intro x s₁ w₁ hFinished
  rcases hFinished with
    ⟨⟨f, -, hOther, -⟩ | ⟨reply, rfl, -, -, l, hSteps, hNothing,
      hGives⟩, state, -, -, -, hAfter, -⟩
  · exact absurd hOwn hOther
  have hAround : Scene.Steps (fun _ => False) ⟨ss, os, w.ledger⟩
      ⟨ss, os, l⟩ := .around hSteps
  have hBackend : l.backend = w.backend :=
    (hAround.custody hKnown.sound).1
  have hThere := hWorks.steps hKnown.sound hSteps
  have hSame : s₁.command = some c := by
    rw [hAfter, ← hCommand]
    cases state <;> rfl
  refine (e.conclude_stores o s₁ w₁ reply).mono ?_
  rintro x s' w' ⟨hConcluded, hStores⟩
  have hSent : exchanges w.backend k w'.log =
      exchanges l.backend k l.log := by
    rw [(hNothing.trans hConcluded).exchanges_eq, hBackend]
  rw [hSent]
  constructor
  · rcases hThere.sent with ⟨p, reply', hAwaits⟩
    exact .inr ⟨b, hBind, hAwaits.statements⟩
  · intro executed hOk
    cases x with
    | error f => cases hOk
    | ok a =>
        cases hOk
        rcases hStores a rfl with ⟨outcome, rfl, hCommand'⟩
        refine ⟨outcome.outputs, ⟨b, hBind, ?_⟩, ?_⟩
        · cases hGives with
          | finished hTask hState =>
              have hAt := (hThere.state _ hTask).2
              rw [hState] at hAt
              exact hAt.reports
        · rw [hCommand', hSame]
          rfl

/- A bound command is run on a closed session. -/
theorem run_isRun
    (e : Entry)
    (hLink : s.link = .closed)
    (hCommand : s.command = some c)
    (hBound : s.bound = some b)
    (hBind : s.repository.provider.bind c = .ok b)
    (hKnown : Known ⟨s :: ss, os, w.ledger⟩) :
    Try.Ends e.run s w fun x s' w' =>
      c.IsRun s.repository.provider
        (exchanges w.backend
          (w.ledger.nextConnection s.repository) w'.log)
        (x.map fun _ => s'.command) := by
  rw [run_eq, Try.ends_bind]
  refine (Session.start_works e.kind hLink hBound hKnown).mono ?_
  rintro x s₁ w₁ (⟨o, rfl, hOwn, rfl, hBegun, hBackend, hWorks⟩ |
    ⟨f, rfl, -, hSteps⟩)
  · rw [← hBackend]
    exact e.finish_isRun (s := { s with link := .busy }) hOwn
      hCommand hBind hBegun hWorks
  · exact .unsent hKnown hSteps

/-
  Setting a command on a session and running it sends just the
  statements of its bound form.
-/
theorem bindAndRun_isRun
    (e : Entry)
    (c : Command)
    (hUsable : s.disposed = false)
    (hLink : s.link = .closed)
    (hKnown : Known ⟨s :: ss, os, w.ledger⟩) :
    Try.Ends (do Session.setCommand c; e.run) s w fun x s' w' =>
      c.IsRun s.repository.provider
        (exchanges w.backend
          (w.ledger.nextConnection s.repository) w'.log)
        (x.map fun _ => s'.command) := by
  have hFree : s.link ≠ .busy := by
    rw [hLink]
    exact nofun
  rw [Try.ends_bind]
  refine Act.Ends.mono ((Session.setCommand_goes
    (fun _ => False) s w c).and
    (Session.setCommand_binds w c hUsable hFree)) ?_
  rintro x s₁ w₁ ⟨⟨hGoes, -, hSteps, hBound⟩, hBinds⟩
  cases hBinds with
  | failed f => exact .unsent hKnown hSteps
  | bound b =>
      rcases hBound rfl with ⟨b', hThis, hBind⟩
      cases hThis
      let s₁ : Session :=
        { s with command := some c, bound := some b }
      have hSet := hGoes.steps.frame ss os
      have hBackend : w₁.backend = w.backend :=
        (hSet.custody hKnown.sound).1
      have hNext : w₁.ledger.nextConnection s.repository =
          w.ledger.nextConnection s.repository := by
        rw [Ledger.nextConnection, Ledger.nextConnection,
          hSteps.connections_eq]
      rw [← hBackend, ← hNext]
      exact e.run_isRun (s := s₁) hLink rfl rfl hBind
        (hKnown.steps hSet)

theorem attempt_isRun
    (d : DataAccess)
    (c : Command)
    (e : Entry)
    (r : Repository)
    (hKnown : Known ⟨ss, os, w.ledger⟩) :
    Effect.Ends (e.attempt d c r) w fun x w' =>
      c.IsRun r.provider
        (exchanges w.backend (w.ledger.nextConnection r) w'.log)
        (x.map fun gain => (e.gained gain).2) := by
  rcases e.attempt_as_direct d c r w with
    ⟨x, w', hAttempt, hDirect⟩
  rw [hAttempt.ends_iff]
  have hRun : Effect.Ends (e.direct d c r) w fun y w' =>
      c.IsRun r.provider
        (exchanges w.backend (w.ledger.nextConnection r) w'.log)
        (y.map (·.2)) := by
    unfold direct
    refine (DataAccess.sessionOn_ends d r w hKnown).bind ?_
    rintro s w₁ ⟨rfl, rfl, hThere⟩
    rw [Effect.ends_bind, Act.ends_run, Try.ends_run]
    refine (e.bindAndRun_isRun c rfl rfl hThere).mono ?_
    intro y s' w' hRun
    cases y <;> exact hRun
  rw [hDirect.ends_iff] at hRun
  cases x <;> exact hRun

end Entry

end Failover
