import Failover.Proofs.Access.Attempt
import Failover.Proofs.Access.Recording
import Failover.Proofs.Health.Operation

/-
  A command that is run in a fresh session on a repository:
  which outcomes it records, and what its result is.  While
  nothing else goes on the result is foretold by the replies
  of one engine.

  Key definitions include:
    * `Entry.run`, `Entry.direct`
    * `Entry.records`
    * `Entry.Ran`
    * `Entry.foretold`

  Main statements:
    * `Entry.conclude_counts`
    * `Entry.run_ran`
    * `Entry.direct_counts`
-/

namespace Failover

open World (Change callsOf callsFor)

/- A reader whose operation is over when it is released. -/
structure Reader.Pends
    (name : String)
    (a : Reader) : Prop where
  repository : a.session.repository.name = name
  transaction : a.session.inTransaction = false
  link : a.session.link ≠ .busy
  openedHere : a.context.openedHere = true
  unreleased : a.released = false

theorem DataAccess.sessionOn_leads
    (d : DataAccess)
    (r : Repository)
    (w : World) :
    Effect.Leads (d.sessionOn r) w (d.newSession r w) (afterNew w) :=
  rfl

namespace Entry

------------------------------------------------------------
-- Commands on sessions
------------------------------------------------------------

def kind : Entry → Operation.Kind
  | .scalar _ => .scalar
  | .nonQuery => .nonQuery
  | .reader => .reader

/- The bound command of a session is run. -/
def run : (e : Entry) → Session.Try e.Output
  | .scalar t => Session.executeScalar t
  | .nonQuery => Session.executeNonQuery
  | .reader => do
      let o ← Session.start .reader
      let outcome ← Session.completeRows o
      return (← get).reader o.context outcome

/- The rows of a reply, or the end of the operation. -/
def rows
    (o : Operation)
    (reply : Reply) : Session.Try Outcome := do
  match reply with
  | .error f => Session.settled o.context (.error f)
  | .ok outcome =>
      Session.applyOutputs outcome.outputs
      return outcome

/- What is done when the work of the operation has ended. -/
def conclude
    (o : Operation) :
    (e : Entry) → Reply → Session.Try e.Output
  | .scalar t, reply => do
      let name := (← get).repository.name
      let whole ← ExceptT.lift (Session.takeWhole reply)
      Session.settled o.context
        (whole.bind (Session.scalarOf name t))
  | .nonQuery, reply => do
      let whole ← ExceptT.lift (Session.takeWhole reply)
      Session.settled o.context (whole.map (·.rowsAffected))
  | .reader, reply => do
      let outcome ← rows o reply
      return (← get).reader o.context outcome

/- A number of rows is made of an outcome that has no failure. -/
theorem conclude_nonQuery
    (o : Operation)
    (reply : Reply) :
    nonQuery.conclude o reply = (do
      let whole ← ExceptT.lift (Session.takeWhole reply)
      Session.settled o.context
        (whole.bind fun outcome => .ok outcome.rowsAffected)) := by
  have hMap (x : Reply) : x.map (·.rowsAffected) =
      x.bind fun outcome => .ok outcome.rowsAffected := by
    cases x <;> rfl
  unfold conclude
  simp only [hMap]

theorem run_eq
    (e : Entry) :
    e.run = (do
      let o ← Session.start e.kind
      let reply ← Session.finish o
      e.conclude o reply) := by
  cases e with
  | scalar t => rfl
  | nonQuery => rfl
  | reader =>
      have hRows (o : Operation) : Session.completeRows o =
          (do rows o (← Session.finish o)) := rfl
      simp only [run, conclude, kind, hRows, bind_assoc]

------------------------------------------------------------
-- What comes of replies
------------------------------------------------------------

/- What can be seen of a result: a value, or rows. -/
abbrev View : Entry → Type
  | .scalar t => t.Carrier
  | .nonQuery => UInt64
  | .reader => Cursor × UInt64

def view : (e : Entry) → e.Output → e.View
  | .scalar _, a => a
  | .nonQuery, a => a
  | .reader, a => (a.cursor, a.rowsAffected)

/- Rows are taken with a failure that comes after them. -/
def taken : Entry → Reply → Reply
  | .reader, reply => reply
  | _, reply => Progress.whole reply

/- What is made of an outcome that was taken. -/
def made
    (repository : String) :
    (e : Entry) → Outcome → Except Failure e.View
  | .scalar t, o => Session.scalarOf repository t o
  | .nonQuery, o => .ok o.rowsAffected
  | .reader, o => .ok (.ofSets o.sets, o.rowsAffected)

/- The result of a reply, and the command with its outputs. -/
def answer
    (repository : String)
    (c : Command)
    (e : Entry)
    (reply : Reply) : Except Failure (e.View × Option Command) :=
  (e.taken reply).bind fun o =>
    (e.made repository o).map
      (·, some (c.storeOutputs o.outputs))

theorem answer_stored
    {repository : String}
    {c : Command}
    {e : Entry}
    {reply : Reply}
    {y : e.View × Option Command}
    (hAnswer : e.answer repository c reply = .ok y) :
    ∃ o, y.2 = some (c.storeOutputs o) := by
  unfold answer at hAnswer
  cases hTaken : e.taken reply with
  | error f =>
      rw [hTaken] at hAnswer
      cases hAnswer
  | ok o =>
      rw [hTaken] at hAnswer
      change (e.made repository o).map _ = _ at hAnswer
      cases hMade : e.made repository o with
      | error f =>
          rw [hMade] at hAnswer
          cases hAnswer
      | ok a =>
          rw [hMade] at hAnswer
          cases hAnswer
          exact ⟨o.outputs, rfl⟩

/- A reader's operation is over only if it has failed. -/
def settles : Entry → Bool → Bool
  | .reader, ok => !ok
  | _, _ => true

/- The outcomes that a command's run on a repository records. -/
def records
    (e : Entry)
    (name : String)
    (ok : Bool) : List (String × Bool) :=
  if e.settles ok then [(name, ok)] else []

/- A result whose operation is over, or is over later. -/
def Holds (name : String) : (e : Entry) → e.Output → Prop
  | .reader, a => a.Pends name
  | _, _ => True

/- The session after a command was run on it. -/
structure Leaves
    (e : Entry)
    (name : String)
    (x : Except Failure e.Output)
    (s : Session) : Prop where
  transaction : s.inTransaction = false
  closed : e.settles x.isOk = true → s.link = .closed
  holds : ∀ a, x = .ok a → e.Holds name a

theorem conclude_counts
    {s : Session}
    {c : Command}
    {o : Operation}
    (e : Entry)
    (w : World)
    (reply : Reply)
    (hOpened : o.context.openedHere = true)
    (hTransaction : s.inTransaction = false)
    (hLink : s.link ≠ .busy)
    (hCommand : s.command = some c) :
    Try.Ends (e.conclude o reply) s w fun x s' w' =>
      x.map (fun a => (e.view a, s'.command)) =
        e.answer s.repository.name c reply ∧
      e.Leaves s.repository.name x s' ∧
      Change s.link.calls (e.records s.repository.name x.isOk)
        w w' := by
  cases e with
  | scalar t =>
      unfold conclude
      rw [Try.ends_bind, Try.ends_get]
      refine (Session.settleWhole_counts w reply _ hOpened hTransaction
        hLink hCommand).mono ?_
      intro x s' w' hSettled
      rcases hSettled with ⟨hAnswer, hRests, hClosed, hChange⟩
      exact ⟨hAnswer, ⟨hRests, fun _ => hClosed, fun _ _ => trivial⟩,
        hChange⟩
  | nonQuery =>
      rw [conclude_nonQuery]
      refine (Session.settleWhole_counts w reply _ hOpened hTransaction
        hLink hCommand).mono ?_
      intro x s' w' hSettled
      rcases hSettled with ⟨hAnswer, hRests, hClosed, hChange⟩
      exact ⟨hAnswer, ⟨hRests, fun _ => hClosed, fun _ _ => trivial⟩,
        hChange⟩
  | reader =>
      unfold conclude
      rw [Try.ends_bind]
      cases reply with
      | error f =>
          refine (Session.settled_counts w
            (.error f : Except Failure Outcome) hOpened
            hTransaction hLink).mono ?_
          intro x s' w' hSettled
          rcases hSettled with ⟨rfl, rfl, hChange⟩
          refine ⟨rfl, ⟨hTransaction, fun _ => rfl, ?_⟩, hChange⟩
          intro a hSame
          cases hSame
      | ok outcome =>
          rcases s with
            ⟨i, r, n, command, bound, link, mark, disposed⟩
          cases hCommand
          refine ⟨rfl, ⟨hTransaction, nofun, ?_⟩, .refl⟩
          intro a hSame
          cases hSame
          exact ⟨rfl, hTransaction, hLink, hOpened, rfl⟩

/-
  How the run of a command on a repository ends, from a world
  in which its result is foretold if nothing else goes on.
-/
structure Ran
    (e : Entry)
    (name : String)
    (c : Command)
    (w : World)
    (foretold : Except Failure (e.View × Option Command))
    (x : Except Failure e.Output)
    (s : Session)
    (w' : World) : Prop extends Leaves e name x s where
  change : Change (callsOf name) (e.records name x.isOk) w w'
  stored : ∀ a, x = .ok a →
    ∃ o, s.command = some (c.storeOutputs o)
  result : w.IsQuiet →
    x.map (fun a => (e.view a, s.command)) = foretold

section
variable {e : Entry} {name : String} {c : Command} {call : Call}
variable {w w₁ w' : World} {s : Session}
variable {foretold later : Except Failure (e.View × Option Command)}

/- A run that fails early leaves the session closed. -/
theorem Ran.failed
    {f : Failure}
    (hChange : Change (callsFor name call) [(name, false)] w w')
    (hTransaction : s.inTransaction = false)
    (hLink : s.link = .closed) :
    e.Ran name c w (.error f) (.error f) s w' where
  transaction := hTransaction
  closed := fun _ => hLink
  holds := nofun
  change := by
    have hFails : e.records name false = [(name, false)] := by
      cases e <;> rfl
    rw [show Except.isOk (.error f : Except Failure e.Output) =
      false from rfl, hFails]
    exact hChange.mono fun _ _ hCall => hCall.1
  stored := nofun
  result := fun _ => rfl

/- A run of a command is preceded by one call of the engine. -/
theorem Ran.after
    {x : Except Failure e.Output}
    (hRan : e.Ran name c w₁ later x s w')
    (hChange : Change (callsFor name call) [] w w₁)
    (hSame : w.IsQuiet → later = foretold) :
    e.Ran name c w foretold x s w' where
  toLeaves := hRan.toLeaves
  change :=
    (hChange.mono fun _ _ hCall => hCall.1).trans hRan.change
  stored := hRan.stored
  result := fun hQuiet =>
    (hRan.result (hChange.alone hQuiet).quiet).trans (hSame hQuiet)

end

------------------------------------------------------------
-- Commands in fresh sessions
------------------------------------------------------------

/-
  What the engine of a repository makes of a bound command on
  a connection of its own, from the calls made of it so far.
-/
def foretoldBound
    (repository : String)
    (limit : Nat)
    (c : Command)
    (b : BoundCommand)
    (e : Entry)
    (w : World) : Except Failure (e.View × Option Command) :=
  match (w.backend repository).refusal .opening
    (w.calls repository .opening) with
  | some f => .error f
  | none =>
      e.answer repository c ((w.backend repository).reply
        repository limit (w.calls repository .fetch) b)

/-
  What a command that is run in a fresh session of a
  repository comes to, told from the world before it.
-/
def foretold
    (r : Repository)
    (defaultTimeout : Nat)
    (c : Command)
    (e : Entry)
    (w : World) : Except Failure (e.View × Option Command) :=
  match r.bindAnswer (w.backend r.name) (w.calls r.name .bind) c with
  | .error f => .error f
  | .ok b =>
      e.foretoldBound r.name (c.timeout.getD defaultTimeout) c b w

/- Calls of other engines leave it as it is. -/
theorem foretold_later
    {asked : String → Call → Prop}
    {xs : List (String × Bool)}
    {r : Repository}
    {w w' : World}
    (defaultTimeout : Nat)
    (c : Command)
    (e : Entry)
    (h : Change asked xs w w')
    (hQuiet : w.IsQuiet)
    (hApart : ∀ call, ¬ asked r.name call) :
    e.foretold r defaultTimeout c w' =
      e.foretold r defaultTimeout c w := by
  have hStays := h.alone hQuiet
  have hCalls : w'.calls r.name = w.calls r.name :=
    funext fun call => hStays.calls _ call (hApart call)
  unfold foretold foretoldBound
  rw [hStays.backend, hCalls]

/-
  The work of an operation that has started, from its reply
  to its end or to the rows that are read.
-/
theorem finish_ran
    {s : Session}
    {c : Command}
    {b : BoundCommand}
    {o : Operation}
    {c' : Connection}
    {limit : Nat}
    {w w₁ : World}
    (e : Entry)
    (hOwn : o.session = s.id)
    (hOpened : o.context.openedHere = true)
    (hTransaction : s.inTransaction = false)
    (hCommand : s.command = some c)
    (hRepository : c'.repository = s.repository.name)
    (hBegun : Effect.Leads (World.spawn c' limit b) w o.task w₁) :
    Try.Ends (do e.conclude o (← Session.finish o)) s w₁
      (e.Ran s.repository.name c w
        (e.answer s.repository.name c
          ((w.backend s.repository.name).reply s.repository.name
            limit (w.calls s.repository.name .fetch) b))) := by
  rw [Try.ends_bind]
  refine (Session.finish_counts w hOwn hTransaction hRepository
    hBegun).mono ?_
  intro x s₁ w₂ hFinished
  rcases hFinished with
    ⟨reply, link, rfl, rfl, hLink, hWork, hReply⟩
  refine (e.conclude_counts (s := { s with link }) w₂ reply hOpened
    hTransaction hLink hCommand).mono ?_
  intro x s' w' hConcluded
  rcases hConcluded with ⟨hAnswer, hLeaves, hSettled⟩
  refine ⟨hLeaves, ?_, ?_, ?_⟩
  · refine (hWork.mono fun _ _ hCall => hCall.1).trans_of hSettled
      ?_
    intro hQuiet r call hCall
    cases link with
    | opened c₁ =>
        have hSame : c₁ = c' := (hReply hQuiet).2 c₁ rfl
        rw [← hRepository, ← hSame]
        exact hCall
    | _ => exact hCall.elim
  · intro a hOk
    rw [hOk] at hAnswer
    exact answer_stored hAnswer.symm
  · intro hQuiet
    rw [hAnswer, (hReply hQuiet).1]

/- A bound command is run on a closed session. -/
theorem bound_ran
    {s : Session}
    {c : Command}
    {b : BoundCommand}
    (e : Entry)
    (w : World)
    (hUsable : s.disposed = false)
    (hTransaction : s.inTransaction = false)
    (hLink : s.link = .closed)
    (hCommand : s.command = some c)
    (hBound : s.bound = some b) :
    Try.Ends e.run s w
      (e.Ran s.repository.name c w
        (e.foretoldBound s.repository.name
          (c.timeout.getD s.defaultTimeout) c b w)) := by
  rw [run_eq, Try.ends_bind]
  refine (Session.start_starts w e.kind hUsable hLink hCommand
    hBound).mono ?_
  intro x s₁ w₁ hStarts
  unfold foretoldBound
  cases hStarts with
  | failed f w' hRefusal hOpening =>
      rw [hRefusal]
      exact .failed hOpening hTransaction hLink
  | begun o c' w₂ w' hRefusal hRepository hOpening hOwn hOpened
      hBegun =>
      rw [hRefusal]
      refine (e.finish_ran (s := { s with link := .busy }) hOwn
        hOpened hTransaction hCommand hRepository hBegun).mono ?_
      intro x s' w' hRan
      refine hRan.after hOpening fun hQuiet => ?_
      have hFetch := hOpening.other hQuiet
        (show Call.fetch ≠ .opening from nofun)
      rw [hFetch.1, hFetch.2]

/-
  Binding, opening, and the work on the connection record a
  failure each, and nothing comes after a failure.
-/
theorem run_ran
    {s : Session}
    (e : Entry)
    (c : Command)
    (w : World)
    (hUsable : s.disposed = false)
    (hTransaction : s.inTransaction = false)
    (hLink : s.link = .closed) :
    Try.Ends (do Session.setCommand c; e.run) s w
      (e.Ran s.repository.name c w
        (e.foretold s.repository s.defaultTimeout c w)) := by
  have hFree : s.link ≠ .busy := by
    rw [hLink]
    exact nofun
  rw [Try.ends_bind]
  refine (Session.setCommand_binds w c hUsable hFree).mono ?_
  intro x s₁ w₁ hBinds
  unfold foretold
  cases hBinds with
  | failed f w' hAnswer hChange =>
      rw [hAnswer]
      exact .failed hChange hTransaction hLink
  | bound b w' hAnswer hChange =>
      let s₁ : Session :=
        { s with command := some c, bound := some b }
      rw [hAnswer]
      refine (e.bound_ran (s := s₁) w₁ hUsable hTransaction hLink
        rfl rfl).mono ?_
      intro x s' w' hRan
      refine hRan.after hChange fun hQuiet => ?_
      have hOpening := hChange.other hQuiet
        (show Call.opening ≠ .bind from nofun)
      have hFetch := hChange.other hQuiet
        (show Call.fetch ≠ .bind from nofun)
      unfold foretoldBound
      rw [hOpening.2, hFetch.1, hFetch.2]

/- A command that is run in a fresh session on a repository. -/
def direct
    (d : DataAccess)
    (c : Command)
    (e : Entry)
    (r : Repository) :
    Effect (Except Failure (e.Output × Option Command)) := do
  let s ← d.sessionOn r
  let bindAndRun : Session.Try e.Output := do
    Session.setCommand c
    e.run
  let (x, s) ← bindAndRun.run.run s
  return x.map fun a => (a, s.command)

/- What can be seen of a result, with its command. -/
def seen
    (e : Entry)
    (x : e.Output × Option Command) : e.View × Option Command :=
  (e.view x.1, x.2)

theorem direct_counts
    (d : DataAccess)
    (c : Command)
    (e : Entry)
    (r : Repository)
    (w : World) :
    Effect.Ends (e.direct d c r) w fun x w' =>
      Change (callsOf r.name) (e.records r.name x.isOk) w w' ∧
      (∀ y, x = .ok y → e.Holds r.name y.1 ∧
        ∃ o, y.2 = some (c.storeOutputs o)) ∧
      (w.IsQuiet → x.map e.seen =
        e.foretold r d.defaultTimeout c w) := by
  have hMade : Change (callsOf r.name) [] w
      (DataAccess.afterNew w) :=
    .aside rfl rfl rfl rfl rfl
  unfold direct
  rw [Effect.ends_bind, (d.sessionOn_leads r w).ends_iff,
    Effect.ends_bind, Act.ends_run, Try.ends_run]
  refine (e.run_ran c (DataAccess.afterNew w) rfl rfl rfl).mono ?_
  intro x s' w' hRan
  rw [Effect.ends_pure]
  refine ⟨?_, ?_, ?_⟩
  · have hSame : (x.map fun a => (a, s'.command)).isOk = x.isOk := by
      cases x <;> rfl
    rw [hSame]
    exact hMade.trans hRan.change
  · intro y hY
    cases x with
    | error f => cases hY
    | ok a =>
        cases hY
        exact ⟨hRan.holds a rfl, hRan.stored a rfl⟩
  · intro hQuiet
    refine .trans ?_ (hRan.result (hMade.alone hQuiet).quiet)
    cases x <;> rfl

end Entry

end Failover
