import Failover.Proofs.Health.Operation

/-
  What is told of outcomes while an operation of any session
  starts: nothing if it has a connection, and one failure if
  it cannot open one.

  Key definitions include:
    * `World.Tells`
    * `Session.Opening`
    * `Session.Begun`

  Main statements:
    * `Session.start_begun`
-/

namespace Failover

------------------------------------------------------------
-- Outcomes
------------------------------------------------------------

/-
  The outcomes that are recorded between two worlds, and what
  is told of outcomes meanwhile.
-/
structure World.Tells
    (w : World)
    (records : List (String × Bool))
    (told : List Event)
    (w' : World) : Prop where
  tallies : w'.tallies = records.foldl tallied w.tallies
  verdicts : ∃ es, w'.log = w.log ++ es ∧
    es.filter (·.isVerdict) = told

namespace World

variable {w w₁ w' : World}
variable {xs ys : List (String × Bool)} {es fs : List Event}

theorem Unrecorded.tells
    (h : w.Unrecorded w') : w.Tells [] [] w' :=
  ⟨tallies_congr h.health, h.untold⟩

namespace Tells

theorem trans
    (h : w.Tells xs es w₁)
    (hNext : w₁.Tells ys fs w') :
    w.Tells (xs ++ ys) (es ++ fs) w' := by
  constructor
  · rw [hNext.tallies, h.tallies, List.foldl_append]
  · rcases h.verdicts with ⟨as, hFirst, hTold⟩
    rcases hNext.verdicts with ⟨bs, hLast, hToldNext⟩
    refine ⟨as ++ bs, ?_, ?_⟩
    · rw [hLast, hFirst, List.append_assoc]
    · rw [List.filter_append, hTold, hToldNext]

/-
  What comes before without an outcome leaves what is told
  afterwards as it is.
-/
theorem after
    (h : w.Unrecorded w₁)
    (hNext : w₁.Tells xs es w') : w.Tells xs es w' :=
  h.tells.trans hNext

/-
  What follows without an outcome leaves what was told as it
  is.
-/
theorem before
    (h : w.Tells xs es w₁)
    (hNext : w₁.Unrecorded w') : w.Tells xs es w' := by
  have hBoth := h.trans hNext.tells
  rwa [List.append_nil, List.append_nil] at hBoth

/- An event that is an outcome tells this outcome. -/
theorem noted
    {e : Event}
    (hVerdict : e.isVerdict = true)
    (hHealth : w'.health = w.health)
    (hLog : w'.log = w.log ++ [e]) : w.Tells [] [e] w' :=
  ⟨tallies_congr hHealth, [e], hLog, by simp [hVerdict]⟩

end Tells

theorem recordSuccess_tells
    (repository : String)
    (started : Nat)
    (w : World) :
    Effect.Ends (recordSuccess repository started) w fun _ w' =>
      w.Tells [(repository, true)] [] w' :=
  ⟨tallies_update rfl (Tally.of_success ..),
    [.recorded repository none], rfl, rfl⟩

theorem recordFailure_tells
    (repository : String)
    (cause : Failure)
    (w : World) :
    Effect.Ends (recordFailure repository cause) w fun _ w' =>
      w.Tells [(repository, false)] [] w' :=
  ⟨tallies_update rfl (Tally.of_failure ..),
    [.recorded repository (some cause)], rfl, rfl⟩

/- Nothing but numbers of calls and what happens is another. -/
structure Apart (w w' : World) : Prop where
  unrecorded : w.Unrecorded w'
  tasks : w'.tasks = w.tasks
  started : w'.started = w.started

/- A connection is opened, or the engine refuses. -/
theorem openConnection_apart
    (repository : String)
    (w : World) :
    Effect.Ends (openConnection repository) w fun _ w' =>
      w.Apart w' := by
  unfold openConnection
  refine Effect.Ends.bind (P := fun _ w₁ => w.Apart w₁)
    ⟨.same rfl rfl, rfl, rfl⟩ ?_
  intro refusal w₁ hAsked
  cases refusal with
  | some f =>
      exact ⟨hAsked.unrecorded.trans (.noted rfl rfl rfl),
        hAsked.tasks, hAsked.started⟩
  | none =>
      exact ⟨hAsked.unrecorded.trans (.noted rfl rfl rfl),
        hAsked.tasks, hAsked.started⟩

end World

namespace Session

variable {s : Session} {c : Command} {b : BoundCommand}
variable (w : World)

------------------------------------------------------------
-- Connections
------------------------------------------------------------

/- What comes of opening a connection for a closed session. -/
inductive Opening
    (s : Session)
    (w : World) :
    Except Failure Unit → Session → World → Prop where
  | opened (k : Connection) (w' : World)
      (hApart : w.Apart w') :
      Opening s w (.ok ()) { s with link := .opened k } w'
  | unavailable (f : Failure) (info : ConnectionInfo) (w' : World)
      (hTells : w.Tells [(s.repository.name, false)]
        [.connectionFailed info] w') :
      Opening s w (.error f) s w'

/-
  Opening the connection of a session records and tells a
  failure if there is one.
-/
theorem openLink_opening :
    Try.Ends openLink s w (Opening s w) := by
  unfold openLink
  simp only [Try.ends_bind, Try.ends_get, Try.ends_liftEffect]
  refine (World.openConnection_apart s.repository.name w).mono ?_
  intro x w₁ hApart
  cases x with
  | ok k =>
      refine .opened k _ ⟨?_, hApart.tasks, hApart.started⟩
      exact hApart.unrecorded.trans (.noted rfl rfl rfl)
  | error f =>
      let info := World.connectionInfo s.repository w₁.active
      let es : List Event :=
        [.recorded s.repository.name (some f), .connectionFailed info,
          .reported s.repository.name "Failed to open connection" f]
      refine .unavailable f info _ (.after hApart.unrecorded ?_)
      refine ⟨World.tallies_update rfl (Tally.of_failure ..), es,
        ?_, rfl⟩
      exact List.append_assoc (w₁.log ++ [_]) [_] [_] |>.trans
        (List.append_assoc w₁.log [_] [_, _])

------------------------------------------------------------
-- Operations
------------------------------------------------------------

/-
  What comes of starting the bound command of a session that
  is free.  Its work begins on the session's connection, or on
  one that is opened for it.
-/
inductive Begun
    (s : Session)
    (w : World)
    (c : Command)
    (b : BoundCommand) :
    Except Failure Operation → Session → World → Prop where
  | started (o : Operation) (k : Connection) (w₁ w' : World)
      (hOwn : o.session = s.id)
      (hText : o.context.text = c.text)
      (hLink : s.link =
        if o.context.openedHere then .closed else .opened k)
      (hApart : w.Apart w₁)
      (hBegun : Effect.Leads
        (World.spawn k (c.timeout.getD s.defaultTimeout) b) w₁
        o.task w') :
      Begun s w c b (.ok o) { s with link := .busy } w'
  | unavailable (f : Failure) (info : ConnectionInfo) (w' : World)
      (hLink : s.link = .closed)
      (hTells : w.Tells [(s.repository.name, false)]
        [.connectionFailed info] w') :
      Begun s w c b (.error f) s w'

/- The start of the work itself, on a connection. -/
theorem begun_on
    {k : Connection}
    {openedHere : Bool}
    {w₁ : World}
    (kind : Operation.Kind)
    (hLink : s.link = if openedHere then .closed else .opened k)
    (hApart : w.Apart w₁) :
    Effect.Ends
      (World.spawn k (c.timeout.getD s.defaultTimeout) b) w₁
      fun task w' =>
        Begun s w c b
          (.ok ⟨s.id, kind, task,
            ⟨openedHere, s.inTransaction, w₁.now, c.text⟩⟩)
          { s with link := .busy } w' := by
  rcases Effect.exists_leads
    (World.spawn k (c.timeout.getD s.defaultTimeout) b) w₁ with
    ⟨task, w₂, hBegun⟩
  rw [hBegun.ends_iff]
  exact .started _ k w₁ w₂ rfl rfl hLink hApart hBegun

theorem start_begun
    (kind : Operation.Kind)
    (hUsable : s.disposed = false)
    (hFree : s.link ≠ .busy)
    (hCommand : s.command = some c)
    (hBound : s.bound = some b) :
    Try.Ends (start kind) s w (Begun s w c b) := by
  unfold start boundCommand ensureOpen
  simp only [Try.ends_bind, ends_ensureUsable, hUsable,
    Bool.false_eq_true, if_false, Try.ends_get, hFree, hCommand,
    hBound, Try.ends_pure, Try.ends_liftEffect]
  rw [World.note, Effect.ends_modify]
  have hTraced (line : String) :
      w.Apart { w with log := w.log ++ [.traced line] } :=
    ⟨.noted rfl rfl rfl, rfl, rfl⟩
  cases hLink : s.link with
  | busy => exact absurd hLink hFree
  | opened k =>
      simp only [Try.ends_pure, hLink]
      exact begun_on w kind hLink (hTraced _)
  | closed =>
      simp only
      rw [Try.ends_bind]
      refine (openLink_opening _).mono ?_
      intro x s₁ w₁ hOpening
      cases hOpening with
      | unavailable f info w' hTells =>
          exact .unavailable f info _ hLink
            (.after (hTraced _).unrecorded hTells)
      | opened k w' hApart =>
          simp only [Try.ends_pure, Try.ends_bind,
            Try.ends_getWorld, Try.ends_set, Try.ends_liftEffect]
          refine begun_on w kind hLink ⟨?_, hApart.tasks,
            hApart.started⟩
          exact (hTraced _).unrecorded.trans hApart.unrecorded

end Session

end Failover
