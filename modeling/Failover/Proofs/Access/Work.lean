import Failover.Proofs.Access.Stage
import Failover.Proofs.Scene.Known

/-
  The task of a bound command on a connection of its own: what
  was sent on the connection tells where the command is.

  Key definitions include:
    * `Task.State.IsAt`
    * `Ledger.Works`

  Main statements:
    * `Ledger.Works.step`, `Ledger.Works.steps`
-/

namespace Failover

open Progress (failures)
open Scene (Sound)

------------------------------------------------------------
-- States
------------------------------------------------------------

/- Whom a failure of a command's result is to be put down to. -/
def BoundCommand.Explains
    (b : BoundCommand)
    (repository : String)
    (xs : List Exchange)
    (f : Failure) : Prop :=
  f.IsDriven repository ∨ b.Misreads repository f ∨ Unsent b xs

/-
  A failure that is explained by what was sent is explained by
  more.
-/
theorem BoundCommand.Explains.later
    {b : BoundCommand}
    {repository : String}
    {xs ys : List Exchange}
    {f : Failure}
    (h : b.Explains repository xs f)
    (hPrefix : xs <+: ys) : b.Explains repository ys f := by
  rcases h with hDriven | hMisreads | hUnsent
  · exact .inl hDriven
  · exact .inr (.inl hMisreads)
  · exact .inr (.inr (hUnsent.later hPrefix))

/-
  The state of a task by what was sent on its connection.  A
  task that is stopped fails in the middle of its work.
-/
def Task.State.IsAt
    (b : BoundCommand)
    (xs : List Exchange) : Task.State → Prop
  | .waiting _ p reply => b.Awaits p reply xs
  | .finished _ result => b.Ends result xs
  | .stopped f => f.isPreExecution = false
  | .died => True

namespace Ledger

/-
  The task of a number works for a command on a connection
  that is no other task's.  Nothing but the command's
  statements was sent on it, even if the task is forgotten.
-/
structure Works
    (i : Nat)
    (c : Connection)
    (b : BoundCommand)
    (l : Ledger) : Prop where
  sole : ∀ id, l.own? id = some c → id = i
  sent : ∃ p reply, b.Awaits p reply (exchanges l.backend c l.log)
  state : ∀ t, l.task? i = some t → t.connection = c ∧
    t.state.IsAt b (exchanges l.backend c l.log)

variable {i : Nat} {c : Connection} {b : BoundCommand}
variable {ss : List Session} {os : List Operation} {l l' : Ledger}

/-
  A command is at work still when nothing is sent and tasks
  are forgotten.
-/
theorem Works.less
    (h : l.Works i c b)
    (es : List Event)
    (hBackend : l'.backend = l.backend)
    (hLog : l'.log = l.log ++ es)
    (hAsks : Unasked es)
    (hTasks : ∀ id t, l'.task? id = some t → l.task? id = some t) :
    l'.Works i c b := by
  have hSame : exchanges l'.backend c l'.log =
      exchanges l.backend c l.log := by
    rw [hBackend, hLog, exchanges_unasked hAsks]
  constructor
  · exact fun id hOwn => h.sole id (own?_of_task? (hTasks id) hOwn)
  · exact hSame ▸ h.sent
  · intro t hTask
    rw [hSame]
    exact h.state t (hTasks i t hTask)

/-
  A command is at work still when nothing is sent and a task
  comes to another state.
-/
theorem Works.inState
    {x y : List Task}
    {t : Task}
    {state : Task.State}
    (hSound : Sound ⟨ss, os, l⟩)
    (h : l.Works i c b)
    (es : List Event)
    (hBackend : l'.backend = l.backend)
    (hLog : l'.log = l.log ++ es)
    (hAsks : Unasked es)
    (hTasks : l.tasks = x ++ t :: y)
    (hOther : l'.tasks = x ++ t.inState state :: y)
    (hOwn : (t.inState state).own? = some c → t.own? = some c)
    (hNext : ∀ xs, t.state.IsAt b xs → state.IsAt b xs) :
    l'.Works i c b := by
  have hSame : exchanges l'.backend c l'.log =
      exchanges l.backend c l.log := by
    rw [hBackend, hLog, exchanges_unasked hAsks]
  have hNodup : l.taskIds.Nodup := hSound.numbered.tasks
  constructor
  · exact fun id hThere =>
      h.sole id (own?_of_inState hNodup hTasks hOther hOwn hThere)
  · exact hSame ▸ h.sent
  intro u hTask
  rw [hSame]
  by_cases hThis : i = t.id
  · subst hThis
    have hNodup' : l'.taskIds.Nodup := by
      simpa [taskIds, hTasks, hOther, Task.inState] using hNodup
    have hNew : l'.task? t.id = some (t.inState state) :=
      task?_this hNodup' hOther
    cases hNew.symm.trans hTask
    rcases h.state t (task?_of_split hSound hTasks) with
      ⟨hConnection, hAt⟩
    exact ⟨hConnection, hNext _ hAt⟩
  · rw [task?_other hTasks hOther hThis] at hTask
    exact h.state u hTask

------------------------------------------------------------
-- Statements
------------------------------------------------------------

/- A statement on a connection is the last of its exchanges. -/
theorem exchanges_ask
    (s : Statement)
    (hCounted : l.asked c.repository =
      l.log.countP (·.asks c.repository)) :
    exchanges l.backend c (l.ask c s).log =
      exchanges l.backend c l.log ++ [⟨s, l.reply? c s⟩] := by
  rw [ask, exchanges_concat, ← hCounted]
  simp [Event.exchange?, reply?]

/-
  A statement on another connection is not among those of a
  connection.
-/
theorem exchanges_ask_other
    {k : Connection}
    (s : Statement)
    (hNe : k ≠ c) :
    exchanges l.backend c (l.ask k s).log =
      exchanges l.backend c l.log := by
  refine exchanges_still fun e hE s' hEq => ?_
  rw [List.mem_singleton.mp hE] at hEq
  cases hEq
  exact hNe rfl

/-
  A task sends its next statement.  If it does so on the
  connection, it is the one that works there.
-/
theorem Works.ask
    {x y : List Task}
    {t : Task}
    {time : Nat}
    {p q : Progress}
    {reply : Reply}
    (later : Nat)
    (hSound : Sound ⟨ss, os, l⟩)
    (h : l.Works i c b)
    (hTasks : l.tasks = x ++ t :: y)
    (hState : t.state = .waiting time p (some reply))
    (hMore : p.receive reply = .more q) :
    ((l.ask t.connection q.statement).withTasks
      (x ++ t.inState (.waiting later q
        (l.reply? t.connection q.statement)) :: y)).Works i c b := by
  let t' := t.inState (.waiting later q
    (l.reply? t.connection q.statement))
  let l' := (l.ask t.connection q.statement).withTasks
    (x ++ t' :: y)
  have hNodup : l.taskIds.Nodup := hSound.numbered.tasks
  have hOld := task?_of_split hSound hTasks
  have hOwn : l'.own? = l.own? :=
    own?_inState hNodup hTasks rfl
      (by simp [Task.own?, Task.inState, hState])
  have hNew : l'.task? t.id = some t' := by
    refine task?_this (t := t') ?_ rfl
    simpa [l', taskIds, hTasks, t', Task.inState, withTasks]
      using hNodup
  by_cases hHere : t.connection = c
  · have hThis : t.id = i := by
      refine h.sole t.id ?_
      simp [own?, hOld, Task.own?, hState, hHere]
    subst hThis
    have hSent : exchanges l'.backend c l'.log =
        exchanges l.backend c l.log ++
          [⟨q.statement, l.reply? t.connection q.statement⟩] := by
      subst hHere
      exact exchanges_ask _ (hSound.answered.counted _)
    have hAwaits : b.Awaits q (l.reply? t.connection q.statement)
        (exchanges l'.backend c l'.log) := by
      have hAt := (h.state t hOld).2
      rw [hState] at hAt
      rcases hAt with ⟨done, hStage, hDone⟩
      rw [hSent, hDone]
      exact ⟨_, hStage.more hMore, rfl⟩
    refine ⟨fun id hHas => h.sole id (hOwn ▸ hHas),
      ⟨q, _, hAwaits⟩, fun u hTask => ?_⟩
    cases hNew.symm.trans hTask
    exact ⟨hHere, hAwaits⟩
  · have hSame : exchanges l'.backend c l'.log =
        exchanges l.backend c l.log :=
      exchanges_ask_other (l := l) q.statement hHere
    refine ⟨fun id hHas => h.sole id (hOwn ▸ hHas),
      hSame ▸ h.sent, fun u hTask => ?_⟩
    have hOther : i ≠ t.id := by
      rintro rfl
      exact hHere (h.state t hOld).1
    have hBefore : l.task? i = some u :=
      (task?_other hTasks rfl hOther).symm.trans hTask
    change u.connection = c ∧
      u.state.IsAt b (exchanges l'.backend c l'.log)
    rw [hSame]
    exact h.state u hBefore

------------------------------------------------------------
-- Steps
------------------------------------------------------------

theorem Works.step
    (hSound : Sound ⟨ss, os, l⟩)
    (hWorks : l.Works i c b)
    (h : l.Step l') : l'.Works i c b := by
  cases h with
  | noted e hAside =>
      refine hWorks.less [e] rfl rfl ?_ fun _ _ hTask => hTask
      intro x hX
      rw [List.mem_singleton.mp hX]
      exact Event.asks_aside hAside
  | continued later hTasks hState hMore =>
      exact hWorks.ask later hSound hTasks hState hMore
  | @concluded x y t time p reply result hTasks hState hResult =>
      refine hWorks.inState hSound [] rfl (List.append_nil _).symm
        .nil hTasks rfl ?_ fun xs hAt => ?_
      · simp [Task.own?, Task.inState, hState]
      · rw [hState] at hAt
        exact ⟨p, reply, hAt, hResult⟩
  | died hTasks =>
      refine hWorks.inState hSound [] rfl (List.append_nil _).symm
        .nil hTasks rfl ?_ fun _ _ => trivial
      simp [Task.own?, Task.inState]
  | timedOut hTasks =>
      refine hWorks.inState hSound [_] rfl rfl
        (by simp [Unasked, Event.asks]) hTasks rfl ?_ fun _ _ => rfl
      simp [Task.own?, Task.inState]
  | committed hJobs hEvents =>
      exact hWorks.less _ rfl rfl hEvents.asks
        fun _ _ hTask => hTask
  | released hJobs hTask hState hEvents =>
      exact hWorks.less _ rfl rfl hEvents.asks
        fun _ _ hTask => task?_of_forget hTask
  | forgotten =>
      exact hWorks.less [] rfl (List.append_nil _).symm .nil
        fun _ _ hTask => task?_of_forget hTask
  | void =>
      exact hWorks.less [] rfl (List.append_nil _).symm .nil
        fun _ _ hTask => hTask

/- The world goes on around sessions and operations. -/
theorem Works.steps
    (hSound : Sound ⟨ss, os, l⟩)
    (hWorks : l.Works i c b)
    (h : l.Steps l') : l'.Works i c b := by
  induction h with
  | refl => exact hWorks
  | tail hSteps hStep ih =>
      have hAround : Scene.Steps (fun _ => False)
          ⟨ss, os, l⟩ ⟨ss, os, _⟩ :=
        .around hSteps
      exact ih.step (hSound.steps hAround) hStep

end Ledger

end Failover
