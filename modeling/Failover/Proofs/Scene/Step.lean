import Failover.Reader.Basic
import Mathlib.Data.List.Perm.Basic
import Mathlib.Logic.Relation

/-
  What can happen to sessions and operations, one thing at a
  time.  A scene has the sessions and operations that are in
  someone's hands, and a ledger of the world around them.

  Key definitions include:
    * `Ledger`, `World.ledger`
    * `Ledger.Step`
    * `Session.Rebinds`
    * `Scene`
    * `Scene.Step`, `Scene.Steps`

  Main statements:
    * `Scene.Steps.frame`
    * `Scene.Steps.mono`
-/

namespace Failover

------------------------------------------------------------
-- Ledgers
------------------------------------------------------------

/-
  The world without its health, its clock, and the turns of
  its clusters.  Of the calls only the statements are counted,
  as the replies to them depend on their numbers.
-/
structure Ledger where
  backend : String → Backend
  asked : String → Nat
  sessions : Nat
  connections : Nat
  active : Nat
  started : Nat
  tasks : List Task
  jobs : List Job
  log : List Event

def World.ledger (w : World) : Ledger where
  backend := w.backend
  asked := fun r => w.calls r .fetch
  sessions := w.sessions
  connections := w.connections
  active := w.active
  started := w.started
  tasks := w.tasks
  jobs := w.jobs
  log := w.log

namespace Ledger

/- Some events happen. -/
def add
    (l : Ledger)
    (es : List Event) : Ledger :=
  { l with log := l.log ++ es }

/- The connection that is opened next. -/
def nextConnection
    (l : Ledger)
    (r : Repository) : Connection :=
  ⟨l.connections, r.name⟩

/- A repository's engine opens a connection. -/
def opening
    (l : Ledger)
    (r : Repository) : Ledger :=
  { l with
    connections := l.connections + 1
    log := l.log ++
      [.opened r.name (some (l.nextConnection r))] }

/- A session has its connection, as is told. -/
def link
    (l : Ledger)
    (r : Repository) : Ledger :=
  { l with
    active := l.active + 1
    log := l.log ++
      [.connectionOpened
        (World.connectionInfo r (l.active + 1))] }

/- A session has no connection any more, as is told. -/
def unlink
    (l : Ledger)
    (r : Repository) : Ledger :=
  { l with
    active := l.active - 1
    log := l.log ++
      [.connectionClosed
        (World.connectionInfo r (l.active - 1))] }

/- A task begins. -/
def start
    (l : Ledger)
    (t : Task) : Ledger :=
  { l with
    started := l.started + 1
    tasks := l.tasks ++ [t] }

/- A connection was active that no session had. -/
def close (l : Ledger) : Ledger :=
  { l with active := l.active - 1 }

/- The reply that the next statement on a connection has. -/
def reply?
    (l : Ledger)
    (c : Connection)
    (s : Statement) : Option Reply :=
  ((l.backend c.repository).fetch
    (l.asked c.repository) s).reply

/- A statement is sent. -/
def ask
    (l : Ledger)
    (c : Connection)
    (s : Statement) : Ledger :=
  { l with
    asked := World.update l.asked c.repository
      (l.asked c.repository + 1)
    log := l.log ++ [.fetched c s] }

/- Other tasks in place of those that there are. -/
def withTasks
    (l : Ledger)
    (tasks : List Task) : Ledger :=
  { l with tasks }

def withJobs
    (l : Ledger)
    (jobs : List Job) : Ledger :=
  { l with jobs }

/- The task of a number. -/
def task?
    (l : Ledger)
    (id : Nat) : Option Task :=
  l.tasks.find? (·.id == id)

/- The task of a number is forgotten. -/
def forget
    (l : Ledger)
    (id : Nat) : Ledger :=
  { l with tasks := l.tasks.filter (·.id != id) }

end Ledger

------------------------------------------------------------
-- The background
------------------------------------------------------------

/- Events that concern no connection. -/
def Event.isAside : Event → Bool
  | .opened _ c => c.isNone
  | .called _ _ _ => false
  | .fetched _ _ => false
  | .discarded _ => false
  | .connectionOpened _ => false
  | .connectionClosed _ => false
  | _ => true

/-
  What happens when a connection that no session holds is
  released: it is closed, after a commit if it is inside a
  transaction, or discarded if that fails.
-/
inductive Released
    (c : Connection) : Bool → List Event → Prop where
  | plain (ok : Bool) : Released c false [.called .close c ok]
  | committed (ok : Bool) :
      Released c true
        [.called .commit c true, .called .close c ok]
  | failed :
      Released c true
        [.called .commit c false, .discarded c]

/- A task whose work has come to another state. -/
def Task.inState
    (t : Task)
    (state : Task.State) : Task :=
  { t with state }

/- A task that ended without its connection. -/
def Task.IsLost (t : Task) : Prop :=
  (∃ f, t.state = .stopped f) ∨ t.state = .died

namespace Ledger

/-
  Something is noted, a task goes on with the reply that it
  waits for or until its time is over, or a job is done.
-/
inductive Step : Ledger → Ledger → Prop where
  | noted
      {l : Ledger}
      (e : Event)
      (hAside : e.isAside = true) : Step l (l.add [e])
  | continued
      {l : Ledger}
      {a b : List Task}
      {t : Task}
      {time : Nat}
      {p q : Progress}
      {reply : Reply}
      (later : Nat)
      (hTasks : l.tasks = a ++ t :: b)
      (hState : t.state = .waiting time p (some reply))
      (hMore : p.receive reply = .more q) :
      Step l ((l.ask t.connection q.statement).withTasks
        (a ++
          t.inState (.waiting later q
            (l.reply? t.connection q.statement)) :: b))
  | concluded
      {l : Ledger}
      {a b : List Task}
      {t : Task}
      {time : Nat}
      {p : Progress}
      {reply result : Reply}
      (hTasks : l.tasks = a ++ t :: b)
      (hState : t.state = .waiting time p (some reply))
      (hResult : p.receive reply = .result result) :
      Step l (l.withTasks
        (a ++
          t.inState (.finished t.connection result) :: b))
  | died
      {l : Ledger}
      {a b : List Task}
      {t : Task}
      {time : Nat}
      {p : Progress}
      (hTasks : l.tasks = a ++ t :: b)
      (hState : t.state = .waiting time p none) :
      Step l (l.withTasks (a ++ t.inState .died :: b))
  | timedOut
      {l : Ledger}
      {a b : List Task}
      {t : Task}
      {time : Nat}
      {p : Progress}
      {reply : Option Reply}
      (hTasks : l.tasks = a ++ t :: b)
      (hState : t.state = .waiting time p reply) :
      Step l ((l.add [.discarded t.connection]).withTasks
        (a ++
          t.inState (.stopped (.timeout
            t.connection.repository "Command" t.limit)) :: b))
  | committed
      {l : Ledger}
      {a b : List Job}
      {c : Connection}
      {es : List Event}
      (hJobs : l.jobs = a ++ .commit c :: b)
      (hEvents : Released c true es) :
      Step l ((l.add es).close.withJobs (a ++ b))
  | released
      {l : Ledger}
      {a b : List Job}
      {id : Nat}
      {inTransaction : Bool}
      {t : Task}
      {c : Connection}
      {result : Reply}
      {es : List Event}
      (hJobs : l.jobs = a ++ .afterTask id inTransaction :: b)
      (hTask : l.task? id = some t)
      (hState : t.state = .finished c result)
      (hEvents : Released c inTransaction es) :
      Step l (((l.forget id).add es).close.withJobs (a ++ b))
  | forgotten
      {l : Ledger}
      {a b : List Job}
      {id : Nat}
      {inTransaction : Bool}
      {t : Task}
      (hJobs : l.jobs = a ++ .afterTask id inTransaction :: b)
      (hTask : l.task? id = some t)
      (hLost : t.IsLost) :
      Step l ((l.forget id).close.withJobs (a ++ b))
  | void
      {l : Ledger}
      {a b : List Job}
      {id : Nat}
      {inTransaction : Bool}
      (hJobs : l.jobs = a ++ .afterTask id inTransaction :: b)
      (hTask : l.task? id = none) :
      Step l (l.withJobs (a ++ b))

abbrev Steps := Relation.ReflTransGen Step

/- The background makes no sessions. -/
theorem Step.sessions_eq
    {l l' : Ledger}
    (h : l.Step l') : l'.sessions = l.sessions := by
  cases h <;> rfl

/- Steps in the background open no connections. -/
theorem Steps.connections_eq
    {l l' : Ledger}
    (h : l.Steps l') : l'.connections = l.connections := by
  induction h with
  | refl => rfl
  | tail _ hStep ih =>
      refine Eq.trans ?_ ih
      cases hStep <;> rfl

/- A step in the background adds to the log at its end only. -/
theorem Step.log_grows
    {l l' : Ledger}
    (h : l.Step l') : l.log <+: l'.log := by
  cases h with
  | concluded => exact List.prefix_rfl
  | died => exact List.prefix_rfl
  | forgotten => exact List.prefix_rfl
  | void => exact List.prefix_rfl
  | _ => exact List.prefix_append _ _

theorem Steps.log_grows
    {l l' : Ledger}
    (h : l.Steps l') : l.log <+: l'.log := by
  induction h with
  | refl => exact List.prefix_rfl
  | tail _ hStep ih => exact ih.trans hStep.log_grows

end Ledger

------------------------------------------------------------
-- Scenes
------------------------------------------------------------

/-
  The sessions that someone holds, alone or in readers, and
  the operations that nobody has completed or dropped.
-/
structure Scene where
  sessions : List Session
  operations : List Operation
  ledger : Ledger

/-
  A session is bound to a command anew or to none, or its
  command takes output values that came back.
-/
inductive Session.Rebinds
    (s : Session) :
    Option Command → Option BoundCommand → Prop where
  | none : Rebinds s none none
  | bound
      {c : Command}
      {b : BoundCommand}
      (hBound : s.repository.provider.bind c = .ok b) :
      Rebinds s (some c) (some b)
  | stored (o : OutputValues) :
      Rebinds s (s.command.map (·.storeOutputs o)) s.bound

/- Commands and what they are bound to come in pairs. -/
theorem Session.Rebinds.matched
    {s : Session}
    {command : Option Command}
    {bound : Option BoundCommand}
    (h : s.Rebinds command bound)
    (hMatched : s.command.isSome = s.bound.isSome) :
    command.isSome = bound.isSome := by
  cases h with
  | none => rfl
  | bound => rfl
  | stored o =>
      rw [Option.isSome_map]
      exact hMatched

namespace Scene

/-
  What happens to a session, to an operation, or around them.
  The sessions whose transactions may come to an end by what
  happens are given.
-/
inductive Step (may : Nat → Prop) : Scene → Scene → Prop where
  | rearranged
      {ss ss' : List Session}
      {os os' : List Operation}
      {l : Ledger}
      (hSessions : ss.Perm ss')
      (hOperations : os.Perm os') :
      Step may ⟨ss, os, l⟩ ⟨ss', os', l⟩
  | around
      {ss : List Session}
      {os : List Operation}
      {l l' : Ledger}
      (h : l.Step l') :
      Step may ⟨ss, os, l⟩ ⟨ss, os, l'⟩
  | made
      {ss : List Session}
      {os : List Operation}
      {l : Ledger}
      (r : Repository)
      (defaultTimeout : Nat) :
      Step may ⟨ss, os, l⟩
        ⟨⟨l.sessions, r, defaultTimeout, none, none, .closed,
            false, false⟩ :: ss, os,
          { l with sessions := l.sessions + 1 }⟩
  | changed
      {ss : List Session}
      {os : List Operation}
      {l : Ledger}
      {s : Session}
      (command : Option Command)
      (bound : Option BoundCommand)
      (disposed : Bool)
      (hRebinds : s.Rebinds command bound)
      (hDisposed : s.disposed = true → disposed = true)
      (hClosed : disposed = true →
        s.disposed = true ∨ s.link = .closed) :
      Step may ⟨s :: ss, os, l⟩
        ⟨{ s with command, bound, disposed } :: ss, os, l⟩
  | opened
      {ss : List Session}
      {os : List Operation}
      {l : Ledger}
      {s : Session}
      (hLink : s.link = .closed)
      (hUsable : s.disposed = false) :
      Step may ⟨s :: ss, os, l⟩
        ⟨{ s with
            link := .opened (l.nextConnection s.repository) } ::
            ss, os,
          (l.opening s.repository).link s.repository⟩
  | closed
      {ss : List Session}
      {os : List Operation}
      {l : Ledger}
      {s : Session}
      {c : Connection}
      (ok : Bool)
      (hLink : s.link = .opened c)
      (hTransaction : s.inTransaction = false) :
      Step may ⟨s :: ss, os, l⟩
        ⟨{ s with link := .closed } :: ss, os,
          (l.add [.called .close c ok]).unlink s.repository⟩
  | discarded
      {ss : List Session}
      {os : List Operation}
      {l : Ledger}
      {s : Session}
      {c : Connection}
      (hLink : s.link = .opened c)
      (hMay : s.inTransaction = true → may s.id) :
      Step may ⟨s :: ss, os, l⟩
        ⟨{ s with link := .closed, inTransaction := false } ::
            ss, os,
          (l.add [.discarded c]).unlink s.repository⟩
  | began
      {ss : List Session}
      {os : List Operation}
      {l : Ledger}
      {s : Session}
      {c : Connection}
      (hLink : s.link = .opened c)
      (hTransaction : s.inTransaction = false) :
      Step may ⟨s :: ss, os, l⟩
        ⟨{ s with inTransaction := true } :: ss, os,
          l.add [.called .begin c true]⟩
  | refused
      {ss : List Session}
      {os : List Operation}
      {l : Ledger}
      {s : Session}
      {c : Connection}
      (hLink : s.link = .opened c)
      (hTransaction : s.inTransaction = false) :
      Step may ⟨s :: ss, os, l⟩
        ⟨s :: ss, os, l.add [.called .begin c false]⟩
  | ended
      {ss : List Session}
      {os : List Operation}
      {l : Ledger}
      {s : Session}
      {c : Connection}
      (e : Session.Ending)
      (ok : Bool)
      (hLink : s.link = .opened c)
      (hTransaction : s.inTransaction = true)
      (hMay : may s.id) :
      Step may ⟨s :: ss, os, l⟩
        ⟨{ s with inTransaction := false } :: ss, os,
          l.add [.called e.call c ok]⟩
  | cleared
      {ss : List Session}
      {os : List Operation}
      {l : Ledger}
      {s : Session}
      (hLink : s.link = .closed)
      (hTransaction : s.inTransaction = true)
      (hMay : may s.id) :
      Step may ⟨s :: ss, os, l⟩
        ⟨{ s with inTransaction := false } :: ss, os, l⟩
  | started
      {ss : List Session}
      {os : List Operation}
      {l : Ledger}
      {s : Session}
      {c : Connection}
      {b : BoundCommand}
      (kind : Operation.Kind)
      (context : Operation.Context)
      (limit deadline time : Nat)
      (hLink : s.link = .opened c)
      (hBound : s.bound = some b)
      (hContext : context.inTransaction = s.inTransaction) :
      Step may ⟨s :: ss, os, l⟩
        ⟨{ s with link := .busy } :: ss,
          ⟨s.id, kind, l.started, context⟩ :: os,
          (l.ask c (Progress.start b).statement).start
            ⟨l.started, c, limit, deadline,
              .waiting time (.start b)
                (l.reply? c (Progress.start b).statement)⟩⟩
  | returned
      {ss : List Session}
      {os : List Operation}
      {l : Ledger}
      {s : Session}
      {c : Connection}
      {o : Operation}
      {t : Task}
      {result : Reply}
      (hSession : o.session = s.id)
      (hTask : l.task? o.task = some t)
      (hState : t.state = .finished c result) :
      Step may ⟨s :: ss, o :: os, l⟩
        ⟨{ s with link := .opened c } :: ss, os,
          l.forget o.task⟩
  | lost
      {ss : List Session}
      {os : List Operation}
      {l : Ledger}
      {s : Session}
      {o : Operation}
      (hSession : o.session = s.id)
      (hTask : ∀ t, l.task? o.task = some t → t.IsLost)
      (hMay : s.inTransaction = true → may s.id) :
      Step may ⟨s :: ss, o :: os, l⟩
        ⟨{ s with link := .closed, inTransaction := false } ::
            ss, os,
          (l.forget o.task).unlink s.repository⟩
  | dropped
      {ss : List Session}
      {os : List Operation}
      {l : Ledger}
      (o : Operation) :
      Step may ⟨ss, o :: os, l⟩
        ⟨ss, os, l.withJobs
          (l.jobs ++
            [.afterTask o.task o.context.inTransaction])⟩
  | left
      {ss : List Session}
      {os : List Operation}
      {l : Ledger}
      {s : Session}
      (hLink : ∀ c, s.link ≠ .opened c) :
      Step may ⟨s :: ss, os, l⟩ ⟨ss, os, l⟩
  | leftOpen
      {ss : List Session}
      {os : List Operation}
      {l : Ledger}
      {s : Session}
      {c : Connection}
      (ok : Bool)
      (hLink : s.link = .opened c)
      (hTransaction : s.inTransaction = false) :
      Step may ⟨s :: ss, os, l⟩
        ⟨ss, os, (l.add [.called .close c ok]).close⟩
  | leftInTransaction
      {ss : List Session}
      {os : List Operation}
      {l : Ledger}
      {s : Session}
      {c : Connection}
      (hLink : s.link = .opened c)
      (hTransaction : s.inTransaction = true) :
      Step may ⟨s :: ss, os, l⟩
        ⟨ss, os, l.withJobs (l.jobs ++ [.commit c])⟩

abbrev Steps (may : Nat → Prop) :=
  Relation.ReflTransGen (Step may)

/- More transactions may end. -/
theorem Step.mono
    {may can : Nat → Prop}
    {σ σ' : Scene}
    (h : Step may σ σ')
    (hImp : ∀ i, may i → can i) :
    Step can σ σ' := by
  cases h with
  | rearranged hs ho => exact .rearranged hs ho
  | around h => exact .around h
  | made r n => exact .made r n
  | changed c b d hR hD hC => exact .changed c b d hR hD hC
  | opened h hU => exact .opened h hU
  | closed ok h hT => exact .closed ok h hT
  | discarded h hMay => exact .discarded h (hImp _ ∘ hMay)
  | began h hT => exact .began h hT
  | refused h hT => exact .refused h hT
  | ended e ok h hT hMay => exact .ended e ok h hT (hImp _ hMay)
  | cleared h hT hMay => exact .cleared h hT (hImp _ hMay)
  | started k x n d t h hB hT =>
      exact .started k x n d t h hB hT
  | returned hS hT h => exact .returned hS hT h
  | lost hS hT hMay => exact .lost hS hT (hImp _ ∘ hMay)
  | dropped o => exact .dropped o
  | left h => exact .left h
  | leftOpen ok h hT => exact .leftOpen ok h hT
  | leftInTransaction h hT => exact .leftInTransaction h hT

theorem Steps.mono
    {may can : Nat → Prop}
    {σ σ' : Scene}
    (h : Steps may σ σ')
    (hImp : ∀ i, may i → can i) :
    Steps can σ σ' :=
  h.lift id fun _ _ hStep => hStep.mono hImp

/- The scene with other sessions and operations behind. -/
def beside
    (σ : Scene)
    (fs : List Session)
    (fo : List Operation) : Scene :=
  ⟨σ.sessions ++ fs, σ.operations ++ fo, σ.ledger⟩

/-
  A step leaves the sessions and operations beside it as they
  are.
-/
theorem Step.frame
    {may : Nat → Prop}
    {σ σ' : Scene}
    (h : Step may σ σ')
    (fs : List Session)
    (fo : List Operation) :
    Step may (σ.beside fs fo) (σ'.beside fs fo) := by
  cases h with
  | rearranged hs ho =>
      exact .rearranged (hs.append_right fs) (ho.append_right fo)
  | around h => exact .around h
  | made r n => exact .made r n
  | changed c b d hR hD hC => exact .changed c b d hR hD hC
  | opened h hU => exact .opened h hU
  | closed ok h hT => exact .closed ok h hT
  | discarded h hMay => exact .discarded h hMay
  | began h hT => exact .began h hT
  | refused h hT => exact .refused h hT
  | ended e ok h hT hMay => exact .ended e ok h hT hMay
  | cleared h hT hMay => exact .cleared h hT hMay
  | started k x n d t h hB hT =>
      exact .started k x n d t h hB hT
  | returned hS hT h => exact .returned hS hT h
  | lost hS hT hMay => exact .lost hS hT hMay
  | dropped o => exact .dropped o
  | left h => exact .left h
  | leftOpen ok h hT => exact .leftOpen ok h hT
  | leftInTransaction h hT => exact .leftInTransaction h hT

theorem Steps.frame
    {may : Nat → Prop}
    {ss ss' : List Session}
    {os os' : List Operation}
    {l l' : Ledger}
    (h : Steps may ⟨ss, os, l⟩ ⟨ss', os', l'⟩)
    (fs : List Session)
    (fo : List Operation) :
    Steps may ⟨ss ++ fs, os ++ fo, l⟩
      ⟨ss' ++ fs, os' ++ fo, l'⟩ :=
  h.lift (·.beside fs fo) fun _ _ hStep => hStep.frame fs fo

/- Sessions are made and never forgotten. -/
theorem Steps.sessions_le
    {may : Nat → Prop}
    {σ σ' : Scene}
    (h : Steps may σ σ') :
    σ.ledger.sessions ≤ σ'.ledger.sessions := by
  induction h with
  | refl => exact Nat.le_refl _
  | tail _ hStep ih =>
      refine Nat.le_trans ih ?_
      cases hStep with
      | around h => exact Nat.le_of_eq h.sessions_eq.symm
      | made => exact Nat.le_succ _
      | _ => exact Nat.le_refl _

theorem Step.log_grows
    {may : Nat → Prop}
    {σ σ' : Scene}
    (h : Step may σ σ') : σ.ledger.log <+: σ'.ledger.log := by
  cases h with
  | around h => exact h.log_grows
  | opened =>
      exact (List.prefix_append _ _).trans (List.prefix_append _ _)
  | closed =>
      exact (List.prefix_append _ _).trans (List.prefix_append _ _)
  | discarded =>
      exact (List.prefix_append _ _).trans (List.prefix_append _ _)
  | began => exact List.prefix_append _ _
  | refused => exact List.prefix_append _ _
  | ended => exact List.prefix_append _ _
  | started => exact List.prefix_append _ _
  | lost => exact List.prefix_append _ _
  | leftOpen => exact List.prefix_append _ _
  | _ => exact List.prefix_rfl

theorem Steps.log_grows
    {may : Nat → Prop}
    {σ σ' : Scene}
    (h : Steps may σ σ') : σ.ledger.log <+: σ'.ledger.log := by
  induction h with
  | refl => exact List.prefix_rfl
  | tail _ hStep ih => exact ih.trans hStep.log_grows

/- The background goes on by itself. -/
theorem Steps.around
    {may : Nat → Prop}
    {ss : List Session}
    {os : List Operation}
    {l l' : Ledger}
    (h : l.Steps l') :
    Steps may ⟨ss, os, l⟩ ⟨ss, os, l'⟩ :=
  h.lift (Scene.mk ss os) fun _ _ hStep => .around hStep

end Scene

end Failover
