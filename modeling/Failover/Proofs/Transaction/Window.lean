import Failover.Proofs.Scene.Request
import Failover.Proofs.Transaction.Release
import Failover.Proofs.Transaction.Within

/-
  From the begin of a transaction until a request that may end
  it, the operations of the session run on the connection of
  the begin, and a commit that succeeds is made there.

  Key definitions include:
    * `Workspace.Moment`, `Workspace.trace`
    * `Workspace.Request.operation?`
    * `Workspace.Moment.RunsOn`

  Main statements:
    * `Workspace.operations_run_where_begun`
-/

namespace Failover

namespace Workspace

------------------------------------------------------------
-- Moments
------------------------------------------------------------

/- A request, with what there was before and after it. -/
structure Moment where
  before : Workspace × World
  request : Request
  answer : Answer
  after : Workspace × World

def momentOf
    (q : Request)
    (ws : Workspace)
    (w : World) : Moment :=
  let x := ((perform q).run ws).run w
  ⟨(ws, w), q, x.1.1, (x.1.2, x.2)⟩

/- Requests in turn, with all that is between them. -/
def trace : List Request → Workspace → World → List Moment
  | [], _, _ => []
  | q :: qs, ws, w =>
      let m := momentOf q ws w
      m :: trace qs m.after.1 m.after.2

/- The moments are those of the run. -/
theorem run_trace
    (qs : List Request)
    (ws : Workspace)
    (w : World) :
    Act.Ends (run qs) ws w fun as _ _ =>
      as = (trace qs ws w).map (·.answer) := by
  unfold run
  induction qs generalizing ws w with
  | nil => rfl
  | cons q qs ih =>
      rw [List.mapM_cons]
      exact congrArg (_ :: ·) (ih _ _)

/- An answer that something was done, and well. -/
def Answer.isOk : Answer → Bool
  | .gave (.ok _) => true
  | _ => false

/-
  The operation that a request completes, and the world since
  when it is at work.
-/
def Request.operation?
    (q : Request)
    (ws : Workspace)
    (w : World) : Option (Operation × World) :=
  match q with
  | .execute session kind _ =>
      (ws.session? session).bind fun s =>
        match (((Session.start kind).run.run s).run w) with
        | ((.ok o, _), w') => some (o, w')
        | ((.error _, _), _) => none
  | .complete _ operation _ =>
      (ws.operation? operation).map fun o => (o, w)
  | .completeOwned _ operation _ =>
      (ws.operation? operation).map fun o => (o, w)
  | _ => none

namespace Moment

/- What has happened. -/
def news (m : Moment) : List Event :=
  m.after.2.log.drop m.before.2.log.length

/- The request was performed, and this came of it. -/
def IsPerformed (m : Moment) : Prop :=
  ((perform m.request).run m.before.1).run m.before.2 =
    ((m.answer, m.after.1), m.after.2)

/- The session of a number is under a name. -/
def Finds
    (m : Moment)
    (name : String)
    (i : Nat) : Prop :=
  (m.before.1.session? name).map (·.id) = some i

/- An operation of a session is completed, and well. -/
def Completes
    (m : Moment)
    (i : Nat) : Prop :=
  ∃ name, m.request.completing? = some name ∧ m.Finds name i ∧
    m.answer.isOk = true

/- The operation is the session's, and is on a connection. -/
def RunsOn
    (m : Moment)
    (i : Nat)
    (c : Connection) : Prop :=
  ∃ o w t, m.request.operation? m.before.1 m.before.2 = some (o, w) ∧
    o.session = i ∧ w.task? o.task = some t ∧ t.connection = c

end Moment

------------------------------------------------------------
-- Sessions under names
------------------------------------------------------------

variable {ws : Workspace} {w : World}

/-
  An act of a session that is kept under a name is answered,
  and the session put back.
-/
theorem onSession_ends
    {name : String}
    {s : Session}
    {act : Session.Try Result}
    {P : Except Failure Result → Session → World → Prop}
    (hSession : ws.session? name = some s)
    (h : Try.Ends act s w P) :
    Act.Ends (onSession name act) ws w fun a ws' w' =>
      ∃ r s', a = .gave r ∧ ws'.session? name = some s' ∧
        P r s' w' := by
  unfold onSession
  rw [Act.ends_bind, Act.ends_get, hSession]
  simp only
  rw [Act.ends_bind, Act.ends_lift, Act.ends_run, Try.ends_run]
  refine h.mono ?_
  intro r s' w' hP
  exact ⟨r, s', rfl, session?_put name s', hP⟩

/-
  An act without an answer succeeds only if the session's
  act does.
-/
theorem quietly_ends
    {act : Session.Try Unit}
    {s : Session}
    {P : Except Failure Unit → Session → World → Prop}
    (h : Try.Ends act s w P) :
    Try.Ends (quietly act) s w fun r s' w' =>
      ∃ r', P r' s' w' ∧ ∀ x, r = .ok x → r' = .ok () := by
  unfold quietly
  refine h.bind ?_ ?_
  · exact fun a s' w' hP => ⟨.ok a, hP, fun _ _ => rfl⟩
  · exact fun f s' w' hP => ⟨.error f, hP, nofun⟩

/- A request is its answer and what goes on in the background. -/
theorem perform_ends
    {q : Request}
    {P : Answer → Workspace → World → Prop}
    (h : Act.Ends (answer q) ws w P) :
    Act.Ends (perform q) ws w fun a ws' w' =>
      ∃ w₁, P a ws' w₁ ∧ w₁.ledger.Steps w'.ledger := by
  unfold perform
  refine h.bind ?_
  intro a ws₁ w₁ hP
  rw [Act.ends_bind, Act.ends_lift]
  refine (World.runJobs_steps w₁).mono ?_
  rintro _ w' ⟨-, -, hSteps⟩
  exact ⟨w₁, hP, hSteps⟩

/- An event that is added is among the news, whatever follows. -/
theorem mem_news
    {log log' es : List Event}
    {e : Event}
    (h : log ++ es <+: log')
    (hMem : e ∈ es) : e ∈ log'.drop log.length := by
  rcases h with ⟨more, rfl⟩
  rw [List.append_assoc, List.drop_left]
  exact List.mem_append_left _ hMem

/- A begin that succeeds is a call on the connection. -/
theorem perform_begin
    {name : String}
    {s : Session}
    (hSession : ws.session? name = some s) :
    Act.Ends (perform (.begin name)) ws w fun a ws' w' =>
      a.isOk = true → ∃ c s', ws'.session? name = some s' ∧
        s'.id = s.id ∧ s'.inTransaction = true ∧
        s'.link = .opened c ∧
        .called .begin c true ∈ w'.log.drop w.log.length := by
  have hBegin := onSession_ends hSession (quietly_ends
    (Session.begin_ends (fun _ => True) s w fun _ => trivial))
  refine (perform_ends (q := .begin name) hBegin).mono ?_
  rintro a ws' w' ⟨w₁, ⟨r, s', rfl, hPut, r', ⟨hGoes, hBegun⟩,
    hOk⟩, hSteps⟩ hIsOk
  cases r with
  | error f => cases hIsOk
  | ok x =>
      rcases hBegun (hOk x rfl) with ⟨hIn, c, es, hLink, hLog⟩
      have hPrefix : w₁.log <+: w'.log := hSteps.log_grows
      rw [hLog, List.append_assoc] at hPrefix
      refine ⟨c, s', hPut, hGoes.id, hIn, hLink, ?_⟩
      exact mem_news hPrefix
        (List.mem_append_right _ (List.mem_singleton_self _))

/- A commit in a transaction that succeeds is a call as well. -/
theorem perform_commit
    {name : String}
    {s : Session}
    {c : Connection}
    (hSession : ws.session? name = some s)
    (hTransaction : s.inTransaction = true)
    (hLink : s.link = .opened c ∨ s.link = .busy) :
    Act.Ends (perform (.commit name)) ws w fun a _ w' =>
      a.isOk = true →
        .called .commit c true ∈ w'.log.drop w.log.length := by
  have hCommit := onSession_ends hSession (quietly_ends
    (Session.endTransaction_ends (fun _ => True) s w .commit
      fun _ => trivial))
  refine (perform_ends (q := .commit name) hCommit).mono ?_
  rintro a ws' w' ⟨w₁, ⟨r, s', rfl, -, r', ⟨-, hState, hCalled⟩,
    hOk⟩, hSteps⟩ hIsOk
  cases r with
  | error f => cases hIsOk
  | ok x =>
      have hNot : s.link ≠ .closed := by
        rcases hLink with hOpened | hBusy
        · simp [hOpened]
        · simp [hBusy]
      rcases hCalled hTransaction hNot (hOk x rfl) with
        ⟨c', es, hOpened, hLog⟩
      have hSame : c' = c := by
        rcases hLink with hThis | hBusy
        · exact Link.opened.inj (hOpened.symm.trans hThis)
        · cases hOpened.symm.trans hBusy
      have hPrefix : w₁.log <+: w'.log := hSteps.log_grows
      rw [hLog, hSame] at hPrefix
      exact mem_news hPrefix (List.mem_cons_self ..)

------------------------------------------------------------
-- Operations that succeed
------------------------------------------------------------

/- A result that is wrapped up tells what it told before. -/
theorem wrapped_ok
    {α : Type}
    {act : Session.Try α}
    {s : Session}
    {p : Prop}
    (wrap : α → Result)
    (h : Try.Ends act s w fun r _ _ => ∀ x, r = .ok x → p) :
    Try.Ends (do return wrap (← act)) s w fun r _ _ =>
      ∀ x, r = .ok x → p := by
  refine h.bind ?_ ?_
  · exact fun a _ _ hOk _ _ => hOk a rfl
  · exact fun f _ _ _ => nofun

theorem onSession_ok
    {name : String}
    {s : Session}
    {p : Prop}
    {act : Session.Try Result}
    (hSession : ws.session? name = some s)
    (h : Try.Ends act s w fun r _ _ => ∀ x, r = .ok x → p) :
    Act.Ends (onSession name act) ws w fun a _ _ =>
      a.isOk = true → p := by
  refine (onSession_ends hSession h).mono ?_
  rintro a _ _ ⟨r, _, rfl, -, hOk⟩ hIsOk
  cases r with
  | ok x => exact hOk x rfl
  | error f => cases hIsOk

/- An operation that succeeds is the session's own. -/
theorem takes_own
    {α : Type}
    {act : Session.Try α}
    {s : Session}
    {o : Operation}
    (h : Try.Ends act s w (Session.Takes s o w)) :
    Try.Ends act s w fun r _ _ =>
      ∀ x, r = .ok x → o.session = s.id :=
  h.mono fun _ _ _ hTakes => hTakes.own

/-
  A reader that is opened belongs to the session that it is
  opened for.
-/
theorem openReader_own
    (s : Session)
    (o : Operation)
    (h : Holder)
    (giveBack : Session → Act Unit) :
    Act.Ends (openReader s o h giveBack) ws w fun a _ _ =>
      a.isOk = true → o.session = s.id := by
  unfold openReader
  rw [Act.ends_bind, Act.ends_lift]
  refine (Session.openReader_ends s w o).mono ?_
  rintro ⟨x, s₁⟩ w₁ ⟨hTakes, -⟩
  cases x with
  | ok r => exact fun _ => hTakes.own r rfl
  | error f => exact fun hIsOk => nomatch hIsOk

/- An operation is completed on its own session only. -/
theorem complete_own
    {session : String}
    {s : Session}
    (hSession : ws.session? session = some s)
    (operation : String)
    (t : Target) :
    Act.Ends (complete session operation t) ws w fun a _ _ =>
      a.isOk = true →
        ∃ o, ws.operation? operation = some o ∧
          o.session = s.id := by
  unfold complete
  rw [Act.ends_bind, Act.ends_get, hSession]
  cases hOperation : ws.operation? operation with
  | none => exact fun hIsOk => nomatch hIsOk
  | some o =>
      simp only
      have hThis {e : Act Answer} {ws₁ : Workspace}
          (h : Act.Ends e ws₁ w fun a _ _ =>
            a.isOk = true → o.session = s.id) :
          Act.Ends e ws₁ w fun a _ _ => a.isOk = true →
            ∃ o', some o = some o' ∧ o'.session = s.id :=
        h.mono fun _ _ _ hOwn hIsOk => ⟨o, rfl, hOwn hIsOk⟩
      rw [Act.ends_bind]
      unfold removeOperation
      rw [Act.ends_modify]
      cases o.kind with
      | nonQuery =>
          exact hThis (onSession_ok hSession (wrapped_ok _
            (takes_own (Session.completeNonQuery_ends s w o))))
      | scalar =>
          exact hThis (onSession_ok hSession (wrapped_ok _
            (takes_own (Session.completeScalar_ends s w o t))))
      | reader => exact hThis (openReader_own s o _ _)

/- A reader is made of an operation on its own session only. -/
theorem completeOwned_own
    {session : String}
    {s : Session}
    (hSession : ws.session? session = some s)
    (operation reader : String) :
    Act.Ends (completeOwned session operation reader) ws w
      fun a _ _ => a.isOk = true →
        ∃ o, ws.operation? operation = some o ∧
          o.session = s.id := by
  unfold completeOwned
  rw [Act.ends_bind, Act.ends_get, hSession]
  cases hOperation : ws.operation? operation with
  | none => exact fun hIsOk => nomatch hIsOk
  | some o =>
      simp only
      split
      · refine Act.Ends.mono (P := fun a _ _ =>
          a.isOk = true → o.session = s.id) ?_ ?_
        · exact openReader_own s o _ _
        · exact fun _ _ _ hOwn hIsOk => ⟨o, rfl, hOwn hIsOk⟩
      · exact fun hIsOk => nomatch hIsOk

/- The operation of a session has started, and what it is. -/
def Started
    (kind : Operation.Kind)
    (s : Session)
    (w : World) : Prop :=
  ∃ o s' w', (((Session.start kind).run.run s).run w) =
    ((.ok o, s'), w')

/-
  What succeeds after an operation was started tells that it
  was started.
-/
theorem started_of_ok
    {α : Type}
    (kind : Operation.Kind)
    (f : Operation → Session.Try α)
    (s : Session)
    (w : World) :
    Try.Ends (do f (← Session.start kind)) s w fun r _ _ =>
      ∀ x, r = .ok x → Started kind s w := by
  have hStart : Try.Ends (Session.start kind) s w fun r s' w' =>
      (((Session.start kind).run.run s).run w) = ((r, s'), w') :=
    rfl
  refine hStart.bind ?_ ?_
  · exact fun o s' w' hRun _ _ => ⟨o, s', w', hRun⟩
  · exact fun f _ _ _ => nofun

/-
  A command that is executed was started as an operation of
  its kind.
-/
theorem execute_started
    {session : String}
    {s : Session}
    (hSession : ws.session? session = some s)
    (kind : Operation.Kind)
    (t : Target) :
    Act.Ends (execute session kind t) ws w fun a _ _ =>
      a.isOk = true → Started kind s w := by
  unfold execute
  cases kind with
  | nonQuery =>
      exact onSession_ok hSession (wrapped_ok _
        (started_of_ok _ Session.completeNonQuery s w))
  | scalar =>
      exact onSession_ok hSession (wrapped_ok _
        (started_of_ok _ (fun o => Session.completeScalar o t) s w))
  | reader =>
      simp only
      rw [Act.ends_bind, Act.ends_get, hSession]
      simp only
      rw [Act.ends_bind]
      unfold removeSession
      rw [Act.ends_modify, Act.ends_bind, Act.ends_lift,
        Act.ends_run, Try.ends_run]
      have hStart : Try.Ends (Session.start .reader) s w
          fun r s' w' => (((Session.start .reader).run.run s).run
            w) = ((r, s'), w') := rfl
      refine hStart.mono ?_
      intro r s' w' hRun
      cases r with
      | ok o => exact fun _ => ⟨o, s', w', hRun⟩
      | error f => exact fun hIsOk => nomatch hIsOk

------------------------------------------------------------
-- Operations in a transaction
------------------------------------------------------------

/- What is reached by requests: names and scenes are sound. -/
structure Reached
    (ws : Workspace)
    (w : World) : Prop where
  tidy : ws.Tidy
  sound : (ws.scene w [] []).Sound

/- The operations of the session work where it began. -/
theorem task_of_within
    {σ : Scene}
    {i : Nat}
    {c : Connection}
    {o : Operation}
    (hSound : σ.Sound)
    (hWithin : Scene.Within i c σ)
    (hMem : o ∈ σ.operations)
    (hSession : o.session = i) :
    ∃ t, σ.ledger.task? o.task = some t ∧ t.connection = c := by
  have hTask : o.task ∈ σ.ledger.taskIds :=
    hSound.claimed.mem_iff.mp (List.mem_map.mpr
      ⟨o.claim, List.mem_append_left _
        (List.mem_map.mpr ⟨o, hMem, rfl⟩), rfl⟩)
  cases hFound : σ.ledger.task? o.task with
  | none =>
      rcases List.mem_map.mp hTask with ⟨t, hT, hId⟩
      have hNone := List.find?_eq_none.mp hFound t hT
      exact absurd (beq_iff_eq.mpr hId) hNone
  | some t =>
      exact ⟨t, rfl,
        (hWithin.operations o hMem hSession t hFound).connection⟩

/- An operation that was kept is completed. -/
theorem runsOn_kept
    {m : Moment}
    {i : Nat}
    {c : Connection}
    {name : String}
    {o : Operation}
    (hReached : Reached m.before.1 m.before.2)
    (hWithin : Scene.Within i c
      (m.before.1.scene m.before.2 [] []))
    (hOperation : m.before.1.operation? name = some o)
    (hRequest : m.request.operation? m.before.1 m.before.2 =
      some (o, m.before.2))
    (hSession : o.session = i) : m.RunsOn i c := by
  have hMem : o ∈ (m.before.1.scene m.before.2 [] []).operations :=
    List.mem_map.mpr ⟨_, mem_of_lookup hOperation, rfl⟩
  rcases task_of_within hReached.sound hWithin hMem hSession with
    ⟨t, hTask, hOn⟩
  exact ⟨o, m.before.2, t, hRequest, hSession, hTask, hOn⟩

/- An operation is started and completed at once. -/
theorem runsOn_started
    {m : Moment}
    {c : Connection}
    {name : String}
    {kind : Operation.Kind}
    {t : Target}
    {s : Session}
    (hReached : Reached m.before.1 m.before.2)
    (hWithin : Scene.Within s.id c
      (m.before.1.scene m.before.2 [] []))
    (hRequest : m.request = .execute name kind t)
    (hSession : m.before.1.session? name = some s)
    (hStarted : Started kind s m.before.2) :
    m.RunsOn s.id c := by
  rcases hStarted with ⟨o, s', w', hRun⟩
  have hStart := Session.start_ends (fun _ => False) s m.before.2
    kind
  unfold Try.Ends Act.Ends Effect.Ends at hStart
  rw [hRun] at hStart
  rcases hStart with ⟨o', hOk, hOwner, -, -, -, hSteps⟩ |
    ⟨f, hFail, -⟩
  · cases hOk
    have hTaken : Follows (fun _ => False) [] [] m.before.1
        m.before.2 [s] [] _ m.before.2 :=
      takeSession_follows hReached.tidy hSession
    have hAtWork : Follows (fun _ => False) [] [] m.before.1
        m.before.2 [s'] [o] _ w' :=
      hTaken.trans (.inHand hTaken.tidy hSteps)
    rcases task_of_within (hReached.sound.steps hAtWork.steps)
      (hWithin.steps hReached.sound hAtWork.steps fun h => h)
      (List.mem_append_left _ (List.mem_singleton_self o))
      hOwner with ⟨task, hTask, hOn⟩
    refine ⟨o, w', task, ?_, hOwner, hTask, hOn⟩
    rw [hRequest]
    simp only [Request.operation?, hSession, Option.bind_some, hRun]
  · cases hFail

/- A successful answer to a request tells what its act tells. -/
theorem answered_ok
    {m : Moment}
    {p : Prop}
    (hMoment : m.IsPerformed)
    (hOk : m.answer.isOk = true)
    (h : Act.Ends (answer m.request) m.before.1 m.before.2
      fun a _ _ => a.isOk = true → p) : p := by
  have hEnds := perform_ends h
  unfold Act.Ends Effect.Ends at hEnds
  rw [hMoment] at hEnds
  rcases hEnds with ⟨_, hThis, -⟩
  exact hThis hOk

/- An operation that is completed well in a transaction. -/
theorem runsOn_of_within
    {m : Moment}
    {i : Nat}
    {c : Connection}
    (hMoment : m.IsPerformed)
    (hReached : Reached m.before.1 m.before.2)
    (hWithin : Scene.Within i c
      (m.before.1.scene m.before.2 [] []))
    (hCompletes : m.Completes i) : m.RunsOn i c := by
  rcases hCompletes with ⟨name, hName, hFinds, hOk⟩
  rcases Option.map_eq_some_iff.mp hFinds with ⟨s, hSession, rfl⟩
  have hAnswer {p : Prop}
      (h : Act.Ends (answer m.request) m.before.1 m.before.2
        fun a _ _ => a.isOk = true → p) : p :=
    answered_ok hMoment hOk h
  cases hRequest : m.request with
  | execute session kind t =>
      rw [hRequest] at hName hAnswer
      cases hName
      exact runsOn_started hReached hWithin hRequest hSession
        (hAnswer (execute_started hSession kind t))
  | complete session operation t =>
      rw [hRequest] at hName hAnswer
      cases hName
      rcases hAnswer (complete_own hSession operation t) with
        ⟨o, hOperation, hOwner⟩
      refine runsOn_kept hReached hWithin hOperation ?_ hOwner
      simp only [hRequest, Request.operation?, hOperation,
        Option.map_some]
  | completeOwned session operation reader =>
      rw [hRequest] at hName hAnswer
      cases hName
      rcases hAnswer (completeOwned_own hSession operation
        reader) with ⟨o, hOperation, hOwner⟩
      refine runsOn_kept hReached hWithin hOperation ?_ hOwner
      simp only [hRequest, Request.operation?, hOperation,
        Option.map_some]
  | _ =>
      rw [hRequest] at hName
      cases hName

------------------------------------------------------------
-- Moments in a transaction
------------------------------------------------------------

/- A request leads from a state that is reached to another one. -/
theorem Reached.next
    {m : Moment}
    (hReached : Reached m.before.1 m.before.2)
    (hMoment : m.IsPerformed) :
    Reached m.after.1 m.after.2 ∧
      Scene.Steps
        (m.request.MayEnd m.before.1 m.before.2 m.answer m.after.1)
        (m.before.1.scene m.before.2 [] [])
        (m.after.1.scene m.after.2 [] []) := by
  have hEnds : Act.Ends (perform m.request) m.before.1 m.before.2 _ :=
    perform_follows hReached.tidy m.request
  unfold Act.Ends Effect.Ends at hEnds
  rw [hMoment] at hEnds
  exact ⟨⟨hEnds.tidy, hReached.sound.steps hEnds.steps⟩,
    hEnds.steps⟩

/- A request that does not end the transaction of a session. -/
def Moment.Spares
    (m : Moment)
    (i : Nat) : Prop :=
  ¬ m.request.Ends m.before.1 i ∧
    ¬ m.request.Loses m.before.1 m.answer m.after.1 i

/- The session goes on where it is. -/
theorem within_next
    {m : Moment}
    {i : Nat}
    {c : Connection}
    (hReached : Reached m.before.1 m.before.2)
    (hMoment : m.IsPerformed)
    (hSpares : m.Spares i)
    (hWithin : Scene.Within i c
      (m.before.1.scene m.before.2 [] [])) :
    Scene.Within i c (m.after.1.scene m.after.2 [] []) := by
  refine hWithin.steps hReached.sound (hReached.next hMoment).2 ?_
  rintro (hEnds | hLoses | hNew)
  · exact hSpares.1 hEnds
  · exact hSpares.2 hLoses
  · exact Nat.not_lt_of_le hNew hWithin.made

/- A session that is on a connection has no operations yet. -/
theorem within_opened
    {σ : Scene}
    {s : Session}
    {c : Connection}
    (hSound : σ.Sound)
    (hMem : s ∈ σ.sessions)
    (hTransaction : s.inTransaction = true)
    (hLink : s.link = .opened c) : Scene.Within s.id c σ where
  made := hSound.numbered.made s.id
    (List.mem_map.mpr ⟨s, hMem, rfl⟩)
  sessions := by
    intro x hX hSame
    have hThis : x = s :=
      List.inj_on_of_nodup_map hSound.numbered.sessions hX hMem
        hSame
    rw [hThis]
    exact ⟨hTransaction, .inl hLink⟩
  operations := by
    intro o hO hSession
    have hBusy := (hSound.paired.busy o hO s hMem hSession).1
    cases hLink.symm.trans hBusy

/- A session begins a transaction, and is within it. -/
theorem within_begun
    {m : Moment}
    {name : String}
    {i : Nat}
    (hReached : Reached m.before.1 m.before.2)
    (hMoment : m.IsPerformed)
    (hRequest : m.request = .begin name)
    (hFinds : m.Finds name i)
    (hOk : m.answer.isOk = true) :
    ∃ c, .called .begin c true ∈ m.news ∧
      Scene.Within i c (m.after.1.scene m.after.2 [] []) := by
  rcases Option.map_eq_some_iff.mp hFinds with ⟨s, hSession, rfl⟩
  have hAfter := (hReached.next hMoment).1
  have hBegin : Act.Ends (perform (.begin name)) m.before.1
      m.before.2 _ := perform_begin hSession
  unfold Act.Ends Effect.Ends at hBegin
  rw [Moment.IsPerformed, hRequest] at hMoment
  rw [hMoment] at hBegin
  rcases hBegin hOk with ⟨c, s', hPut, hId, hIn, hLink, hCalled⟩
  have hMem : s' ∈ (m.after.1.scene m.after.2 [] []).sessions :=
    session_mem_scene hPut
  refine ⟨c, hCalled, ?_⟩
  rw [← hId]
  exact within_opened hAfter.sound hMem hIn hLink

/- A session commits the transaction that it is within. -/
theorem commit_of_within
    {m : Moment}
    {name : String}
    {i : Nat}
    {c : Connection}
    (hMoment : m.IsPerformed)
    (hWithin : Scene.Within i c
      (m.before.1.scene m.before.2 [] []))
    (hRequest : m.request = .commit name)
    (hFinds : m.Finds name i)
    (hOk : m.answer.isOk = true) :
    .called .commit c true ∈ m.news := by
  rcases Option.map_eq_some_iff.mp hFinds with ⟨s, hSession, rfl⟩
  have hMem : s ∈ (m.before.1.scene m.before.2 [] []).sessions :=
    session_mem_scene hSession
  rcases hWithin.sessions s hMem rfl with ⟨hIn, hLink⟩
  have hCommit : Act.Ends (perform (.commit name)) m.before.1
      m.before.2 _ := perform_commit hSession hIn hLink
  unfold Act.Ends Effect.Ends at hCommit
  rw [Moment.IsPerformed, hRequest] at hMoment
  rw [hMoment] at hCommit
  exact hCommit hOk

------------------------------------------------------------
-- Traces
------------------------------------------------------------

/-
  The trace of a run begins with its first request, and goes
  on with the trace of the rest.
-/
theorem trace_cons
    {qs : List Request}
    {m : Moment}
    {ms : List Moment}
    (h : trace qs ws w = m :: ms) :
    m.before = (ws, w) ∧ m.IsPerformed ∧
      ∃ qs', trace qs' m.after.1 m.after.2 = ms := by
  cases qs with
  | nil => cases h
  | cons q qs =>
      rcases List.cons.inj h with ⟨rfl, hRest⟩
      exact ⟨rfl, rfl, qs, hRest⟩

/-
  A property that each moment keeps holds after any number of
  them, by induction on the moments.
-/
theorem trace_append
    (P : Workspace → World → Prop)
    {qs : List Request}
    {xs ys : List Moment}
    (hTrace : trace qs ws w = xs ++ ys)
    (h : P ws w)
    (hNext : ∀ m ∈ xs, m.IsPerformed →
      P m.before.1 m.before.2 → P m.after.1 m.after.2) :
    ∃ qs' ws' w', trace qs' ws' w' = ys ∧ P ws' w' := by
  induction xs generalizing qs ws w with
  | nil => exact ⟨qs, ws, w, hTrace, h⟩
  | cons m xs ih =>
      rcases trace_cons hTrace with ⟨hBefore, hMoment, qs', hRest⟩
      have hStart : P m.before.1 m.before.2 := by
        rw [hBefore]
        exact h
      refine ih hRest ?_ ?_
      · exact hNext m (List.mem_cons_self ..) hMoment hStart
      · exact fun x hX => hNext x (List.mem_cons_of_mem _ hX)

/-
  A transaction of a session begins.  As long as no request
  ends it, and none that completes an operation fails with the
  loss of the connection, each operation of the session that
  is completed well is on the connection of the begin, and so
  is a commit that succeeds.
-/
theorem operations_run_where_begun
    (d : DataAccess)
    (backend : String → Backend)
    (qs : List Request)
    (earlier window later : List Moment)
    (first last : Moment)
    (name : String)
    (i : Nat)
    (hTrace : trace qs (ofAccess d) (World.initial backend) =
      earlier ++ first :: (window ++ last :: later))
    (hBegin : first.request = .begin name)
    (hFinds : first.Finds name i)
    (hOk : first.answer.isOk = true)
    (hWindow : ∀ m ∈ window, m.Spares i) :
    ∃ c, .called .begin c true ∈ first.news ∧
      (last.Completes i → last.RunsOn i c) ∧
      ∀ name', last.request = .commit name' →
        last.Finds name' i → last.answer.isOk = true →
          .called .commit c true ∈ last.news := by
  have hInitial : Reached (ofAccess d) (World.initial backend) :=
    ⟨tidy_ofAccess d, Scene.Sound.initial backend⟩
  rcases trace_append Reached hTrace hInitial
    (fun _ _ hMoment h => (h.next hMoment).1) with
    ⟨qs₁, ws₁, w₁, hFirst, hReached₁⟩
  rcases trace_cons hFirst with ⟨hBefore₁, hMoment₁, qs₂, hRest⟩
  have hReached : Reached first.before.1 first.before.2 := by
    rw [hBefore₁]
    exact hReached₁
  rcases within_begun hReached hMoment₁ hBegin hFinds hOk with
    ⟨c, hCalled, hBegun⟩
  refine ⟨c, hCalled, ?_⟩
  let P (ws : Workspace) (w : World) : Prop :=
    Reached ws w ∧ Scene.Within i c (ws.scene w [] [])
  have hStart : P first.after.1 first.after.2 :=
    ⟨(hReached.next hMoment₁).1, hBegun⟩
  rcases trace_append P hRest hStart
    (fun m hMem hMoment h => ⟨(h.1.next hMoment).1,
      within_next h.1 hMoment (hWindow m hMem) h.2⟩) with
    ⟨qs₃, ws₃, w₃, hLast, hReached₃⟩
  rcases trace_cons hLast with ⟨hBefore₃, hMoment₃, -⟩
  have hP : P last.before.1 last.before.2 := by
    rw [hBefore₃]
    exact hReached₃
  exact ⟨runsOn_of_within hMoment₃ hP.1 hP.2,
    fun name' => commit_of_within hMoment₃ hP.2⟩

/- The moment after another one. -/
def Moment.next
    (m : Moment)
    (q : Request) : Moment :=
  momentOf q m.after.1 m.after.2

/- A session with a command that is bound. -/
def boundMoment (backend : Backend) : Moment :=
  momentOf
    (.bindSession "a" "s" (some (.ofText .text "INSERT")))
    (ofAccess oneRepository) (World.initial fun _ => backend)

def begunMoment (backend : Backend) : Moment :=
  (boundMoment backend).next (.begin "s")

def executedMoment (backend : Backend) : Moment :=
  (begunMoment backend).next (.execute "s" .nonQuery .bool)

def lastMoment
    (backend : Backend)
    (q : Request) : Moment :=
  (executedMoment backend).next q

theorem trace_last
    (backend : Backend)
    (q : Request) :
    trace [.bindSession "a" "s" (some (.ofText .text "INSERT")),
        .begin "s", .execute "s" .nonQuery .bool, q]
      (ofAccess oneRepository) (World.initial fun _ => backend) =
      [boundMoment backend] ++ begunMoment backend ::
        ([executedMoment backend] ++
          lastMoment backend q :: []) :=
  rfl

/- A command in a transaction, which is then committed. -/
theorem commit_is_made_where_begun :
    ∃ c, .called .begin c true ∈
        (begunMoment .willing).news ∧
      .called .commit c true ∈
        (lastMoment .willing (.commit "s")).news := by
  have hSpares : ∀ m ∈ [executedMoment .willing],
      m.Spares 0 := by
    intro m hMem
    rw [List.mem_singleton.mp hMem]
    refine ⟨?_, ?_⟩
    · rintro ⟨name, s, hName, -⟩
      cases hName
    · rintro ⟨name, s, -, -, -, ⟨f, hFail⟩, -⟩
      have hOk : (executedMoment .willing).answer.isOk = true := by
        decide +kernel
      rw [hFail] at hOk
      cases hOk
  have hFinds (m : Moment)
      (hM : (m.before.1.session? "s").map (·.id) = some 0) :
      m.Finds "s" 0 := hM
  rcases operations_run_where_begun oneRepository
    (fun _ => .willing) _ _ _ _ _ _ "s" 0
    (trace_last .willing (.commit "s")) rfl
    (hFinds _ (by decide +kernel)) (by decide +kernel)
    hSpares with ⟨c, hBegun, -, hCommitted⟩
  refine ⟨c, hBegun, hCommitted "s" rfl ?_ ?_⟩
  · exact hFinds _ (by decide +kernel)
  · decide +kernel

/- An engine whose first reply comes too late. -/
def tardy : Backend :=
  { Backend.willing with
    fetch := fun n _ =>
      ⟨if n = 0 then 31000 else 0, some (.ok Backend.oneRow)⟩ }

/- The connections on which transactions have begun. -/
def beginsOf (log : List Event) : List Connection :=
  log.filterMap fun
    | .called .begin c true => some c
    | _ => none

theorem mem_beginsOf
    {c : Connection}
    {log : List Event}
    (h : .called .begin c true ∈ log) : c ∈ beginsOf log :=
  List.mem_filterMap.mpr ⟨_, h, rfl⟩

/-
  After an operation that was out of time the next one is not
  where the transaction began, if failures are left out of
  account.
-/
theorem operation_runs_elsewhere_after_timeout :
    ¬ ∀ (d : DataAccess) (backend : String → Backend)
      (qs : List Request) (earlier window later : List Moment)
      (first last : Moment) (name : String) (i : Nat),
      trace qs (ofAccess d) (World.initial backend) =
          earlier ++ first :: (window ++ last :: later) →
        first.request = .begin name → first.Finds name i →
        first.answer.isOk = true →
        (∀ m ∈ window, ¬ m.request.Ends m.before.1 i) →
        ∃ c, .called .begin c true ∈ first.news ∧
          (last.Completes i → last.RunsOn i c) ∧
          ∀ name', last.request = .commit name' →
            last.Finds name' i → last.answer.isOk = true →
              .called .commit c true ∈ last.news := by
  intro h
  let q : Request := .execute "s" .nonQuery .bool
  have hFinds (m : Moment)
      (hM : (m.before.1.session? "s").map (·.id) = some 0) :
      m.Finds "s" 0 := hM
  have hWindow : ∀ m ∈ [executedMoment tardy],
      ¬ m.request.Ends m.before.1 0 := by
    intro m hMem
    rw [List.mem_singleton.mp hMem]
    rintro ⟨name, s, hName, -⟩
    cases hName
  rcases h oneRepository (fun _ => tardy) _ _ _ _ _ _ "s" 0
    (trace_last tardy q) rfl (hFinds _ (by decide +kernel))
    (by decide +kernel) hWindow with ⟨c, hBegun, hRuns, -⟩
  have hCompletes : (lastMoment tardy q).Completes 0 :=
    ⟨"s", rfl, hFinds _ (by decide +kernel), by decide +kernel⟩
  rcases hRuns hCompletes with ⟨o, w, t, hOperation, -, hTask, hOn⟩
  have hBegins : beginsOf (begunMoment tardy).news = [⟨0, "a"⟩] := by
    decide +kernel
  have hC : c = ⟨0, "a"⟩ := by
    have hMem := mem_beginsOf hBegun
    rw [hBegins] at hMem
    exact List.mem_singleton.mp hMem
  have hElsewhere :
      ((lastMoment tardy q).request.operation?
        (lastMoment tardy q).before.1
        (lastMoment tardy q).before.2).bind (fun x =>
          (x.2.task? x.1.task).map (·.connection)) =
        some ⟨1, "a"⟩ := by
    decide +kernel
  rw [hOperation] at hElsewhere
  simp only [Option.bind_some, hTask, Option.map_some, hOn, hC] at hElsewhere
  cases hElsewhere

end Workspace

end Failover
