import Failover.Access.Execute
import Failover.Proofs.Scene.Operation

/-
  Readers, and commands on clusters, as steps of a scene.  A
  command on a cluster makes sessions of its own, of which
  only that of a reader is left.

  Key definitions include:
    * `Scene.Makes`

  Main statements:
    * `Reader.release_goes`, `Reader.pull_goes`
    * `Cluster.execute_makes`
    * `DataAccess.execute_makes`
    * `DataAccess.executeReader_makes`
-/

namespace Failover

------------------------------------------------------------
-- Readers
------------------------------------------------------------

namespace Reader

open Session (Goes)

/- No transaction ends by what a reader does. -/
def Follows
    (r : Reader)
    (w : World)
    (r' : Reader)
    (w' : World) : Prop :=
  Goes (fun _ => False) r.session w r'.session w'

variable (r : Reader) (w : World)

/- What a session does is seen of its reader. -/
@[simp] theorem ends_onSession
    {α : Type}
    (act : Session.Act α)
    (Q : α → Reader → World → Prop) :
    Act.Ends (onSession act) r w Q ↔
      Act.Ends act r.session w fun a s w' =>
        Q a { r with session := s } w' :=
  Iff.rfl

/- A reader that moves on is followed by its session. -/
theorem move_goes
    (complaint : String)
    (how : Cursor → Cursor.Moved) :
    Act.Ends (move complaint how) r w fun _ r' w' =>
      r.Follows w r' w' := by
  unfold move
  rw [Act.ends_bind, Act.ends_get]
  split
  · exact Goes.refl _ _
  · simp only [Act.ends_bind, Act.ends_set]
    split
    · exact Goes.around (.single (.noted _ rfl))
    · exact Goes.refl _ _

/- No transaction ends when a reader is released. -/
theorem release_goes :
    Act.Ends release r w fun _ r' w' => r.Follows w r' w' := by
  unfold release
  rw [Act.ends_bind, Act.ends_get]
  split
  · rw [Act.ends_bind, Act.ends_set, ends_onSession]
    refine (Session.settle_goes r.session w _ _ _).mono ?_
    exact fun _ _ _ h => h.1
  · exact Goes.refl _ _

/- No transaction ends when a row is pulled. -/
theorem pull_goes
    {α : Type}
    (map : Reader → Except Failure α) :
    Act.Ends (pull map) r w fun _ r' w' => r.Follows w r' w' := by
  unfold pull
  rw [Act.ends_bind, Act.ends_get]
  split
  · exact Goes.refl _ _
  refine (move_goes r w _ _).bind ?_
  intro hasMore r₁ w₁ hMoved
  cases hasMore with
  | false =>
      refine (release_goes r₁ w₁).bind ?_
      intro _ r' w' hReleased
      exact hMoved.trans hReleased
  | true =>
      simp only [↓reduceIte, Act.ends_bind, Act.ends_get]
      split
      · exact hMoved
      · next f _ =>
        rw [Act.ends_bind, Act.ends_modify]
        refine (release_goes (r₁.failWith f.message) w₁).bind ?_
        intro _ r' w' hReleased
        exact hMoved.trans hReleased

end Reader

------------------------------------------------------------
-- Sessions that are made on the way
------------------------------------------------------------

namespace Scene

/-
  Something that makes sessions and leaves some of them to
  its result.  The transactions of others are not touched.
-/
def Makes
    {α : Type}
    (e : Effect α)
    (left : α → List Session) : Prop :=
  ∀ w base, base ≤ w.sessions →
    Effect.Ends e w fun a w' =>
      Steps (base ≤ ·) ⟨[], [], w.ledger⟩ ⟨left a, [], w'.ledger⟩

namespace Makes

variable {α β : Type}

/- A value by itself leaves no session behind. -/
theorem pure
    {left : α → List Session}
    {a : α}
    (hLeft : left a = []) :
    Makes (Pure.pure a) left := by
  intro w base _
  change Steps _ _ ⟨left a, _, _⟩
  rw [hLeft]
  exact .refl

/-
  The sessions that the first part leaves are there in the
  second part.
-/
theorem bind
    {e : Effect α}
    {f : α → Effect β}
    {left₁ : α → List Session}
    {left : β → List Session}
    (h₁ : Makes e left₁)
    (h : ∀ a w base, base ≤ w.sessions →
      Effect.Ends (f a) w fun b w' =>
        Steps (base ≤ ·) ⟨left₁ a, [], w.ledger⟩
          ⟨left b, [], w'.ledger⟩) :
    Makes (e >>= f) left := by
  intro w base hBase
  refine (h₁ w base hBase).bind ?_
  intro a w₁ hSteps₁
  have hLe : base ≤ w₁.sessions :=
    Nat.le_trans hBase hSteps₁.sessions_le
  refine (h a w₁ base hLe).mono ?_
  intro b w' hSteps
  exact hSteps₁.trans hSteps

/- An event aside leaves no session. -/
theorem noted
    {e : Event}
    (hAside : e.isAside = true) :
    Makes (World.note e) fun _ => [] := by
  intro w base _
  exact .single (.around (.noted e hAside))

end Makes

end Scene

namespace Cluster

open Scene (Makes)

variable {α : Type}

def Trial.left
    (left : α → List Session) : Trial α → List Session
  | .succeeded a => left a
  | _ => []

/- What is left to a result, if it is no failure. -/
def leftOf
    (left : α → List Session) :
    Except Failure α → List Session
  | .ok a => left a
  | .error _ => []

/- The induction is on the members that are left to try. -/
theorem tryEach_makes
    {left : α → List Session}
    (t : Trier Effect α)
    (hAttempt : ∀ r, Makes (t.attempt r) (leftOf left))
    (hReport : ∀ r ok, Makes (t.report r ok) fun _ => [])
    (history : List Attempt)
    (members : List Repository) :
    Makes (tryEach t history members) (Trial.left left) := by
  induction members generalizing history with
  | nil => exact .pure rfl
  | cons member rest ih =>
      unfold tryEach
      refine (hAttempt member).bind ?_
      intro x w base hBase
      cases x with
      | ok a =>
          refine (hReport member true w base hBase).bind ?_
          intro _ w' hSteps
          exact hSteps.frame (left a) []
      | error f =>
          refine Makes.bind (hReport member false) ?_ w base hBase
          intro _ w₁ base hBase
          simp only
          split
          · exact ih _ w₁ base hBase
          · exact .refl

/- A cluster leaves what its last attempt leaves. -/
theorem execute_makes
    {left : α → List Session}
    (k : Cluster)
    (c : Command)
    (ranked : List Repository)
    (attempt : Repository → Effect (Except Failure α))
    (report : Repository → Bool → Effect Unit)
    (hAttempt : ∀ r, Makes (attempt r) (leftOf left))
    (hReport : ∀ r ok, Makes (report r ok) fun _ => []) :
    Makes (k.execute c ranked attempt report)
      (leftOf left) := by
  unfold execute
  refine (tryEach_makes _ hAttempt hReport [] ranked).bind ?_
  intro x w base _
  cases x with
  | succeeded a => exact .refl
  | untried => exact .refl
  | failed last history =>
      change Scene.Steps _ ⟨[], [], _⟩
        ⟨leftOf left (if _ then _ else _), [], _⟩
      split <;> exact .refl

end Cluster

------------------------------------------------------------
-- Commands on clusters
------------------------------------------------------------

namespace DataAccess

open Cluster (leftOf)
open Scene (Makes)
open Session (Goes)

variable {α : Type}

/- A command that is run on a session keeps to the session. -/
def Runs (run : Session.Try α) : Prop :=
  ∀ s w, Try.Ends run s w fun r s' w' =>
    s'.id = s.id ∧ s'.repository = s.repository ∧
      Scene.Steps (Session.Lost s' r) ⟨[s], [], w.ledger⟩
        ⟨[s'], [], w'.ledger⟩

/- A command that is run without rows keeps to its session. -/
theorem runs_nonQuery : Runs Session.executeNonQuery := by
  intro s w
  exact Session.run_ends s w .nonQuery _
    fun o s w => Session.completeNonQuery_ends s w o

/- A query for a single value keeps to its session. -/
theorem runs_scalar (t : Target) :
    Runs (Session.executeScalar t) := by
  intro s w
  exact Session.run_ends s w .scalar _
    fun o s w => Session.completeScalar_ends s w o t

/- A new session has the next number and no connection. -/
theorem make_steps
    (r : Repository)
    (defaultTimeout : Nat)
    (w : World) :
    Effect.Ends (Session.make r defaultTimeout) w fun s w' =>
      s.id = w.sessions ∧ s.link = .closed ∧
        ∀ may, Scene.Steps may ⟨[], [], w.ledger⟩
          ⟨[s], [], w'.ledger⟩ :=
  ⟨rfl, rfl, fun _ => .single (.made r defaultTimeout)⟩

/- The end of an attempt ends its session. -/
theorem closeAttempt_goes
    (s : Session)
    (w : World)
    (result : Except Failure α) :
    Act.Ends (closeAttempt result) s w fun _ s' w' =>
      Goes (· = s.id) s w s' w' := by
  unfold closeAttempt
  refine (Session.takeCommand_goes (· = s.id) s w).bind ?_
  rintro command s₁ w₁ ⟨hGoes₁, -⟩
  rw [Act.ends_bind, Try.ends_run]
  refine (Session.dispose_goes (· = s.id) s₁ w₁
    fun _ => hGoes₁.id).mono ?_
  intro disposed s₂ w₂ hGoes₂
  have hGoes := hGoes₁.trans hGoes₂
  cases result with
  | error f => exact hGoes
  | ok a =>
      cases disposed with
      | ok _ => exact hGoes
      | error f =>
          exact hGoes.trans (.around (.single (.noted _ rfl)))

/- An attempt is carried out by its own session. -/
theorem attempt_goes
    (s : Session)
    (w : World)
    (c : Command)
    {run : Session.Try α}
    (hRun : Runs run) :
    Act.Ends (attempt c run) s w fun _ s' w' =>
      Goes (· = s.id) s w s' w' := by
  unfold attempt
  rw [Act.ends_bind, Try.ends_run]
  refine (Session.setCommand_goes (· = s.id) s w c).mono ?_
  rintro bound s₁ w₁ ⟨hGoes₁, -⟩
  cases bound with
  | error f => exact hGoes₁
  | ok _ =>
      simp only
      rw [Act.ends_bind, Try.ends_run]
      refine (hRun s₁ w₁).mono ?_
      rintro r s₂ w₂ ⟨hId₂, hRepository₂, hSteps₂⟩
      have hGoes₂ : Goes (· = s.id) s₁ w₁ s₂ w₂ := by
        refine ⟨hId₂, hRepository₂, hSteps₂.mono ?_⟩
        rintro i ⟨rfl, -⟩
        exact hId₂.trans hGoes₁.id
      have hGoes := hGoes₁.trans hGoes₂
      refine (closeAttempt_goes s₂ w₂ r).mono ?_
      intro _ s' w' hGoes₃
      rw [hGoes.id] at hGoes₃
      exact hGoes.trans hGoes₃

/- An attempt on a member leaves no session behind. -/
theorem attemptOn_makes
    (d : DataAccess)
    (c : Command)
    {run : Session.Try α}
    (hRun : Runs run)
    (r : Repository) :
    Makes (d.attemptOn c run r) fun _ => [] := by
  intro w base hBase
  unfold attemptOn
  refine (make_steps r d.defaultTimeout w).bind ?_
  rintro s w₁ ⟨hId, -, hMade⟩
  rw [Effect.ends_bind, Act.ends_run]
  refine (attempt_goes s w₁ c hRun).mono ?_
  intro result s₂ w₂ hGoes
  refine (Session.drop_steps (base ≤ ·) s₂ w₂).bind ?_
  intro _ w' hDropped
  refine (hMade (base ≤ ·)).trans (.trans ?_ hDropped)
  refine hGoes.steps.mono ?_
  rintro i rfl
  exact hId ▸ hBase

/- A reader begins with an operation, or there is a failure. -/
theorem startReader_ends
    (c : Command)
    (s : Session)
    (w : World) :
    Try.Ends (startReader c) s w fun x s' w' =>
      (∃ o, x = .ok o ∧ s'.id = s.id ∧
        Scene.Steps (fun _ => False) ⟨[s], [], w.ledger⟩
          ⟨[s'], [o], w'.ledger⟩) ∨
      (∃ f, x = .error f ∧ Goes (fun _ => False) s w s' w') := by
  unfold startReader
  rw [Try.ends_bind]
  refine (Session.setCommand_goes (fun _ => False) s w c).mono ?_
  rintro bound s₁ w₁ ⟨hGoes₁, -⟩
  cases bound with
  | error f => exact .inr ⟨f, rfl, hGoes₁⟩
  | ok _ =>
      refine (Session.start_ends (fun _ => False) s₁ w₁
        .reader).mono ?_
      rintro x s' w' (⟨o, rfl, -, -, rfl, -, hSteps⟩ |
        ⟨f, rfl, hGoes, -⟩)
      · exact .inl ⟨o, rfl, hGoes₁.id, hGoes₁.steps.trans hSteps⟩
      · exact .inr ⟨f, rfl, hGoes₁.trans hGoes⟩

/- An attempt that succeeds leaves the reader's session. -/
theorem attemptReaderOn_makes
    (d : DataAccess)
    (c : Command)
    (r : Repository) :
    Makes (d.attemptReaderOn c r)
      (leftOf fun reader => [reader.session]) := by
  intro w base hBase
  unfold attemptReaderOn
  refine (make_steps r d.defaultTimeout w).bind ?_
  rintro s w₁ ⟨hId, -, hMade⟩
  rw [Effect.ends_bind, Act.ends_run, Try.ends_run]
  refine (startReader_ends c s w₁).mono ?_
  rintro x s₂ w₂ (⟨o, rfl, hId₂, hStarted⟩ | ⟨f, rfl, hGoes⟩)
  · have hBefore := (hMade (base ≤ ·)).trans
      (hStarted.mono fun _ h => h.elim)
    simp only
    refine (Session.openReader_ends s₂ w₂ o).bind ?_
    rintro ⟨y, s₃⟩ w₃ ⟨hTakes, hReader⟩
    have hTaken := hBefore.trans (hTakes.steps.mono (by
      rintro i ⟨rfl, -⟩
      exact (hTakes.id.trans (hId₂.trans hId)) ▸ hBase))
    cases y with
    | ok reader =>
        change Scene.Steps _ _ ⟨[reader.session], [], _⟩
        rw [hReader reader rfl]
        exact hTaken
    | error f =>
        refine (Session.drop_steps (base ≤ ·) s₃ w₃).bind ?_
        intro _ w' hDropped
        exact hTaken.trans hDropped
  · refine (Session.drop_steps (base ≤ ·) s₂ w₂).bind ?_
    intro _ w' hDropped
    refine (hMade (base ≤ ·)).trans (.trans ?_ hDropped)
    exact hGoes.steps.mono fun _ h => h.elim

/- Ranking does not touch connections. -/
theorem rank_ledger
    (k : Cluster)
    (w : World) :
    Effect.Ends (World.rank k) w fun _ w' =>
      w'.ledger = w.ledger := by
  unfold World.rank
  cases k.available with
  | error f => rfl
  | ok _ => rfl

/- A policy that is told leaves nothing behind. -/
theorem reportTo_makes
    (p : Policy)
    (r : Repository)
    (ok : Bool) :
    Makes (reportTo p r ok) fun _ => [] := by
  unfold reportTo
  split
  · exact .noted rfl
  · exact .pure rfl

/- A command on a cluster leaves what an attempt leaves. -/
theorem routed_makes
    {left : α → List Session}
    (d : DataAccess)
    (cluster : String)
    (c : Command)
    (attempt : Repository → Effect (Except Failure α))
    (hAttempt : ∀ r, Makes (attempt r) (leftOf left)) :
    Makes (d.routed cluster c attempt) (leftOf left) := by
  intro w base hBase
  unfold routed
  cases d.cluster cluster with
  | error f => exact .refl
  | ok k =>
      refine (rank_ledger k w).bind ?_
      intro ranked w₁ hLedger
      rw [← hLedger]
      cases ranked with
      | error f => exact .refl
      | ok ranked =>
          have hSessions : w₁.sessions = w.sessions :=
            congrArg Ledger.sessions hLedger
          exact Cluster.execute_makes k c ranked attempt
            (reportTo k.policy) hAttempt (reportTo_makes k.policy)
            w₁ base (hSessions ▸ hBase)

/- No session is left of an operation on a cluster. -/
theorem execute_makes
    (d : DataAccess)
    (cluster : String)
    (c : Command)
    {run : Session.Try α}
    (hRun : Runs run) :
    Makes (d.execute cluster c run) fun _ => [] := by
  have hAttempt (r : Repository) :
      Makes (d.attemptOn c run r) (leftOf fun _ => []) := by
    intro w base hBase
    refine (attemptOn_makes d c hRun r w base hBase).mono ?_
    intro x w' hSteps
    cases x <;> exact hSteps
  unfold execute
  refine (routed_makes d cluster c _ hAttempt).bind ?_
  intro x w base _
  cases x <;> exact .refl

/- The session of the reader is left. -/
theorem executeReader_makes
    (d : DataAccess)
    (cluster : String)
    (c : Command) :
    Makes (d.executeReader cluster c)
      fun x => leftOf (fun reader => [reader.session]) x.1 := by
  unfold executeReader
  refine (routed_makes d cluster c _
    (attemptReaderOn_makes d c)).bind ?_
  intro x w base _
  cases x <;> exact .refl

/- A session that is asked for is there alone. -/
theorem openSession_makes
    (d : DataAccess)
    (cluster : String) :
    Makes (d.openSession cluster) (leftOf fun s => [s]) := by
  intro w base _
  unfold openSession
  cases d.cluster cluster with
  | error f => exact .refl
  | ok k =>
      refine (rank_ledger k w).bind ?_
      intro ranked w₁ hLedger
      rw [← hLedger]
      rcases ranked with f | _ | ⟨r, _⟩
      · exact .refl
      · exact .refl
      · exact (make_steps r d.defaultTimeout w₁).2.2 _

/-
  Opening a session on one repository leaves this session
  behind, if it succeeds.
-/
theorem openRepositorySession_makes
    (d : DataAccess)
    (name : String) :
    Makes (d.openRepositorySession name)
      (leftOf fun s => [s]) := by
  intro w base _
  unfold openRepositorySession
  cases d.repository name with
  | error f => exact .refl
  | ok r => exact (make_steps r d.defaultTimeout w).2.2 _

/- Pools are closed without a session. -/
theorem shutDown_makes (d : DataAccess) :
    Makes d.shutDown fun _ => [] := by
  unfold shutDown
  induction d.sortedRepositories with
  | nil => exact .pure rfl
  | cons r rs ih =>
      change Makes (World.note _ >>= fun _ => rs.forM _) _
      exact (Makes.noted rfl).bind fun _ => ih

end DataAccess

end Failover
