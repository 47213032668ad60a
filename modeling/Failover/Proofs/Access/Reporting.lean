import Failover.Proofs.Reader.Reporting

/-
  A command on a cluster reports each failure that is counted
  in its attempts, whatever the policy makes of it.  A reader
  that it gives has nothing left to count.

  Key definitions include:
    * `Effect.Fine`, `Effect.Yields`

  Main statements:
    * `Cluster.execute_yields`
    * `DataAccess.execute_candid`
    * `DataAccess.executeReader_yields`
-/

namespace Failover

open World (Candid Silent)

------------------------------------------------------------
-- Results
------------------------------------------------------------

namespace Effect

variable {α β : Type}

/- A result that is no failure is as it should be. -/
def Fine
    (P : α → Prop) : Except Failure α → Prop
  | .ok a => P a
  | .error _ => True

/-
  Nothing is counted that is not reported, and the result is
  as it should be.
-/
def Yields
    (P : α → Prop)
    (e : Effect α) : Prop :=
  ∀ w, Ends e w fun a w' => w.Candid w' ∧ P a

namespace Yields

variable {P : α → Prop} {Q : β → Prop}

/- A result that is there counts nothing. -/
theorem pure
    {a : α}
    (h : P a) : Yields P (Pure.pure a) :=
  fun w => ⟨.refl w, h⟩

/- A second effect may rely on what the first one yields. -/
theorem bind
    {e : Effect α}
    {f : α → Effect β}
    (h : Yields P e)
    (hNext : ∀ a, P a → Yields Q (f a)) : Yields Q (e >>= f) := by
  intro w
  refine (h w).bind fun a w₁ hFirst => ?_
  refine (hNext a hFirst.2 w₁).mono fun b w' hLast => ?_
  exact ⟨hFirst.1.trans hLast.1, hLast.2⟩

/-
  An effect that reports what it counts does so with any
  result.
-/
theorem of_keeps
    {e : Effect α}
    (h : Keeps Candid e) : Yields (fun _ => True) e :=
  fun w => (h w).mono fun _ _ hCandid => ⟨hCandid, trivial⟩

end Yields

/- An effect that counts nothing reports what it counts. -/
theorem Keeps.candid
    {e : Effect α}
    (h : Keeps Silent e) : Keeps Candid e :=
  h.mono fun _ _ => Silent.accounts

end Effect

open Effect (Fine Yields)

------------------------------------------------------------
-- Routing
------------------------------------------------------------

namespace Cluster

variable {α : Type} {P : α → Prop}

/- What an attempt gives is as it should be. -/
def Trial.Fine
    (P : α → Prop) : Trial α → Prop
  | .succeeded a => P a
  | _ => True

/- The induction is on the members that are left to try. -/
theorem tryEach_yields
    (t : Trier Effect α)
    (hAttempt : ∀ r, Yields (Effect.Fine P) (t.attempt r))
    (hReport : ∀ r ok, Effect.Keeps Candid (t.report r ok))
    (history : List Attempt)
    (members : List Repository) :
    Yields (Trial.Fine P) (tryEach t history members) := by
  induction members generalizing history with
  | nil => exact .pure trivial
  | cons member rest ih =>
      unfold tryEach
      refine (hAttempt member).bind fun x hFine => ?_
      cases x with
      | ok a =>
          refine (Yields.of_keeps (hReport member true)).bind ?_
          exact fun _ _ => .pure hFine
      | error f =>
          refine (Yields.of_keeps (hReport member false)).bind ?_
          intro _ _
          simp only
          split
          · exact ih _
          · exact .pure trivial

/-
  A cluster reports what it counts if each of its attempts
  does.
-/
theorem execute_yields
    (k : Cluster)
    (c : Command)
    (ranked : List Repository)
    (attempt : Repository → Effect (Except Failure α))
    (report : Repository → Bool → Effect Unit)
    (hAttempt : ∀ r, Yields (Effect.Fine P) (attempt r))
    (hReport : ∀ r ok, Effect.Keeps Candid (report r ok)) :
    Yields (Effect.Fine P)
      (k.execute c ranked attempt report) := by
  unfold execute
  refine (tryEach_yields _ hAttempt hReport [] ranked).bind ?_
  intro x hFine
  cases x with
  | succeeded a => exact .pure hFine
  | untried => exact .pure trivial
  | failed last history =>
      refine .pure ?_
      unfold conclude
      simp only
      split <;> exact trivial

end Cluster

------------------------------------------------------------
-- Attempts
------------------------------------------------------------

/- A new session has nothing to tell. -/
theorem Session.make_silent
    (r : Repository)
    (defaultTimeout : Nat) :
    Effect.Keeps Silent (Session.make r defaultTimeout) :=
  fun _ => .same rfl rfl

/-
  An act that keeps a relation with each session keeps it when
  it is run with one.
-/
theorem Session.Keeps.run
    {α : Type}
    {R : World → World → Prop}
    {act : Session.Act α}
    (h : Session.Keeps R act)
    (s : Session) : Effect.Keeps R (act.run s) :=
  fun w => (h s w).mono fun _ _ _ hStays => hStays.2

/- A reader that is opened has nothing to count. -/
theorem Session.openReader_yields
    (s : Session)
    (o : Operation) :
    Yields (fun x => Fine (fun r => r.uncounted = []) x.1)
      (s.openReader o) := by
  unfold openReader
  refine (Yields.of_keeps ((completeRows_candid o).run s)).bind ?_
  rintro ⟨x, s₁⟩ _
  cases x with
  | error f => exact .pure trivial
  | ok outcome => exact .pure rfl

namespace DataAccess

variable {α : Type}

/- An attempt reports what its run reports. -/
theorem attempt_candid
    (c : Command)
    {run : Session.Try α}
    (hRun : Session.Keeps Candid run.run) :
    Session.Keeps Candid (attempt c run) := by
  have hClose (result : Except Failure α) :
      Session.Keeps Candid (closeAttempt result) := by
    unfold closeAttempt
    refine Session.takeCommand_candid.bind fun executed => ?_
    refine Session.dispose_candid.bind fun disposed => ?_
    cases result with
    | error f => exact .pure _
    | ok a =>
        cases disposed with
        | ok _ => exact .pure _
        | error f =>
            refine .bind ?_ fun _ => .pure _
            exact Session.report_candid f (by decide)
  unfold attempt
  refine (Session.setCommand_candid c).bind fun bound => ?_
  cases bound with
  | error f => exact .pure _
  | ok _ => exact hRun.bind fun result => hClose result

/-
  An attempt in a session of its own counts no failure that it
  does not report, if its run counts none.
-/
theorem attemptOn_candid
    (d : DataAccess)
    (c : Command)
    {run : Session.Try α}
    (hRun : Session.Keeps Candid run.run)
    (r : Repository) : Effect.Keeps Candid (d.attemptOn c run r) := by
  unfold attemptOn sessionOn
  refine (Session.make_silent r d.defaultTimeout).candid.bind ?_
  intro s
  refine ((attempt_candid c hRun).run s).bind fun x => ?_
  exact x.2.drop_silent.candid.bind fun _ => .pure _

/- A reader that is given has nothing to count. -/
theorem attemptReaderOn_yields
    (d : DataAccess)
    (c : Command)
    (r : Repository) :
    Yields (Fine fun a => a.uncounted = [])
      (d.attemptReaderOn c r) := by
  have hStart : Session.Keeps Candid (startReader c).run :=
    (Session.setCommand_candid c).tryBind
      fun _ => Session.start_candid .reader
  have hDrop (s : Session) (f : Failure) :
      Yields (Fine fun a : Reader => a.uncounted = [])
        (do s.drop; return .error f) :=
    (Yields.of_keeps s.drop_silent.candid).bind
      fun _ _ => .pure trivial
  unfold attemptReaderOn sessionOn
  refine (Yields.of_keeps
    (Session.make_silent r d.defaultTimeout).candid).bind ?_
  intro s _
  refine (Yields.of_keeps (hStart.run s)).bind ?_
  rintro ⟨x, s₁⟩ _
  cases x with
  | error f => exact hDrop s₁ f
  | ok o =>
      refine (s₁.openReader_yields o).bind ?_
      rintro ⟨y, s₂⟩ hFine
      cases y with
      | error f => exact hDrop s₂ f
      | ok a => exact .pure hFine

------------------------------------------------------------
-- Commands on clusters
------------------------------------------------------------

/- A command on a cluster yields what its attempts yield. -/
theorem routed_yields
    {P : α → Prop}
    (d : DataAccess)
    (cluster : String)
    (c : Command)
    (attempt : Repository → Effect (Except Failure α))
    (hAttempt : ∀ r, Yields (Fine P) (attempt r)) :
    Yields (Fine P) (d.routed cluster c attempt) := by
  have hReport (p : Policy) (r : Repository) (ok : Bool) :
      Effect.Keeps Candid (reportTo p r ok) := by
    unfold reportTo
    split
    · exact (World.note_silent rfl).candid
    · exact .pure _
  unfold routed
  cases d.cluster cluster with
  | error f => exact .pure trivial
  | ok k =>
      refine (Yields.of_keeps (World.rank_silent k).candid).bind ?_
      intro ranked _
      cases ranked with
      | error f => exact .pure trivial
      | ok ranked =>
          exact k.execute_yields c ranked attempt
            (reportTo k.policy) hAttempt (hReport k.policy)

/- A command on a cluster reports each failure that it counts. -/
theorem execute_candid
    (d : DataAccess)
    (cluster : String)
    (c : Command)
    {run : Session.Try α}
    (hRun : Session.Keeps Candid run.run) :
    Effect.Keeps Candid (d.execute cluster c run) := by
  have hAttempt (r : Repository) :
      Yields (Fine fun _ => True) (d.attemptOn c run r) :=
    fun w => (attemptOn_candid d c hRun r w).mono
      fun x _ hCandid => ⟨hCandid, by cases x <;> trivial⟩
  intro w
  unfold execute
  refine (d.routed_yields cluster c _ hAttempt w).bind ?_
  rintro x w' ⟨hCandid, -⟩
  cases x <;> exact hCandid

/- A reader of a cluster owes no report. -/
theorem executeReader_yields
    (d : DataAccess)
    (cluster : String)
    (c : Command) :
    Yields (fun x => Fine (fun r => r.uncounted = []) x.1)
      (d.executeReader cluster c) := by
  unfold executeReader
  refine (d.routed_yields cluster c _
    (d.attemptReaderOn_yields c)).bind ?_
  intro x hFine
  cases x with
  | error f => exact .pure trivial
  | ok r => exact .pure hFine

/- Opening a session on a cluster counts no outcome. -/
theorem openSession_silent
    (d : DataAccess)
    (cluster : String) :
    Effect.Keeps Silent (d.openSession cluster) := by
  unfold openSession sessionOn
  cases d.cluster cluster with
  | error f => exact .pure _
  | ok k =>
      refine (World.rank_silent k).bind fun ranked => ?_
      rcases ranked with f | _ | ⟨r, _⟩
      · exact .pure _
      · exact .pure _
      · exact (Session.make_silent r _).bind fun _ => .pure _

/- Opening a session on a repository counts no outcome. -/
theorem openRepositorySession_silent
    (d : DataAccess)
    (name : String) :
    Effect.Keeps Silent (d.openRepositorySession name) := by
  unfold openRepositorySession sessionOn
  cases d.repository name with
  | error f => exact .pure _
  | ok r => exact (Session.make_silent r _).bind fun _ => .pure _

/- Closing the pools counts no outcome. -/
theorem shutDown_silent
    (d : DataAccess) : Effect.Keeps Silent d.shutDown :=
  .forM (fun _ => World.note_silent rfl) d.sortedRepositories

end DataAccess

end Failover
