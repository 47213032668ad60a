import Failover.Proofs.Health.Direct

/-
  Attempts compared with the same command in a fresh session:
  they come to the same, lead to the same world, and so record
  the same outcomes.

  Main statements:
    * `Entry.attempt_as_direct`
    * `Entry.attempt_counts`
    * `Entry.attempt_foretold`
-/

namespace Failover

open World (Change callsOf)

------------------------------------------------------------
-- Attempts on sessions
------------------------------------------------------------

namespace DataAccess

/- Giving up on a closed session leaves the world as it is. -/
theorem closeAttempt_leads
    {α : Type}
    {s : Session}
    (w : World)
    (x : Except Failure α)
    (hLink : s.link = .closed)
    (hTransaction : s.inTransaction = false) :
    ∃ s', s'.link = .closed ∧
      Act.Leads (closeAttempt x) s w
        (x.map (·, s.command)) s' w := by
  rcases s with ⟨i, r, n, command, bound, link, mark, disposed⟩
  cases hLink
  cases hTransaction
  cases disposed <;> cases x <;> exact ⟨_, rfl, rfl⟩

/- An attempt on a session, and the command run on it alone. -/
theorem attempt_leads
    {α : Type}
    {s s₁ : Session}
    {w w₁ : World}
    {c : Command}
    {run : Session.Try α}
    {x : Except Failure α}
    (hRun : Act.Leads
      (do Session.setCommand c; run : Session.Try α).run s w x s₁
      w₁)
    (hLink : s₁.link = .closed)
    (hTransaction : s₁.inTransaction = false) :
    ∃ s', s'.link = .closed ∧
      Act.Leads (attempt c run) s w
        (x.map (·, s₁.command)) s' w₁ := by
  rcases Act.exists_leads s w (Session.setCommand c).run with
    ⟨y, s₂, w₂, hBound⟩
  rw [Act.leads_iff, Try.ends_run, Try.ends_bind, ← Try.ends_run,
    hBound.ends_iff] at hRun
  cases y with
  | error f =>
      rcases hRun with ⟨rfl, rfl, rfl⟩
      exact ⟨s₂, hLink, hBound.bind rfl⟩
  | ok _ =>
      have hLast := Act.leads_iff.mpr hRun
      rcases closeAttempt_leads w₁ x hLink hTransaction with
        ⟨s', hClosed, hGivenUp⟩
      exact ⟨s', hClosed, hBound.bind (hLast.bind hGivenUp)⟩

end DataAccess

namespace Entry

/- Starting a reader and reading its rows are one run. -/
theorem run_reader
    (c : Command) :
    (do Session.setCommand c; run .reader : Session.Try Reader) =
      (do
        let o ← DataAccess.startReader c
        let outcome ← Session.completeRows o
        return (← get).reader o.context outcome) := by
  simp only [run, DataAccess.startReader, bind_assoc]

theorem attemptReader_leads
    {d : DataAccess}
    {c : Command}
    {r : Repository}
    {s₁ : Session}
    {w w₁ : World}
    {x : Except Failure Reader}
    (hRun : Act.Leads
      (do Session.setCommand c; run .reader : Session.Try Reader).run
      (d.newSession r w) (DataAccess.afterNew w) x s₁ w₁)
    (hLeaves : Leaves .reader r.name x s₁) :
    ∃ y, Effect.Leads (d.attemptReaderOn c r) w y w₁ ∧
      y.map (gained .reader) = x.map (·, s₁.command) := by
  have hMade := d.sessionOn_leads r w
  rw [run_reader] at hRun
  rcases Act.exists_leads (d.newSession r w)
    (DataAccess.afterNew w) (DataAccess.startReader c).run with
    ⟨z, s₂, w₂, hStarted⟩
  rw [Act.leads_iff, Try.ends_run, Try.ends_bind, ← Try.ends_run,
    hStarted.ends_iff] at hRun
  cases z with
  | error f =>
      rcases hRun with ⟨rfl, rfl, rfl⟩
      have hDropped := Session.drop_leads w₂ (hLeaves.closed rfl)
      refine ⟨.error f, hMade.bind ?_, rfl⟩
      exact Effect.Leads.bind hStarted (hDropped.bind rfl)
  | ok o =>
      rcases Act.exists_leads s₂ w₂ (Session.completeRows o).run
        with ⟨z, s₃, w₃, hRows⟩
      simp only at hRun
      rw [Try.ends_bind, ← Try.ends_run, hRows.ends_iff] at hRun
      cases z with
      | error f =>
          rcases hRun with ⟨rfl, rfl, rfl⟩
          have hDropped := Session.drop_leads w₃ (hLeaves.closed rfl)
          have hOpened : Effect.Leads (s₂.openReader o) w₂
              (.error f, s₃) w₃ :=
            Effect.Leads.bind hRows rfl
          refine ⟨.error f, hMade.bind ?_, rfl⟩
          exact Effect.Leads.bind hStarted
            (hOpened.bind (hDropped.bind rfl))
      | ok outcome =>
          rcases hRun with ⟨rfl, rfl, rfl⟩
          have hOpened : Effect.Leads (s₂.openReader o) w₂
              (.ok (s₃.reader o.context outcome), s₃) w₃ :=
            Effect.Leads.bind hRows rfl
          refine ⟨.ok _, hMade.bind ?_, rfl⟩
          exact Effect.Leads.bind hStarted (hOpened.bind rfl)

/-
  An attempt has the result of the command that is run in a
  fresh session, and leads to the same world.
-/
theorem attempt_as_direct
    (d : DataAccess)
    (c : Command)
    (e : Entry)
    (r : Repository)
    (w : World) :
    ∃ x w', Effect.Leads (e.attempt d c r) w x w' ∧
      Effect.Leads (e.direct d c r) w (x.map e.gained) w' := by
  have hMade := d.sessionOn_leads r w
  have hRan := e.run_ran (s := d.newSession r w) c
    (DataAccess.afterNew w) rfl rfl rfl
  rcases Act.exists_leads (d.newSession r w)
    (DataAccess.afterNew w)
    (do Session.setCommand c; e.run : Session.Try e.Output).run with
    ⟨x, s₁, w₁, hLeads⟩
  rw [← Try.ends_run, hLeads.ends_iff] at hRan
  have hLeaves := hRan.toLeaves
  have hDirect : Effect.Leads (e.direct d c r) w
      (x.map (·, s₁.command)) w₁ :=
    hMade.bind (Effect.Leads.bind hLeads rfl)
  have hGained (y : Except Failure e.Gain)
      (hAttempt : Effect.Leads (e.attempt d c r) w y w₁)
      (hSame : y.map e.gained = x.map (·, s₁.command)) :
      ∃ x w', Effect.Leads (e.attempt d c r) w x w' ∧
        Effect.Leads (e.direct d c r) w (x.map e.gained) w' :=
    ⟨y, w₁, hAttempt, hSame ▸ hDirect⟩
  cases e with
  | reader =>
      rcases attemptReader_leads hLeads hLeaves with
        ⟨y, hAttempt, hSame⟩
      exact hGained y hAttempt hSame
  | scalar t =>
      rcases DataAccess.attempt_leads hLeads (hLeaves.closed rfl)
        hLeaves.transaction with ⟨s', hClosed, hAttempt⟩
      refine hGained _ (hMade.bind (Effect.Leads.bind hAttempt
        ((Session.drop_leads w₁ hClosed).bind rfl))) ?_
      cases x <;> rfl
  | nonQuery =>
      rcases DataAccess.attempt_leads hLeads (hLeaves.closed rfl)
        hLeaves.transaction with ⟨s', hClosed, hAttempt⟩
      refine hGained _ (hMade.bind (Effect.Leads.bind hAttempt
        ((Session.drop_leads w₁ hClosed).bind rfl))) ?_
      cases x <;> rfl

------------------------------------------------------------
-- What attempts record
------------------------------------------------------------

variable {d : DataAccess} {c : Command} {e : Entry}
variable {r : Repository} {w w' : World}

theorem records_failure
    (e : Entry)
    (name : String) : e.records name false = [(name, false)] := by
  cases e <;> rfl

/- An attempt records one outcome, that of the command. -/
theorem attempt_counts
    {x : Except Failure e.Gain}
    (hAttempt : Effect.Leads (e.attempt d c r) w x w') :
    Effect.Leads (e.direct d c r) w (x.map e.gained) w' ∧
    Change (callsOf r.name) (e.records r.name x.isOk) w w' := by
  rcases attempt_as_direct d c e r w with
    ⟨y, v, hAgain, hDirect⟩
  cases hAttempt.symm.trans hAgain
  have hCounts := (hDirect.ends_iff _).mp
    (direct_counts d c e r w)
  have hSame : (x.map e.gained).isOk = x.isOk := by
    cases x <;> rfl
  rw [← hSame]
  exact ⟨hDirect, hCounts.1⟩

/-
  An attempt comes to what is foretold of it, if nothing else
  goes on.
-/
theorem attempt_foretold
    (d : DataAccess)
    (c : Command)
    (e : Entry)
    (r : Repository)
    (hQuiet : w.IsQuiet) :
    ∃ x w', Effect.Leads (e.attempt d c r) w x w' ∧
      x.map (fun gain => e.seen (e.gained gain)) =
        e.foretold r d.defaultTimeout c w := by
  rcases attempt_as_direct d c e r w with
    ⟨x, w', hAttempt, hDirect⟩
  have hCounts := (hDirect.ends_iff _).mp
    (direct_counts d c e r w)
  refine ⟨x, w', hAttempt, ?_⟩
  rw [← hCounts.2.2 hQuiet]
  cases x <;> rfl

end Entry

end Failover
