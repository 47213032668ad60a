import Failover.Proofs.Access.AtMostOnce
import Failover.Proofs.Access.Exchanges
import Failover.Proofs.Command.Outputs

/-
  The command of a caller after it was run on a cluster.  It is
  as it was if that failed.  Else the last attempt succeeded,
  and the outputs have the values that were reported in it.

  Key definitions include:
    * `Attempted.exchanges`

  Main statements:
    * `DataAccess.recording_isRun`
    * `Workspace.run_returns_outputs`
-/

namespace Failover

open Scene (Known)

/- What was sent on the connection of an attempt. -/
def Attempted.exchanges (m : Attempted) : List Exchange :=
  Failover.exchanges m.before.backend m.connection m.after.log

------------------------------------------------------------
-- Attempts
------------------------------------------------------------

namespace DataAccess

variable {ss : List Session} {os : List Operation} {w : World}

/- Each attempt of a command is a run of the command. -/
theorem recording_isRun
    (d : DataAccess)
    (cluster : String)
    (c : Command)
    (e : Entry)
    (hKnown : Known ⟨ss, os, w.ledger⟩) :
    Act.Ends (d.recording cluster c e) [] w fun x trail _ =>
      (∀ m ∈ trail, m.member.provider.SendsOnly c m.exchanges) ∧
      ∀ gain, x = .ok gain → ∃ earlier m o,
        trail = earlier ++ [m] ∧
        (∀ y ∈ earlier, y.failure? ≠ none) ∧ m.failure? = none ∧
        m.member.provider.Reports c m.exchanges o ∧
        (e.gained gain).2 = some (c.storeOutputs o) := by
  refine (routed_follows (fun w => Known ⟨ss, os, w.ledger⟩)
    (fun r w x w' => c.IsRun r.provider
      (exchanges w.backend (w.ledger.nextConnection r) w'.log)
      (x.map fun gain => (e.gained gain).2))
    d cluster c (e.attempt d c) ?_ ?_ ?_ hKnown).mono ?_
  · intro r w hW
    refine ((attempt_steps d c e r w).and
      (e.attempt_isRun d c r hW)).mono ?_
    rintro x w' ⟨hSteps, hRun⟩
    exact ⟨fun f hFail => hW.steps ((hSteps f hFail).frame ss os),
      hRun⟩
  · intro k w hW
    exact (rank_ledger k w).mono fun _ _ hLedger => hLedger ▸ hW
  · intro p r w hW
    refine (reportTo_makes p r false w 0 (Nat.zero_le _)).mono ?_
    exact fun _ w' hSteps => hW.steps (hSteps.frame ss os)
  · rintro x trail _ ⟨hFits, hWins, -⟩
    constructor
    · intro m hMem
      rcases hFits m hMem with ⟨y, -, hRun⟩
      exact hRun.sent
    · intro gain hOk
      rcases hWins gain hOk with
        ⟨earlier, m, hTrail, hFailed, hLast, hRun⟩
      rcases hRun.stored _ rfl with ⟨o, hReports, hStored⟩
      exact ⟨earlier, m, o, hTrail, hFailed, hLast, hReports,
        hStored⟩

end DataAccess

namespace Workspace

/-
  After any requests, and for all ways to run a command on a
  cluster: every attempt sends the command as the caller gave
  it.  The command is left alone if all of them fail.  Else it
  takes the output values that the engine has reported in the
  attempt that succeeded, and nothing else.
-/
theorem run_returns_outputs
    (d : DataAccess)
    (backend : String → Backend)
    (qs : List Request)
    (cluster : String)
    (c : Command)
    (e : Entry) :
    Act.Ends (run qs) (ofAccess d) (World.initial backend)
      fun _ _ w =>
        Effect.Ends (e.execute d cluster c) w fun x _ =>
          (∀ m ∈ d.trail cluster c e w,
            m.member.provider.SendsOnly c m.exchanges) ∧
          (∀ f, x.1 = .error f → x.2 = c) ∧
          ∀ a, x.1 = .ok a → ∃ earlier m o,
            d.trail cluster c e w = earlier ++ [m] ∧
            (∀ y ∈ earlier, y.failure? ≠ none) ∧
            m.failure? = none ∧
            m.member.provider.Reports c m.exchanges o ∧
            x.2.IsLater c ∧ (c.IsNamed → x.2.Receives o c) := by
  refine (run_follows qs (ofAccess d) (World.initial backend)
    (tidy_ofAccess d)).mono ?_
  intro _ ws w hFollows
  have hKnown := (Known.initial backend).steps hFollows.steps
  rw [← DataAccess.recording_returned]
  refine (DataAccess.ends_trail
    (DataAccess.recording_isRun d cluster c e hKnown)).mono ?_
  rintro x - w' ⟨hSends, hRuns⟩
  refine ⟨hSends, ?_⟩
  cases x with
  | error f => exact ⟨fun _ _ => rfl, nofun⟩
  | ok gain =>
      refine ⟨nofun, fun a _ => ?_⟩
      rcases hRuns gain rfl with
        ⟨earlier, m, o, hTrail, hFailed, hLast, hReports, hStored⟩
      refine ⟨earlier, m, o, hTrail, hFailed, hLast, hReports, ?_⟩
      have hCopied : (e.returned c (.ok gain)).2 =
          c.copyOutputs (c.storeOutputs o) := by
        rw [Entry.returned, hStored]
        rfl
      rw [hCopied]
      refine ⟨(Command.IsLater.refl c).storeOutputs _, ?_⟩
      intro hNamed
      rw [Command.copyOutputs_storeOutputs hNamed]
      exact c.storeOutputs_receives o

/- The first engine reports a value and fails nevertheless. -/
def failingWithSeven (repository : String) : Backend :=
  let reporting (n : Int64) (f : Option Failure) : Backend :=
    { Backend.willing with
      fetch := fun _ _ =>
        ⟨0, some (.ok
          ⟨[⟨[], [[.int n]], none⟩, ⟨[], [], f⟩], 0, .empty⟩)⟩ }
  if repository = "a" then
    reporting 7 (some (.ofDriver "a" .executing .poolClosed))
  else reporting 5 none

/- Its value does not come back, but that of the second one. -/
example :
    Effect.Ends
      (pairAccess.executeNonQuery "pair"
        ((Command.ofText .procedure "count").add
          (.make "n" .output .int .null)))
      (World.initial failingWithSeven) fun x _ =>
        (x.2.parameters.map fun p =>
          match p.value with
          | .int n => some n
          | _ => none) = [some 5] := by
  unfold Effect.Ends
  decide +kernel

end Workspace

end Failover
