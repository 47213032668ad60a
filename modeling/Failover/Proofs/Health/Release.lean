import Failover.Proofs.Health.Direct
import Failover.Proofs.Scene.Access

/-
  Readers on sessions of their own: rows are read without any
  record, and the outcome is recorded once, on release.

  Key definitions include:
    * `Reader.Move`, `Reader.useUp`
    * `Entry.useUp`

  Main statements:
    * `Reader.release_counts`
    * `Entry.useUp_counts`
-/

namespace Failover

namespace Reader

variable {name : String} {a : Reader} (w : World)

/- How the cursor of a reader is moved. -/
inductive Move where
  | read
  | nextResult

def Move.act : Move → Act Bool
  | .read => Reader.read
  | .nextResult => Reader.nextResult

/- Reading rows records no outcome. -/
theorem move_pends
    (m : Move)
    (hPends : a.Pends name) :
    Act.Ends m.act a w fun _ a' w' =>
      a'.Pends name ∧ w'.tallies = w.tallies := by
  have hMove (complaint : String) (how : Cursor → Cursor.Moved) :
      Act.Ends (move complaint how) a w fun _ a' w' =>
        a'.Pends name ∧ w'.tallies = w.tallies := by
    have hMoved : Pends name
        { a with
          cursor := (how a.cursor).cursor
          released := false } :=
      ⟨hPends.repository, hPends.transaction, hPends.link,
        hPends.openedHere, rfl⟩
    unfold move
    rw [Act.ends_bind, Act.ends_get, hPends.unreleased]
    simp only [Bool.false_eq_true, if_false]
    rw [Act.ends_bind, Act.ends_set]
    cases (how a.cursor).shown with
    | some f => exact ⟨hMoved, World.tallies_congr rfl⟩
    | none => exact ⟨hMoved, rfl⟩
  cases m with
  | read => exact hMove _ _
  | nextResult => exact hMove _ _

theorem moves_pend
    (ms : List Move)
    (hPends : a.Pends name) :
    Act.Ends (ms.forM fun m => discard m.act) a w fun _ a' w' =>
      a'.Pends name ∧ w'.tallies = w.tallies := by
  induction ms generalizing a w with
  | nil => exact ⟨hPends, rfl⟩
  | cons m ms ih =>
      change Act.Ends (discard m.act >>= fun _ =>
        ms.forM fun m => discard m.act) a w _
      rw [Act.ends_bind, Act.ends_discard]
      refine (move_pends w m hPends).mono ?_
      intro _ a₁ w₁ hMoved
      refine (ih w₁ hMoved.1).mono ?_
      intro _ a' w' hLast
      exact ⟨hLast.1, hLast.2.trans hMoved.2⟩

/-
  The outcome is recorded as the reader is released: it is a
  success unless a failure has shown.
-/
theorem release_counts
    (hPends : a.Pends name) :
    Act.Ends release a w fun _ a' w' =>
      a'.session.link = .closed ∧
      w'.tallies =
        tallied w.tallies (name, a.cursor.failure.isNone) := by
  unfold release
  rw [Act.ends_bind, Act.ends_get, hPends.unreleased]
  simp only [Bool.not_false, if_true]
  rw [Act.ends_bind, Act.ends_set, ends_onSession]
  refine (Session.settle_counts w a.cursor.failure true
    hPends.openedHere hPends.transaction hPends.link).mono ?_
  intro _ s' w' hSettled
  rcases hSettled with ⟨rfl, hChange⟩
  refine ⟨rfl, hChange.tallies.trans ?_⟩
  rw [hPends.repository]
  rfl

/-
  Some rows are read, and the reader is dropped.  The failure
  is the one that has shown by then.
-/
def useUp
    (ms : List Move)
    (a : Reader) : Effect (Option Failure) := do
  let (_, a) ← (ms.forM fun m => discard m.act).run a
  let (_, b) ← release.run a
  b.session.drop
  return a.cursor.failure

theorem useUp_counts
    (ms : List Move)
    (hPends : a.Pends name) :
    Effect.Ends (a.useUp ms) w fun failure w' =>
      w'.tallies = tallied w.tallies (name, failure.isNone) := by
  unfold useUp
  rw [Effect.ends_bind, Act.ends_run]
  refine (moves_pend w ms hPends).mono ?_
  intro _ a₁ w₁ hMoved
  rcases hMoved with ⟨hPends₁, hSame⟩
  rw [Effect.ends_bind, Act.ends_run]
  refine (release_counts w₁ hPends₁).mono ?_
  intro _ b w₂ hReleased
  rw [Effect.ends_bind,
    (Session.drop_leads w₂ hReleased.1).ends_iff, Effect.ends_pure,
    hReleased.2, hSame]

end Reader

namespace Entry

/- A result is used up: a reader, for some of its rows. -/
def useUp
    (ms : List Reader.Move) :
    (e : Entry) → e.Output → Effect (Option Failure)
  | .reader, a => a.useUp ms
  | _, _ => return none

/-
  What a success records when it is made and what it records
  when it is used up, taken together.
-/
theorem useUp_counts
    {e : Entry}
    {name : String}
    {a : e.Output}
    (w : World)
    (ms : List Reader.Move)
    (hHolds : e.Holds name a) :
    Effect.Ends (e.useUp ms a) w fun failure w' =>
      failure = none →
      ∀ t, w.tallies = (e.records name true).foldl tallied t →
        w'.tallies = tallied t (name, true) := by
  cases e with
  | reader =>
      refine (Reader.useUp_counts w ms hHolds).mono ?_
      intro failure w' hUsed hNone t hBefore
      rw [hUsed, hNone, hBefore]
      rfl
  | _ => exact fun _ _ hBefore => hBefore

end Entry

end Failover
