import Failover.Proofs.Scene.Sound

/-
  What holds of every session between the things it does: its
  connection, its transaction, its command and its end fit
  together, and a session that was given up stays so.

  Key definitions include:
    * `Session.IsProper`, `Scene.Proper`
    * `Scene.GivenUp`

  Main statements:
    * `Scene.Proper.steps`
    * `Scene.GivenUp.steps`
-/

namespace Failover

/-
  A transaction has a connection, a session that was given up
  has none, and a command is bound or there is none.
-/
structure Session.IsProper (s : Session) : Prop where
  transaction : s.inTransaction = true → s.link ≠ .closed
  disposed : s.disposed = true → s.link = .closed
  command : s.command.isSome = s.bound.isSome

namespace Session

/- A session with a connection was not given up. -/
theorem IsProper.usable
    {s : Session}
    (h : s.IsProper)
    (hLink : s.link ≠ .closed) : s.disposed = false := by
  cases hDisposed : s.disposed with
  | false => rfl
  | true => exact absurd (h.disposed hDisposed) hLink

/- Outside transactions the connection may be closed. -/
theorem IsProper.closed
    {s : Session}
    (h : s.IsProper) :
    IsProper { s with link := .closed, inTransaction := false } :=
  ⟨nofun, fun _ => rfl, h.command⟩

/-
  A session with a connection may change it, and its
  transaction, and stays proper.
-/
theorem IsProper.linked
    {s : Session}
    (h : s.IsProper)
    (hUsable : s.disposed = false)
    {link : Link}
    (hLink : link ≠ .closed)
    (inTransaction : Bool) :
    IsProper { s with link, inTransaction } := by
  refine ⟨fun _ => hLink, fun hDisposed => ?_, h.command⟩
  exact absurd (hUsable.symm.trans hDisposed) nofun

end Session

namespace Scene

variable {may : Nat → Prop} {σ σ' : Scene}

------------------------------------------------------------
-- Proper sessions
------------------------------------------------------------

def Proper (σ : Scene) : Prop :=
  ∀ s ∈ σ.sessions, s.IsProper

/- All sessions are proper before any is made. -/
theorem Proper.initial (l : Ledger) : Proper ⟨[], [], l⟩ :=
  fun _ hMem => absurd hMem List.not_mem_nil

/-
  Sessions stay proper when one of them changes and stays
  proper.
-/
theorem Proper.change
    {s s' : Session}
    {ss : List Session}
    {os os' : List Operation}
    {l l' : Ledger}
    (hProper : Proper ⟨s :: ss, os, l⟩)
    (hChange : s.IsProper → s'.IsProper) :
    Proper ⟨s' :: ss, os', l'⟩ := by
  intro x hX
  rcases List.mem_cons.mp hX with rfl | hX
  · exact hChange (hProper s (List.mem_cons_self ..))
  · exact hProper x (List.mem_cons_of_mem _ hX)

theorem Proper.tail
    {s : Session}
    {ss : List Session}
    {os os' : List Operation}
    {l l' : Ledger}
    (hProper : Proper ⟨s :: ss, os, l⟩) :
    Proper ⟨ss, os', l'⟩ :=
  fun x hX => hProper x (List.mem_cons_of_mem _ hX)

/-
  Whatever happens to a session leaves it proper.  That the
  session of an operation is not given up while this is under
  way is known as it is busy.
-/
theorem Proper.step
    (hPaired : Paired σ)
    (hProper : Proper σ)
    (h : Step may σ σ') : Proper σ' := by
  cases h with
  | rearranged hSessions =>
      exact fun s hS => hProper s (hSessions.mem_iff.mpr hS)
  | around => exact hProper
  | made r n =>
      intro s hS
      rcases List.mem_cons.mp hS with rfl | hS
      · exact ⟨nofun, nofun, rfl⟩
      · exact hProper s hS
  | changed command bound disposed hRebinds hDisposed hClosed =>
      refine hProper.change fun hOld => ?_
      refine ⟨hOld.transaction, fun hNow => ?_,
        hRebinds.matched hOld.command⟩
      rcases hClosed hNow with hThen | hLink
      · exact hOld.disposed hThen
      · exact hLink
  | opened hLink hUsable =>
      refine hProper.change fun hOld => ?_
      apply hOld.linked hUsable
      nofun
  | closed ok hLink hTransaction =>
      refine hProper.change fun hOld => ?_
      refine ⟨fun hNow => ?_, fun _ => rfl, hOld.command⟩
      exact absurd (hTransaction.symm.trans hNow) nofun
  | discarded => exact hProper.change .closed
  | began hLink =>
      refine hProper.change fun hOld => ?_
      apply hOld.linked (hOld.usable (by simp [hLink]))
      simp [hLink]
  | refused => exact hProper
  | ended e ok hLink =>
      refine hProper.change fun hOld => ?_
      exact ⟨nofun, hOld.disposed, hOld.command⟩
  | cleared hLink =>
      refine hProper.change fun hOld => ?_
      exact ⟨nofun, hOld.disposed, hOld.command⟩
  | started kind context limit deadline time hLink =>
      refine hProper.change fun hOld => ?_
      apply hOld.linked (hOld.usable (by simp [hLink]))
      nofun
  | @returned ss os l s c o t result hSession =>
      refine hProper.change fun hOld => ?_
      have hBusy := (hPaired.busy o (List.mem_cons_self ..) s
        (List.mem_cons_self ..) hSession).1
      apply hOld.linked (hOld.usable (by simp [hBusy]))
      nofun
  | lost => exact hProper.change .closed
  | dropped => exact hProper
  | left => exact hProper.tail
  | leftOpen => exact hProper.tail
  | leftInTransaction => exact hProper.tail

theorem Proper.steps
    (hSound : Sound σ)
    (hProper : Proper σ)
    (h : Steps may σ σ') : Proper σ' := by
  induction h with
  | refl => exact hProper
  | tail hSteps hStep ih =>
      exact ih.step (hSound.steps hSteps).paired hStep

------------------------------------------------------------
-- Sessions that were given up
------------------------------------------------------------

/- The session of a number was made, and later given up. -/
structure GivenUp
    (i : Nat)
    (σ : Scene) : Prop where
  made : i < σ.ledger.sessions
  disposed : ∀ s ∈ σ.sessions, s.id = i → s.disposed = true

theorem GivenUp.change
    {i : Nat}
    {s s' : Session}
    {ss : List Session}
    {os os' : List Operation}
    {l l' : Ledger}
    (h : GivenUp i ⟨s :: ss, os, l⟩)
    (hId : s'.id = s.id)
    (hDisposed : s.disposed = true → s'.disposed = true)
    (hMade : l'.sessions = l.sessions) :
    GivenUp i ⟨s' :: ss, os', l'⟩ where
  made := hMade ▸ h.made
  disposed := by
    intro x hX hThis
    rcases List.mem_cons.mp hX with rfl | hX
    · exact hDisposed
        (h.disposed s (List.mem_cons_self ..) (hId ▸ hThis))
    · exact h.disposed x (List.mem_cons_of_mem _ hX) hThis

theorem GivenUp.less
    {i : Nat}
    (h : GivenUp i σ)
    (hSessions : ∀ s ∈ σ'.sessions, s ∈ σ.sessions)
    (hMade : σ'.ledger.sessions = σ.ledger.sessions) :
    GivenUp i σ' where
  made := hMade ▸ h.made
  disposed := fun s hS => h.disposed s (hSessions s hS)

theorem GivenUp.step
    {i : Nat}
    (hGivenUp : GivenUp i σ)
    (h : Step may σ σ') : GivenUp i σ' := by
  cases h with
  | rearranged hSessions =>
      exact hGivenUp.less (fun _ => hSessions.mem_iff.mpr) rfl
  | around h => exact hGivenUp.less (fun _ hS => hS) h.sessions_eq
  | made r n =>
      refine ⟨Nat.lt_succ_of_lt hGivenUp.made, ?_⟩
      intro s hS hThis
      rcases List.mem_cons.mp hS with rfl | hS
      · exact absurd hThis (Nat.ne_of_gt hGivenUp.made)
      · exact hGivenUp.disposed s hS hThis
  | changed command bound disposed hRebinds hDisposed =>
      exact hGivenUp.change rfl hDisposed rfl
  | opened => exact hGivenUp.change rfl (fun h => h) rfl
  | closed => exact hGivenUp.change rfl (fun h => h) rfl
  | discarded => exact hGivenUp.change rfl (fun h => h) rfl
  | began => exact hGivenUp.change rfl (fun h => h) rfl
  | refused => exact hGivenUp.less (fun _ hS => hS) rfl
  | ended => exact hGivenUp.change rfl (fun h => h) rfl
  | cleared => exact hGivenUp.change rfl (fun h => h) rfl
  | started => exact hGivenUp.change rfl (fun h => h) rfl
  | returned => exact hGivenUp.change rfl (fun h => h) rfl
  | lost => exact hGivenUp.change rfl (fun h => h) rfl
  | dropped => exact hGivenUp.less (fun _ hS => hS) rfl
  | left =>
      exact hGivenUp.less (fun _ => List.mem_cons_of_mem _) rfl
  | leftOpen =>
      exact hGivenUp.less (fun _ => List.mem_cons_of_mem _) rfl
  | leftInTransaction =>
      exact hGivenUp.less (fun _ => List.mem_cons_of_mem _) rfl

theorem GivenUp.steps
    {i : Nat}
    (hGivenUp : GivenUp i σ)
    (h : Steps may σ σ') : GivenUp i σ' := by
  induction h with
  | refl => exact hGivenUp
  | tail _ hStep ih => exact ih.step hStep

/- Sessions are told apart by their numbers. -/
theorem Numbered.givenUp
    {s : Session}
    (hNumbered : Numbered σ)
    (hMem : s ∈ σ.sessions)
    (hDisposed : s.disposed = true) : GivenUp s.id σ where
  made := hNumbered.made s.id (List.mem_map.mpr ⟨s, hMem, rfl⟩)
  disposed := by
    intro x hX hThis
    have hSame : x = s :=
      List.inj_on_of_nodup_map hNumbered.sessions hX hMem hThis
    exact hSame ▸ hDisposed

end Scene

end Failover
