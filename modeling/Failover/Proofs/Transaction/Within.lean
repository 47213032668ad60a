import Failover.Proofs.Transaction.Holding

/-
  A session inside a transaction stays on the connection on
  which the transaction began, and its operations with it, as
  long as the transaction may not end.

  Key definitions include:
    * `Task.IsOn`
    * `Scene.Within`

  Main statements:
    * `Scene.Within.steps`
-/

namespace Failover

------------------------------------------------------------
-- Tasks
------------------------------------------------------------

/- A task works on a connection, and gives it back at most. -/
structure Task.IsOn
    (t : Task)
    (c : Connection) : Prop where
  connection : t.connection = c
  finished : ∀ c' result, t.state = .finished c' result → c' = c

namespace Ledger

/-
  A task that is there after a step in the background was
  there before it.
-/
theorem Step.task?
    {l l' : Ledger}
    (hNodup : l.taskIds.Nodup)
    (h : l.Step l')
    {id : Nat}
    {t' : Task}
    (hTask : l'.task? id = some t') :
    ∃ t, l.task? id = some t ∧ ∀ c, t.IsOn c → t'.IsOn c := by
  have hState {a b : List Task} {t : Task} {state : Task.State}
      (hTasks : l.tasks = a ++ t :: b)
      (hOther : l'.tasks = a ++ t.inState state :: b)
      (hOn : ∀ c, t.IsOn c → (t.inState state).IsOn c) :
      ∃ t, l.task? id = some t ∧ ∀ c, t.IsOn c → t'.IsOn c := by
    by_cases hThis : id = t.id
    · subst hThis
      have hNodup' : l'.taskIds.Nodup := by
        simpa [Ledger.taskIds, hTasks, hOther, Task.inState]
          using hNodup
      have hNew : l'.task? t.id = some (t.inState state) :=
        task?_this hNodup' hOther
      cases hTask.symm.trans hNew
      exact ⟨t, task?_this hNodup hTasks, hOn⟩
    · rw [task?_other hTasks hOther hThis] at hTask
      exact ⟨t', hTask, fun _ h => h⟩
  have hForget {i : Nat} (hOld : (l.forget i).task? id = some t') :
      ∃ t, l.task? id = some t ∧ ∀ c, t.IsOn c → t'.IsOn c :=
    ⟨t', task?_of_forget hOld, fun _ h => h⟩
  cases h with
  | noted => exact ⟨t', hTask, fun _ h => h⟩
  | continued later hTasks =>
      exact hState hTasks rfl fun c h =>
        ⟨h.connection, fun _ _ hEnded => by cases hEnded⟩
  | concluded hTasks =>
      refine hState hTasks rfl fun c h => ⟨h.connection, ?_⟩
      rintro c' result' hFinished
      cases hFinished
      exact h.connection
  | died hTasks =>
      exact hState hTasks rfl fun c h =>
        ⟨h.connection, fun _ _ hEnded => by cases hEnded⟩
  | timedOut hTasks =>
      exact hState hTasks rfl fun c h =>
        ⟨h.connection, fun _ _ hEnded => by cases hEnded⟩
  | committed => exact ⟨t', hTask, fun _ h => h⟩
  | released => exact hForget hTask
  | forgotten => exact hForget hTask
  | void => exact ⟨t', hTask, fun _ h => h⟩

end Ledger

------------------------------------------------------------
-- Inside a transaction
------------------------------------------------------------

/- A session, if it is the one, is in a transaction. -/
def Session.IsWithin
    (i : Nat)
    (c : Connection)
    (s : Session) : Prop :=
  s.id = i →
    s.inTransaction = true ∧ (s.link = .opened c ∨ s.link = .busy)

namespace Scene

/- A session and its operations have one connection. -/
structure Within
    (i : Nat)
    (c : Connection)
    (σ : Scene) : Prop where
  made : i < σ.ledger.sessions
  sessions : ∀ s ∈ σ.sessions, s.IsWithin i c
  operations : ∀ o ∈ σ.operations, o.session = i →
    ∀ t, σ.ledger.task? o.task = some t → t.IsOn c

variable {may : Nat → Prop} {σ σ' : Scene}
variable {i : Nat} {c : Connection}

/- A session keeps to its connection when others are given up. -/
theorem Within.less
    (h : Within i c σ)
    (hMade : σ'.ledger.sessions = σ.ledger.sessions)
    (hSessions : ∀ s ∈ σ'.sessions, s ∈ σ.sessions)
    (hOperations : ∀ o ∈ σ'.operations, o ∈ σ.operations)
    (hTasks : ∀ id t, σ'.ledger.task? id = some t →
      σ.ledger.task? id = some t) :
    Within i c σ' where
  made := hMade ▸ h.made
  sessions := fun s hS => h.sessions s (hSessions s hS)
  operations := fun o hO hSession t hTask =>
    h.operations o (hOperations o hO) hSession t
      (hTasks o.task t hTask)

/- A session changes, and what is behind may be given up. -/
theorem Within.change
    {s s' : Session}
    {ss : List Session}
    {os os' : List Operation}
    {l l' : Ledger}
    (h : Within i c ⟨s :: ss, os, l⟩)
    (hWithin : s.IsWithin i c → s'.IsWithin i c)
    (hMade : l'.sessions = l.sessions)
    (hOperations : ∀ o ∈ os', o ∈ os)
    (hTasks : ∀ id t, l'.task? id = some t →
      l.task? id = some t) :
    Within i c ⟨s' :: ss, os', l'⟩ where
  made := hMade ▸ h.made
  sessions := by
    intro x hX
    rcases List.mem_cons.mp hX with rfl | hX
    · exact hWithin (h.sessions s (List.mem_cons_self ..))
    · exact h.sessions x (List.mem_cons_of_mem _ hX)
  operations := fun o hO hSession t hTask =>
    h.operations o (hOperations o hO) hSession t
      (hTasks o.task t hTask)

/- An operation starts on the connection of its session. -/
theorem Within.start
    {s s' : Session}
    {ss : List Session}
    {o : Operation}
    {os : List Operation}
    {l l' : Ledger}
    {c' : Connection}
    {t : Task}
    (hNumbered : Numbered ⟨s :: ss, os, l⟩)
    (hClaimed : Claimed ⟨s :: ss, os, l⟩)
    (h : Within i c ⟨s :: ss, os, l⟩)
    (hLink : s.link = .opened c')
    (hId : s'.id = s.id)
    (hSame : s'.inTransaction = s.inTransaction)
    (hBusy : s'.link = .busy)
    (hSession : o.session = s.id)
    (hThis : o.task = t.id)
    (hStarted : t.id = l.started)
    (hOn : t.IsOn c')
    (hTasks : l'.tasks = l.tasks ++ [t])
    (hMade : l'.sessions = l.sessions) :
    Within i c ⟨s' :: ss, o :: os, l'⟩ := by
  have hLess : ∀ i ∈ l.taskIds, i < t.id :=
    hStarted ▸ hNumbered.started
  rcases task?_start hLess hTasks with ⟨hNew, hOld⟩
  have hHead := h.sessions s (List.mem_cons_self ..)
  refine ⟨hMade ▸ h.made, ?_, ?_⟩
  · intro x hX
    rcases List.mem_cons.mp hX with rfl | hX
    · intro hI
      rw [hSame]
      exact ⟨(hHead (hId.symm.trans hI)).1, .inr hBusy⟩
    · exact h.sessions x (List.mem_cons_of_mem _ hX)
  · intro x hX hOwner t' hTask
    rcases List.mem_cons.mp hX with rfl | hX
    · rw [hThis, hNew] at hTask
      cases hTask
      rcases hHead (hSession.symm.trans hOwner) with
        ⟨-, hOpened | hAtWork⟩
      · cases hLink.symm.trans hOpened
        exact hOn
      · cases hLink.symm.trans hAtWork
    · have hMem : x.task ∈ l.taskIds :=
        hClaimed.mem_iff.mp (List.mem_map.mpr
          ⟨x.claim, List.mem_append_left _
            (List.mem_map.mpr ⟨x, hX, rfl⟩), rfl⟩)
      rw [hOld x.task hMem] at hTask
      exact h.operations x hX hOwner t' hTask

/- The session must not be the one whose transaction may end. -/
theorem Within.step
    (hSound : Sound σ)
    (hWithin : Within i c σ)
    (h : Step may σ σ')
    (hNot : ¬ may i) : Within i c σ' := by
  cases h with
  | rearranged hS hO =>
      exact hWithin.less rfl (fun s h => hS.mem_iff.mpr h)
        (fun o h => hO.mem_iff.mpr h) fun _ _ h => h
  | @around ss os l l' h =>
      refine ⟨h.sessions_eq ▸ hWithin.made, hWithin.sessions, ?_⟩
      intro o hO hSession t' hTask
      rcases h.task? hSound.numbered.tasks hTask with
        ⟨t, hOld, hOn⟩
      exact hOn c (hWithin.operations o hO hSession t hOld)
  | made r n =>
      rcases hWithin with ⟨hMade, hSessions, hOperations⟩
      refine ⟨Nat.lt_succ_of_lt hMade, ?_, hOperations⟩
      intro s hS
      rcases List.mem_cons.mp hS with rfl | hS
      · exact fun hI => absurd hI (Nat.ne_of_gt hMade)
      · exact hSessions s hS
  | changed command bound disposed =>
      exact hWithin.change (fun h => h) rfl (fun _ h => h)
        fun _ _ h => h
  | opened hLink =>
      refine hWithin.change (fun h hI => ?_) rfl (fun _ h => h)
        fun _ _ h => h
      rcases h hI with ⟨-, hOpened | hBusy⟩
      · cases hLink.symm.trans hOpened
      · cases hLink.symm.trans hBusy
  | closed ok hLink hTransaction =>
      refine hWithin.change (fun h hI => ?_) rfl (fun _ h => h)
        fun _ _ h => h
      cases hTransaction.symm.trans (h hI).1
  | discarded hLink hMay =>
      refine hWithin.change (fun h hI => ?_) rfl (fun _ h => h)
        fun _ _ h => h
      exact absurd (hI ▸ hMay (h hI).1) hNot
  | began hLink hTransaction =>
      refine hWithin.change (fun h hI => ?_) rfl (fun _ h => h)
        fun _ _ h => h
      cases hTransaction.symm.trans (h hI).1
  | refused =>
      exact hWithin.change (fun h => h) rfl (fun _ h => h)
        fun _ _ h => h
  | ended e ok hLink hTransaction hMay =>
      refine hWithin.change (fun h hI => ?_) rfl (fun _ h => h)
        fun _ _ h => h
      exact absurd (hI ▸ hMay) hNot
  | cleared hLink hTransaction hMay =>
      refine hWithin.change (fun h hI => ?_) rfl (fun _ h => h)
        fun _ _ h => h
      exact absurd (hI ▸ hMay) hNot
  | @started ss os l s c' b kind context limit deadline time
      hLink hBound hMark =>
      let s₀ := (Progress.start b).statement
      let t : Task := ⟨l.started, c', limit, deadline,
        .waiting time (.start b) (l.reply? c' s₀)⟩
      exact hWithin.start (t := t) hSound.numbered hSound.claimed
        hLink rfl rfl rfl rfl rfl rfl ⟨rfl, nofun⟩ rfl rfl
  | @returned ss os l s c' o t result hSession hTask hState =>
      refine hWithin.change (fun h hI => ?_) rfl
        (fun _ h => List.mem_cons_of_mem _ h)
        fun _ _ h => Ledger.task?_of_forget h
      have hOn := hWithin.operations o (List.mem_cons_self ..)
        (hSession.trans hI) t hTask
      rw [← hOn.finished c' result hState]
      exact ⟨(h hI).1, .inl rfl⟩
  | lost hSession hTask hMay =>
      refine hWithin.change (fun h hI => ?_) rfl
        (fun _ h => List.mem_cons_of_mem _ h)
        fun _ _ h => Ledger.task?_of_forget h
      exact absurd (hI ▸ hMay (h hI).1) hNot
  | dropped o =>
      exact hWithin.less rfl (fun _ h => h)
        (fun _ h => List.mem_cons_of_mem _ h) fun _ _ h => h
  | left =>
      exact hWithin.less rfl (fun _ h => List.mem_cons_of_mem _ h)
        (fun _ h => h) fun _ _ h => h
  | leftOpen =>
      exact hWithin.less rfl (fun _ h => List.mem_cons_of_mem _ h)
        (fun _ h => h) fun _ _ h => h
  | leftInTransaction =>
      exact hWithin.less rfl (fun _ h => List.mem_cons_of_mem _ h)
        (fun _ h => h) fun _ _ h => h

theorem Within.steps
    (hSound : Sound σ)
    (hWithin : Within i c σ)
    (h : Steps may σ σ')
    (hNot : ¬ may i) : Within i c σ' := by
  induction h with
  | refl => exact hWithin
  | tail hSteps hStep ih =>
      exact ih.step (hSound.steps hSteps) hStep hNot

end Scene

end Failover
