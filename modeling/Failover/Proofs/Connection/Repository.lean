import Failover.Proofs.Connection.Count
import Failover.Proofs.Transaction.Within

/-
  A session has connections of its own repository only, and so
  has the task of its operation.

  Key definitions include:
    * `Scene.AtHome`

  Main statements:
    * `Scene.AtHome.parting`
-/

namespace Failover

namespace Scene

/- Connections are of the repositories of their sessions. -/
structure AtHome (σ : Scene) : Prop where
  sessions : ∀ s ∈ σ.sessions, ∀ c, s.link = .opened c →
    c.repository = s.repository.name
  operations : ∀ o ∈ σ.operations, ∀ s ∈ σ.sessions,
    o.session = s.id → ∀ t, σ.ledger.task? o.task = some t →
      t.connection.repository = s.repository.name

variable {may : Nat → Prop} {cut : Connection → Prop}
variable {σ σ' : Scene}

/- Every connection is at home before any session is made. -/
theorem AtHome.initial (l : Ledger) : AtHome ⟨[], [], l⟩ := by
  constructor
  · intro s hS
    cases hS
  · intro o hO
    cases hO

/-
  Every connection stays at home when sessions and operations
  are given up.
-/
theorem AtHome.less
    (h : AtHome σ)
    (hSessions : ∀ s ∈ σ'.sessions, s ∈ σ.sessions)
    (hOperations : ∀ o ∈ σ'.operations, o ∈ σ.operations)
    (hTasks : ∀ id t, σ'.ledger.task? id = some t →
      σ.ledger.task? id = some t) : AtHome σ' := by
  constructor
  · intro s hS
    exact h.sessions s (hSessions s hS)
  · intro o hO s hS hSession t hTask
    exact h.operations o (hOperations o hO) s (hSessions s hS)
      hSession t (hTasks o.task t hTask)

/- A session changes, and what is behind may be given up. -/
theorem AtHome.change
    {s s' : Session}
    {ss : List Session}
    {os os' : List Operation}
    {l l' : Ledger}
    (h : AtHome ⟨s :: ss, os, l⟩)
    (hId : s'.id = s.id)
    (hRepository : s'.repository = s.repository)
    (hLink : ∀ c, s'.link = .opened c →
      c.repository = s.repository.name)
    (hOperations : ∀ o ∈ os', o ∈ os)
    (hTasks : ∀ id t, l'.task? id = some t →
      l.task? id = some t) :
    AtHome ⟨s' :: ss, os', l'⟩ := by
  constructor
  · intro x hX c hOpen
    rcases List.mem_cons.mp hX with rfl | hX
    · rw [hRepository]
      exact hLink c hOpen
    · exact h.sessions x (List.mem_cons_of_mem _ hX) c hOpen
  · intro o hO x hX hSession t hTask
    have hOld := hTasks o.task t hTask
    rcases List.mem_cons.mp hX with rfl | hX
    · rw [hRepository]
      exact h.operations o (hOperations o hO) s
        (List.mem_cons_self ..) (hSession.trans hId) t hOld
    · exact h.operations o (hOperations o hO) x
        (List.mem_cons_of_mem _ hX) hSession t hOld

/- A session keeps the connection that it has. -/
theorem AtHome.kept
    {s s' : Session}
    {ss : List Session}
    {os : List Operation}
    {l l' : Ledger}
    (h : AtHome ⟨s :: ss, os, l⟩)
    (hId : s'.id = s.id)
    (hRepository : s'.repository = s.repository)
    (hLink : s'.link = s.link)
    (hTasks : l'.tasks = l.tasks) :
    AtHome ⟨s' :: ss, os, l'⟩ := by
  apply h.change hId hRepository
  · intro c hOpen
    rw [hLink] at hOpen
    exact h.sessions s (List.mem_cons_self ..) c hOpen
  · exact fun _ hO => hO
  · intro id t hTask
    rw [Ledger.task?, hTasks] at hTask
    exact hTask

/- An operation starts on the connection of its session. -/
theorem AtHome.start
    {s s' : Session}
    {ss : List Session}
    {o : Operation}
    {os : List Operation}
    {l l' : Ledger}
    {t : Task}
    (hNumbered : Numbered ⟨s :: ss, os, l⟩)
    (hClaimed : Claimed ⟨s :: ss, os, l⟩)
    (h : AtHome ⟨s :: ss, os, l⟩)
    (hLink : s.link = .opened t.connection)
    (hId : s'.id = s.id)
    (hRepository : s'.repository = s.repository)
    (hBusy : s'.link = .busy)
    (hSession : o.session = s.id)
    (hThis : o.task = t.id)
    (hStarted : t.id = l.started)
    (hTasks : l'.tasks = l.tasks ++ [t]) :
    AtHome ⟨s' :: ss, o :: os, l'⟩ := by
  have hLess : ∀ i ∈ l.taskIds, i < t.id :=
    hStarted ▸ hNumbered.started
  obtain ⟨hNew, hOld⟩ := task?_start hLess hTasks
  constructor
  · intro x hX c hOpen
    rcases List.mem_cons.mp hX with rfl | hX
    · rw [hBusy] at hOpen
      cases hOpen
    · exact h.sessions x (List.mem_cons_of_mem _ hX) c hOpen
  · intro x hX y hY hOwner t' hTask
    rcases List.mem_cons.mp hX with rfl | hX
    · rw [hThis, hNew] at hTask
      cases hTask
      have hMine := h.sessions s (List.mem_cons_self ..)
        t.connection hLink
      rcases List.mem_cons.mp hY with rfl | hY
      · rw [hRepository]
        exact hMine
      · -- No other session has the number of this one.
        have hNot := (List.nodup_cons.mp hNumbered.sessions).1
        have hSame : y.id = s.id := hOwner.symm.trans hSession
        exact absurd (List.mem_map.mpr ⟨y, hY, hSame⟩) hNot
    · have hMem : x.task ∈ l.taskIds :=
        hClaimed.mem_iff.mp (List.mem_map.mpr
          ⟨x.claim, List.mem_append_left _
            (List.mem_map.mpr ⟨x, hX, rfl⟩), rfl⟩)
      rw [hOld x.task hMem] at hTask
      rcases List.mem_cons.mp hY with hThat | hY
      · rw [hThat] at hOwner ⊢
        rw [hRepository]
        exact h.operations x hX s (List.mem_cons_self ..)
          (hOwner.trans hId) t' hTask
      · exact h.operations x hX y (List.mem_cons_of_mem _ hY)
          hOwner t' hTask

theorem AtHome.step
    (hSound : Sound σ)
    (hReturns : σ.ledger.Returns)
    (hHome : AtHome σ)
    (h : Step may σ σ') : AtHome σ' := by
  cases h with
  | rearranged hS hO =>
      exact hHome.less (fun s h => hS.mem_iff.mpr h)
        (fun o h => hO.mem_iff.mpr h) fun _ _ h => h
  | @around ss os l l' h =>
      refine ⟨hHome.sessions, ?_⟩
      intro o hO s hS hSession t' hTask
      obtain ⟨t, hOld, hOn⟩ :=
        h.task? hSound.numbered.tasks hTask
      have hThen := hHome.operations o hO s hS hSession t hOld
      have hSame := hOn t.connection
        ⟨rfl, hReturns t (List.mem_of_find?_eq_some hOld)⟩
      rw [hSame.connection]
      exact hThen
  | @made ss os l r n =>
      constructor
      · intro s hS c hOpen
        rcases List.mem_cons.mp hS with rfl | hS
        · cases hOpen
        · exact hHome.sessions s hS c hOpen
      · intro o hO s hS hSession t hTask
        rcases List.mem_cons.mp hS with rfl | hS
        · have hKnown := hSound.paired.known o hO
          rw [hSession] at hKnown
          exact absurd hKnown (Nat.lt_irrefl _)
        · exact hHome.operations o hO s hS hSession t hTask
  | changed => exact hHome.kept rfl rfl rfl rfl
  | opened hLink =>
      refine hHome.change rfl rfl ?_ (fun _ h => h) fun _ _ h => h
      intro c hOpen
      cases hOpen
      rfl
  | closed =>
      exact hHome.change rfl rfl nofun (fun _ h => h)
        fun _ _ h => h
  | discarded =>
      exact hHome.change rfl rfl nofun (fun _ h => h)
        fun _ _ h => h
  | began => exact hHome.kept rfl rfl rfl rfl
  | refused => exact hHome.kept rfl rfl rfl rfl
  | ended => exact hHome.kept rfl rfl rfl rfl
  | cleared => exact hHome.kept rfl rfl rfl rfl
  | @started ss os l s c b kind context limit deadline time
      hLink hBound hContext =>
      exact AtHome.start hSound.numbered hSound.claimed hHome
        (t := ⟨l.started, c, limit, deadline,
          .waiting time (.start b)
            (l.reply? c (Progress.start b).statement)⟩)
        hLink rfl rfl rfl rfl rfl rfl rfl
  | @returned ss os l s c o t result hSession hTask hState =>
      refine hHome.change rfl rfl ?_
        (fun _ h => List.mem_cons_of_mem _ h)
        fun _ _ h => Ledger.task?_of_forget h
      intro c' hOpen
      cases hOpen
      rw [hReturns t (List.mem_of_find?_eq_some hTask) c result
        hState]
      exact hHome.operations o (List.mem_cons_self ..) s
        (List.mem_cons_self ..) hSession t hTask
  | lost =>
      exact hHome.change rfl rfl nofun
        (fun _ h => List.mem_cons_of_mem _ h)
        fun _ _ h => Ledger.task?_of_forget h
  | dropped o =>
      exact hHome.less (fun _ h => h)
        (fun _ h => List.mem_cons_of_mem _ h) fun _ _ h => h
  | left =>
      exact hHome.less (fun _ h => List.mem_cons_of_mem _ h)
        (fun _ h => h) fun _ _ h => h
  | leftOpen =>
      exact hHome.less (fun _ h => List.mem_cons_of_mem _ h)
        (fun _ h => h) fun _ _ h => h
  | leftInTransaction =>
      exact hHome.less (fun _ h => List.mem_cons_of_mem _ h)
        (fun _ h => h) fun _ _ h => h

theorem AtHome.parting
    (hSound : Sound σ)
    (hReturns : σ.ledger.Returns)
    (hHome : AtHome σ)
    (h : Parting cut σ σ') : AtHome σ' := by
  cases h with
  | stepped h => exact hHome.step hSound hReturns h
  | discarded =>
      exact hHome.less (fun _ h => List.mem_cons_of_mem _ h)
        (fun _ h => h) fun _ _ h => h
  | stopped o =>
      exact hHome.less (fun _ h => h)
        (fun _ h => List.mem_cons_of_mem _ h)
        fun _ _ h => Ledger.task?_of_forget h

end Scene

end Failover
