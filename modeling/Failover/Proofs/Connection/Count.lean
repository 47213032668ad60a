import Failover.Proofs.Transaction.Abandon

/-
  The number of active connections: it goes up with each that
  is opened, and down once for each, when the one who had it
  last is done with it.

  Key definitions include:
    * `Scene.outstanding`
    * `Scene.Turnover`, `Scene.Turnovers`
    * `Scene.Counted`

  Main statements:
    * `Scene.Booked.parting`
    * `Scene.Booked.partings`
-/

namespace Failover

------------------------------------------------------------
-- Connections that are not yet counted as closed
------------------------------------------------------------

/- The connection of a session that is not at work. -/
def Session.connection? (s : Session) : Option Connection :=
  match s.link with
  | .opened c => some c
  | _ => none

/- The connection of a commit in the background. -/
def Job.connection? : Job → Option Connection
  | .commit c => some c
  | .afterTask _ _ => none

namespace Ledger

/-
  A task stands for its connection until someone has seen its
  end, whatever that is.
-/
def outstanding (l : Ledger) : List Connection :=
  l.tasks.map (·.connection) ++ l.jobs.filterMap Job.connection?

/- Finished tasks give their own connections back. -/
def Returns (l : Ledger) : Prop :=
  ∀ t ∈ l.tasks, ∀ c result,
    t.state = .finished c result → c = t.connection

/- The tasks but one that is forgotten. -/
theorem tasks_forget_perm
    {l : Ledger}
    {id : Nat}
    {t : Task}
    (hNodup : l.taskIds.Nodup)
    (hTask : l.task? id = some t) :
    l.tasks.Perm (t :: (l.forget id).tasks) := by
  rcases List.find?_eq_some_iff_append.mp hTask with
    ⟨hThis, a, b, hTasks, hBefore⟩
  have hId : t.id = id := by
    simpa using hThis
  have hFirst : a.filter (·.id != id) = a := by
    refine List.filter_eq_self.mpr fun x hX => ?_
    simpa using hBefore x hX
  have hLast : b.filter (·.id != id) = b := by
    refine List.filter_eq_self.mpr fun x hX => ?_
    rw [taskIds, hTasks, List.map_append, List.map_cons,
      hId] at hNodup
    have hRest := (List.nodup_append.mp hNodup).2.1
    have hNot := (List.nodup_cons.mp hRest).1
    refine bne_iff_ne.mpr fun hSame => hNot ?_
    exact List.mem_map.mpr ⟨x, hX, hSame⟩
  have hForgotten : (l.forget id).tasks = a ++ b := by
    simp [forget, hTasks, hFirst, hLast, hId]
  rw [hForgotten, hTasks]
  exact List.perm_middle

/- The connection of a task that is forgotten. -/
theorem outstanding_forget
    {l : Ledger}
    {id : Nat}
    {t : Task}
    (hNodup : l.taskIds.Nodup)
    (hTask : l.task? id = some t) :
    l.outstanding.Perm
      (t.connection :: (l.forget id).outstanding) :=
  ((tasks_forget_perm hNodup hTask).map _).append_right _

/- Tasks come to other states with their connections. -/
theorem outstanding_inState
    {l l' : Ledger}
    {a b : List Task}
    {t : Task}
    {state : Task.State}
    (hTasks : l.tasks = a ++ t :: b)
    (hOther : l'.tasks = a ++ t.inState state :: b)
    (hJobs : l'.jobs = l.jobs) :
    l'.outstanding = l.outstanding := by
  simp [outstanding, hTasks, hOther, hJobs, Task.inState]

/- A commit is done and its connection gone. -/
theorem outstanding_committed
    {l l' : Ledger}
    {a b : List Job}
    {c : Connection}
    (hJobs : l.jobs = a ++ .commit c :: b)
    (hOther : l'.jobs = a ++ b)
    (hTasks : l'.tasks = l.tasks) :
    l.outstanding.Perm (c :: l'.outstanding) := by
  have hHas : (Job.commit c).connection? = some c := rfl
  simp only [outstanding, hJobs, hOther, hTasks,
    List.filterMap_append, List.filterMap_cons_some hHas]
  rw [← List.append_assoc, ← List.append_assoc]
  exact List.perm_middle

/- The job of a task has no connection besides. -/
theorem outstanding_afterTask
    {l l' : Ledger}
    {a b : List Job}
    {id : Nat}
    {inTransaction : Bool}
    (hJobs : l.jobs = a ++ .afterTask id inTransaction :: b)
    (hOther : l'.jobs = a ++ b)
    (hTasks : l'.tasks = l.tasks) :
    l'.outstanding = l.outstanding := by
  have hNone :
      (Job.afterTask id inTransaction).connection? = none := rfl
  simp only [outstanding, hJobs, hOther, hTasks,
    List.filterMap_append, List.filterMap_cons_none hNone]

/- The job of a task is done and the task is forgotten. -/
theorem outstanding_ended
    {l l' : Ledger}
    {a b : List Job}
    {id : Nat}
    {inTransaction : Bool}
    {t : Task}
    (hNodup : l.taskIds.Nodup)
    (hTask : l.task? id = some t)
    (hJobs : l.jobs = a ++ .afterTask id inTransaction :: b)
    (hOther : l'.jobs = a ++ b)
    (hTasks : l'.tasks = (l.forget id).tasks) :
    l.outstanding.Perm (t.connection :: l'.outstanding) := by
  rw [outstanding_afterTask (l := l.forget id) hJobs hOther
    hTasks]
  exact outstanding_forget hNodup hTask

/- A task that is started has its connection to give back. -/
theorem outstanding_start
    (l : Ledger)
    (t : Task) :
    (l.start t).outstanding.Perm
      (t.connection :: l.outstanding) := by
  simp only [outstanding, start, List.map_append,
    List.map_cons, List.map_nil, List.append_assoc,
    List.singleton_append]
  exact List.perm_middle

/-
  A job that is added has its connection to give back, if it
  has one.
-/
theorem outstanding_job
    (l : Ledger)
    (j : Job) :
    (l.withJobs (l.jobs ++ [j])).outstanding =
      l.outstanding ++ j.connection?.toList := by
  simp only [outstanding, withJobs, List.filterMap_append,
    List.append_assoc]
  cases j <;> rfl

theorem Returns.less
    {l l' : Ledger}
    (h : l.Returns)
    (hTasks : ∀ t ∈ l'.tasks, t ∈ l.tasks) : l'.Returns :=
  fun t hT => h t (hTasks t hT)

/-
  A task that comes to another state keeps its connection to
  be returned.
-/
theorem Returns.inState
    {l l' : Ledger}
    {a b : List Task}
    {t : Task}
    {state : Task.State}
    (h : l.Returns)
    (hTasks : l.tasks = a ++ t :: b)
    (hOther : l'.tasks = a ++ t.inState state :: b)
    (hState : ∀ c result,
      state = .finished c result → c = t.connection) :
    l'.Returns := by
  intro x hX
  have hOld : ∀ y ∈ l.tasks, ∀ c result,
      y.state = .finished c result → c = y.connection := h
  rw [hOther] at hX
  rw [hTasks] at hOld
  rcases List.mem_append.mp hX with hFirst | hX
  · exact hOld x (List.mem_append_left _ hFirst)
  · rcases List.mem_cons.mp hX with rfl | hLast
    · exact hState
    · exact hOld x
        (List.mem_append_right _ (List.mem_cons_of_mem _ hLast))

/-
  Steps in the background keep every task's connection to be
  returned.
-/
theorem Returns.around
    {l l' : Ledger}
    (hReturns : l.Returns)
    (h : l.Step l') : l'.Returns := by
  cases h with
  | noted => exact hReturns
  | continued later hTasks =>
      exact hReturns.inState hTasks rfl nofun
  | @concluded a b t time p reply result hTasks =>
      refine hReturns.inState hTasks rfl ?_
      intro c r hState
      cases hState
      rfl
  | died hTasks => exact hReturns.inState hTasks rfl nofun
  | timedOut hTasks => exact hReturns.inState hTasks rfl nofun
  | committed => exact hReturns
  | released =>
      exact hReturns.less fun _ => List.mem_of_mem_filter
  | forgotten =>
      exact hReturns.less fun _ => List.mem_of_mem_filter
  | void => exact hReturns

end Ledger

namespace Scene

variable {n : Nat} {may : Nat → Prop} {σ σ' : Scene}
variable {cut : Connection → Prop}

/-
  The connections that were opened and whose release has not
  yet been counted: those of sessions, of tasks whose end no
  one has taken, and of commits in the background.
-/
def outstanding (σ : Scene) : List Connection :=
  σ.sessions.filterMap (·.connection?) ++ σ.ledger.outstanding

/- An open session has one connection to give back. -/
theorem outstanding_opened
    {s : Session}
    {ss : List Session}
    {os : List Operation}
    {l : Ledger}
    {c : Connection}
    (hLink : s.link = .opened c) :
    outstanding ⟨s :: ss, os, l⟩ =
      c :: outstanding ⟨ss, os, l⟩ := by
  have hHas : s.connection? = some c := by
    simp [Session.connection?, hLink]
  simp only [outstanding, List.filterMap_cons_some hHas,
    List.cons_append]

/-
  A session without a connection of its own has none to give
  back.
-/
theorem outstanding_other
    {s : Session}
    {ss : List Session}
    {os : List Operation}
    {l : Ledger}
    (hLink : ∀ c, s.link ≠ .opened c) :
    outstanding ⟨s :: ss, os, l⟩ = outstanding ⟨ss, os, l⟩ := by
  have hNone : s.connection? = none := by
    unfold Session.connection?
    split
    · exact absurd ‹_› (hLink _)
    · rfl
  simp only [outstanding, List.filterMap_cons_none hNone]

theorem outstanding_closed
    {s : Session}
    {ss : List Session}
    {os : List Operation}
    {l : Ledger}
    (hLink : s.link = .closed) :
    outstanding ⟨s :: ss, os, l⟩ = outstanding ⟨ss, os, l⟩ :=
  outstanding_other (by simp [hLink])

theorem outstanding_busy
    {s : Session}
    {ss : List Session}
    {os : List Operation}
    {l : Ledger}
    (hLink : s.link = .busy) :
    outstanding ⟨s :: ss, os, l⟩ = outstanding ⟨ss, os, l⟩ :=
  outstanding_other (by simp [hLink])

/- The ledger has one connection less. -/
theorem outstanding_less
    {ss : List Session}
    {os os' : List Operation}
    {l l' : Ledger}
    {c : Connection}
    (hLess : l.outstanding.Perm (c :: l'.outstanding)) :
    (outstanding ⟨ss, os, l⟩).Perm
      (c :: outstanding ⟨ss, os', l'⟩) :=
  (hLess.append_left _).trans List.perm_middle

------------------------------------------------------------
-- Turnover
------------------------------------------------------------

/-
  Connections change hands, the next one is opened, or one of
  them is counted as closed, while some are counted.
-/
inductive Turnover : Scene → Scene → Prop where
  | kept
      {σ σ' : Scene}
      (hPerm : σ.outstanding.Perm σ'.outstanding)
      (hActive : σ'.ledger.active = σ.ledger.active)
      (hNext : σ'.ledger.connections = σ.ledger.connections) :
      Turnover σ σ'
  | opened
      {σ σ' : Scene}
      (r : Repository)
      (hPerm : (σ.ledger.nextConnection r :: σ.outstanding).Perm
        σ'.outstanding)
      (hActive : σ'.ledger.active = σ.ledger.active + 1)
      (hNext :
        σ'.ledger.connections = σ.ledger.connections + 1)
      (hLog : .opened r.name (some (σ.ledger.nextConnection r)) ∈
        σ'.ledger.log) :
      Turnover σ σ'
  | counted
      {σ σ' : Scene}
      (c : Connection)
      (hPerm : σ.outstanding.Perm (c :: σ'.outstanding))
      (hActive : σ.ledger.active = σ'.ledger.active + 1)
      (hNext : σ'.ledger.connections = σ.ledger.connections) :
      Turnover σ σ'

/- What happens, one turnover after the other. -/
abbrev Turnovers (cut : Connection → Prop) :=
  Relation.ReflTransGen fun σ σ' =>
    Parting cut σ σ' ∧ Turnover σ σ'

/-
  The number that is counted is that of the connections that
  are outstanding, above a number from the start.
-/
structure Counted
    (n : Nat)
    (σ : Scene) : Prop where
  active : σ.ledger.active = n + σ.outstanding.length
  nodup : σ.outstanding.Nodup
  numbered : ∀ c ∈ σ.outstanding, c.id < σ.ledger.connections

/-
  What is opened and given back keeps the count of
  connections exact.
-/
theorem Counted.turnover
    (hCounted : Counted n σ)
    (h : Turnover σ σ') : Counted n σ' := by
  rcases hCounted with ⟨hActive, hNodup, hNumbered⟩
  cases h with
  | kept hPerm hSame hNext =>
      refine ⟨?_, hPerm.nodup_iff.mp hNodup, ?_⟩
      · rw [hSame, ← hPerm.length_eq]
        exact hActive
      · intro c hC
        rw [hNext]
        exact hNumbered c (hPerm.mem_iff.mpr hC)
  | opened r hPerm hMore hNext hLog =>
      have hFresh : σ.ledger.nextConnection r ∉ σ.outstanding :=
        fun hMem => Nat.lt_irrefl _ (hNumbered _ hMem)
      refine ⟨?_, ?_, ?_⟩
      · rw [hMore, ← hPerm.length_eq, List.length_cons, hActive]
        exact Nat.add_assoc ..
      · exact hPerm.nodup_iff.mp
          (List.nodup_cons.mpr ⟨hFresh, hNodup⟩)
      · intro c hC
        rw [hNext]
        rcases List.mem_cons.mp (hPerm.mem_iff.mpr hC) with
          rfl | hOld
        · exact Nat.lt_succ_self _
        · exact Nat.lt_succ_of_lt (hNumbered c hOld)
  | counted c hPerm hLess hNext =>
      have hCons := hPerm.nodup_iff.mp hNodup
      refine ⟨?_, (List.nodup_cons.mp hCons).2, ?_⟩
      · have hLength := hPerm.length_eq
        rw [List.length_cons] at hLength
        omega
      · intro x hX
        rw [hNext]
        exact hNumbered x
          (hPerm.mem_iff.mpr (List.mem_cons_of_mem _ hX))

/-
  A connection that is given back is taken off the count,
  which is not zero then.
-/
theorem Counted.less
    (hCounted : Counted n σ)
    (c : Connection)
    (hPerm : σ.outstanding.Perm (c :: σ'.outstanding))
    (hActive : σ'.ledger.active = σ.ledger.active - 1)
    (hNext : σ'.ledger.connections = σ.ledger.connections) :
    Turnover σ σ' := by
  refine .counted c hPerm ?_ hNext
  have hLength := hPerm.length_eq
  rw [List.length_cons] at hLength
  have hAll := hCounted.active
  omega

------------------------------------------------------------
-- Steps
------------------------------------------------------------

/- What holds of scenes and carries the count. -/
structure Booked
    (n : Nat)
    (σ : Scene) : Prop where
  sound : Sound σ
  returns : σ.ledger.Returns
  counted : Counted n σ
  opened : ∀ c ∈ σ.outstanding, ∃ r,
    .opened r (some c) ∈ σ.ledger.log

/- Steps in the background open and give back what they note. -/
theorem turnover_around
    {ss : List Session}
    {os : List Operation}
    {l l' : Ledger}
    (hBooked : Booked n ⟨ss, os, l⟩)
    (h : l.Step l') :
    Turnover ⟨ss, os, l⟩ ⟨ss, os, l'⟩ := by
  have hNodup := hBooked.sound.numbered.tasks
  have hCounted := hBooked.counted
  have hKept {l' : Ledger}
      (hSame : l'.outstanding = l.outstanding)
      (hActive : l'.active = l.active)
      (hNext : l'.connections = l.connections) :
      Turnover ⟨ss, os, l⟩ ⟨ss, os, l'⟩ := by
    refine .kept ?_ hActive hNext
    rw [outstanding, outstanding, hSame]
  cases h with
  | noted => exact hKept rfl rfl rfl
  | continued later hTasks =>
      exact hKept (Ledger.outstanding_inState hTasks rfl rfl)
        rfl rfl
  | concluded hTasks =>
      exact hKept (Ledger.outstanding_inState hTasks rfl rfl)
        rfl rfl
  | died hTasks =>
      exact hKept (Ledger.outstanding_inState hTasks rfl rfl)
        rfl rfl
  | timedOut hTasks =>
      exact hKept (Ledger.outstanding_inState hTasks rfl rfl)
        rfl rfl
  | @committed a b c es hJobs =>
      refine hCounted.less c (outstanding_less ?_) rfl rfl
      exact Ledger.outstanding_committed hJobs rfl rfl
  | @released a b id inTransaction t c result es hJobs hTask =>
      refine hCounted.less t.connection (outstanding_less ?_)
        rfl rfl
      exact Ledger.outstanding_ended hNodup hTask hJobs rfl rfl
  | @forgotten a b id inTransaction t hJobs hTask =>
      refine hCounted.less t.connection (outstanding_less ?_)
        rfl rfl
      exact Ledger.outstanding_ended hNodup hTask hJobs rfl rfl
  | void hJobs =>
      exact hKept (Ledger.outstanding_afterTask hJobs rfl rfl)
        rfl rfl

/- The task of an operation is there. -/
theorem Claimed.operation_task
    {o : Operation}
    (hClaimed : Claimed σ)
    (hMem : o ∈ σ.operations) :
    ∃ t, σ.ledger.task? o.task = some t := by
  have hClaim : o.claim ∈ σ.claims :=
    List.mem_append_left _ (List.mem_map.mpr ⟨o, hMem, rfl⟩)
  have hId : o.task ∈ σ.ledger.taskIds :=
    hClaimed.mem_iff.mp (List.mem_map.mpr ⟨_, hClaim, rfl⟩)
  rcases List.mem_map.mp hId with ⟨t, hT, hSame⟩
  have hSome : (σ.ledger.task? o.task).isSome := by
    refine List.find?_isSome.mpr ⟨t, hT, ?_⟩
    exact beq_iff_eq.mpr hSame
  exact Option.isSome_iff_exists.mp hSome

/-
  Each step of a scene moves, opens or gives back connections
  as it counts them.
-/
theorem turnover_step
    (hBooked : Booked n σ)
    (h : Step may σ σ') : Turnover σ σ' := by
  have hNodup := hBooked.sound.numbered.tasks
  have hPaired := hBooked.sound.paired
  have hCounted := hBooked.counted
  cases h with
  | rearranged hSessions =>
      exact .kept ((hSessions.filterMap _).append_right _) rfl rfl
  | around h => exact turnover_around hBooked h
  | made r m =>
      exact .kept (.of_eq (outstanding_closed rfl).symm) rfl rfl
  | @changed ss os l s => exact .kept (.refl _) rfl rfl
  | @opened ss os l s hLink =>
      refine .opened s.repository ?_ rfl rfl ?_
      · rw [outstanding_closed hLink]
        exact .of_eq (outstanding_opened rfl).symm
      · exact List.mem_append_left _
          (List.mem_append_right _ (List.mem_singleton_self _))
  | @closed ss os l s c ok hLink =>
      refine hCounted.less c ?_ rfl rfl
      rw [outstanding_opened hLink, outstanding_closed rfl]
      rfl
  | @discarded ss os l s c hLink =>
      refine hCounted.less c ?_ rfl rfl
      rw [outstanding_opened hLink, outstanding_closed rfl]
      rfl
  | began => exact .kept (.refl _) rfl rfl
  | refused => exact .kept (.refl _) rfl rfl
  | ended => exact .kept (.refl _) rfl rfl
  | cleared => exact .kept (.refl _) rfl rfl
  | @started ss os l s c b kind context limit deadline time hLink =>
      refine .kept ?_ rfl rfl
      rw [outstanding_opened hLink, outstanding_busy rfl]
      refine (outstanding_less ?_).symm
      exact Ledger.outstanding_start
        (l.ask c (Progress.start b).statement) ⟨_, _, _, _, _⟩
  | @returned ss os l s c o t result hSession hTask hState =>
      have hBusy := (hPaired.busy o (List.mem_cons_self ..) s
        (List.mem_cons_self ..) hSession).1
      have hOwn := hBooked.returns t
        (List.mem_of_find?_eq_some hTask) c result hState
      refine .kept ?_ rfl rfl
      rw [outstanding_busy hBusy, outstanding_opened rfl, hOwn]
      exact outstanding_less (Ledger.outstanding_forget hNodup hTask)
  | @lost ss os l s o hSession =>
      have hBusy := (hPaired.busy o (List.mem_cons_self ..) s
        (List.mem_cons_self ..) hSession).1
      rcases hBooked.sound.claimed.operation_task
        (List.mem_cons_self ..) with ⟨t, hTask⟩
      refine hCounted.less t.connection ?_ rfl rfl
      rw [outstanding_busy hBusy, outstanding_closed rfl]
      exact outstanding_less (Ledger.outstanding_forget hNodup hTask)
  | dropped o =>
      refine .kept ?_ rfl rfl
      simp only [outstanding, Ledger.outstanding_job,
        Job.connection?, Option.toList_none, List.append_nil]
      rfl
  | left hLink =>
      exact .kept (.of_eq (outstanding_other hLink)) rfl rfl
  | @leftOpen ss os l s c ok hLink =>
      refine hCounted.less c ?_ rfl rfl
      rw [outstanding_opened hLink]
      rfl
  | leftInTransaction hLink =>
      refine .kept ?_ rfl rfl
      rw [outstanding_opened hLink]
      refine (outstanding_less ?_).symm
      rw [Ledger.outstanding_job]
      exact List.perm_append_singleton ..

theorem returns_step
    (hReturns : σ.ledger.Returns)
    (h : Step may σ σ') : σ'.ledger.Returns := by
  cases h with
  | around h => exact hReturns.around h
  | started =>
      intro t hT
      rcases List.mem_append.mp hT with hOld | hNew
      · exact hReturns t hOld
      · rw [List.mem_singleton.mp hNew]
        nofun
  | returned =>
      exact hReturns.less fun _ => List.mem_of_mem_filter
  | lost => exact hReturns.less fun _ => List.mem_of_mem_filter
  | _ => exact hReturns

/- Every connection to be given back was opened. -/
theorem opened_turnover
    (hOpened : ∀ c ∈ σ.outstanding, ∃ r,
      .opened r (some c) ∈ σ.ledger.log)
    (hLog : σ.ledger.log <+: σ'.ledger.log)
    (h : Turnover σ σ') :
    ∀ c ∈ σ'.outstanding, ∃ r,
      .opened r (some c) ∈ σ'.ledger.log := by
  have hOld : ∀ c ∈ σ.outstanding, ∃ r,
      .opened r (some c) ∈ σ'.ledger.log := by
    intro c hC
    rcases hOpened c hC with ⟨r, hMem⟩
    exact ⟨r, hLog.subset hMem⟩
  intro c hC
  cases h with
  | kept hPerm => exact hOld c (hPerm.mem_iff.mpr hC)
  | opened r hPerm hActive hNext hNew =>
      rcases List.mem_cons.mp (hPerm.mem_iff.mpr hC) with
        hThis | hC
      · rw [hThis]
        exact ⟨r.name, hNew⟩
      · exact hOld c hC
  | counted c' hPerm =>
      exact hOld c
        (hPerm.mem_iff.mpr (List.mem_cons_of_mem _ hC))

/-
  Leaving a session or an operation behind keeps the count of
  connections exact.
-/
theorem Booked.parting
    (hBooked : Booked n σ)
    (h : Parting cut σ σ') : Turnover σ σ' ∧ Booked n σ' := by
  have hSound := hBooked.sound.parting h
  have hTurnover : Turnover σ σ' := by
    cases h with
    | stepped h => exact turnover_step hBooked h
    | @discarded ss os l s c hLink =>
        refine hBooked.counted.less c (.of_eq ?_) rfl rfl
        exact outstanding_opened hLink
    | stopped o =>
        rcases hBooked.sound.claimed.operation_task
          (List.mem_cons_self ..) with ⟨t, hTask⟩
        refine hBooked.counted.less t.connection
          (outstanding_less ?_) rfl rfl
        exact Ledger.outstanding_forget
          hBooked.sound.numbered.tasks hTask
  have hReturns : σ'.ledger.Returns := by
    cases h with
    | stepped h => exact returns_step hBooked.returns h
    | discarded => exact hBooked.returns
    | stopped =>
        exact hBooked.returns.less fun _ => List.mem_of_mem_filter
  exact ⟨hTurnover, hSound, hReturns,
    hBooked.counted.turnover hTurnover,
    opened_turnover hBooked.opened h.log_grows hTurnover⟩

/-
  Leaving things behind gives back what they hold, and the
  count stays exact.
-/
theorem Booked.partings
    (hBooked : Booked n σ)
    (h : Partings cut σ σ') :
    Turnovers cut σ σ' ∧ Booked n σ' := by
  induction h with
  | refl => exact ⟨.refl, hBooked⟩
  | tail _ hParting ih =>
      rcases ih.2.parting hParting with ⟨hTurnover, hLast⟩
      exact ⟨ih.1.tail ⟨hParting, hTurnover⟩, hLast⟩

end Scene

end Failover
