import Failover.Proofs.Scene.Sound

/-
  Who holds which connection in a scene: sessions, the tasks
  of operations and jobs, and commits in the background.

  Key definitions include:
    * `Ledger.own?`
    * `Scene.holdings`, `Scene.custody`

  Main statements:
    * `Scene.Step.custody`
    * `Scene.Steps.custody`
-/

namespace Failover

------------------------------------------------------------
-- Tasks
------------------------------------------------------------

/- The connection that a task has, or gives back. -/
def Task.own? (t : Task) : Option Connection :=
  match t.state with
  | .waiting _ _ _ => some t.connection
  | .finished c _ => some c
  | .stopped _ => none
  | .died => none

/- A task that is lost owns no connection. -/
theorem Task.IsLost.own?
    {t : Task}
    (h : t.IsLost) : t.own? = none := by
  rcases h with ⟨f, hState⟩ | hState
  · simp [Task.own?, hState]
  · simp [Task.own?, hState]

namespace Ledger

def own?
    (l : Ledger)
    (id : Nat) : Option Connection :=
  (l.task? id).bind Task.own?

theorem task?_eq_some
    {l : Ledger}
    {id : Nat}
    {t : Task}
    (hTask : l.task? id = some t) : t.id = id := by
  simpa using List.find?_some hTask

/- A task other than the one that came to another state. -/
theorem task?_other
    {l l' : Ledger}
    {a b : List Task}
    {t : Task}
    {state : Task.State}
    {id : Nat}
    (hTasks : l.tasks = a ++ t :: b)
    (hOther : l'.tasks = a ++ t.inState state :: b)
    (hNe : id ≠ t.id) : l'.task? id = l.task? id := by
  have hNot : (t.id == id) = false := beq_false_of_ne (Ne.symm hNe)
  simp [Ledger.task?, hTasks, hOther, List.find?_append,
    Task.inState, hNot]

/- The task that came to another state. -/
theorem task?_this
    {l : Ledger}
    {a b : List Task}
    {t : Task}
    (hNodup : l.taskIds.Nodup)
    (hTasks : l.tasks = a ++ t :: b) :
    l.task? t.id = some t := by
  have hNone : a.find? (·.id == t.id) = none := by
    refine List.find?_eq_none.mpr fun x hX hSame => ?_
    rw [taskIds, hTasks, List.map_append, List.map_cons] at hNodup
    have hApart := (List.nodup_append.mp hNodup).2.2
    exact hApart x.id (List.mem_map.mpr ⟨x, hX, rfl⟩) t.id
      (List.mem_cons_self ..) (by simpa using hSame)
  simp [Ledger.task?, hTasks, List.find?_append, hNone]

/-
  A session has its own connection still when a task comes to
  another state with the same connection.
-/
theorem own?_inState
    {l l' : Ledger}
    {a b : List Task}
    {t : Task}
    {state : Task.State}
    (hNodup : l.taskIds.Nodup)
    (hTasks : l.tasks = a ++ t :: b)
    (hOther : l'.tasks = a ++ t.inState state :: b)
    (hOwn : (t.inState state).own? = t.own?) :
    l'.own? = l.own? := by
  funext id
  by_cases hThis : id = t.id
  · subst hThis
    have hNodup' : l'.taskIds.Nodup := by
      simpa [taskIds, hTasks, hOther, Task.inState] using hNodup
    have hOld := task?_this hNodup hTasks
    have hNew : l'.task? t.id = some (t.inState state) :=
      task?_this hNodup' hOther
    rw [own?, own?, hOld, hNew]
    exact hOwn
  · rw [own?, own?, task?_other hTasks hOther hThis]

/- A task that is left has the connection it had. -/
theorem own?_of_task?
    {l l' : Ledger}
    {id : Nat}
    {c : Connection}
    (hTask : ∀ t, l'.task? id = some t → l.task? id = some t)
    (hOwn : l'.own? id = some c) : l.own? id = some c := by
  rcases Option.bind_eq_some_iff.mp hOwn with ⟨t, hT, hHas⟩
  exact Option.bind_eq_some_iff.mpr ⟨t, hTask t hT, hHas⟩

/-
  A connection that a task owns in another state it owned
  before.
-/
theorem own?_of_inState
    {l l' : Ledger}
    {a b : List Task}
    {t : Task}
    {state : Task.State}
    {id : Nat}
    {c : Connection}
    (hNodup : l.taskIds.Nodup)
    (hTasks : l.tasks = a ++ t :: b)
    (hOther : l'.tasks = a ++ t.inState state :: b)
    (hLess : (t.inState state).own? = some c → t.own? = some c)
    (hOwn : l'.own? id = some c) : l.own? id = some c := by
  by_cases hThis : id = t.id
  · subst hThis
    have hNodup' : l'.taskIds.Nodup := by
      simpa [taskIds, hTasks, hOther, Task.inState] using hNodup
    have hNew : l'.task? t.id = some (t.inState state) :=
      task?_this hNodup' hOther
    rw [own?, hNew] at hOwn
    rw [own?, task?_this hNodup hTasks]
    exact hLess hOwn
  · rw [own?, task?_other hTasks hOther hThis] at hOwn
    exact hOwn

/- Forgetting a task leaves the others as they are. -/
theorem task?_forget
    {l : Ledger}
    {id id' : Nat}
    (hNe : id' ≠ id) :
    (l.forget id).task? id' = l.task? id' := by
  simp only [Ledger.task?, forget, List.find?_filter]
  congr 1
  funext t
  by_cases hSame : t.id = id'
  · simp [hSame, hNe]
  · simp [hSame]

/-
  A task that is left when another is forgotten was there
  before.
-/
theorem task?_of_forget
    {l : Ledger}
    {id id' : Nat}
    {t : Task}
    (h : (l.forget id).task? id' = some t) :
    l.task? id' = some t := by
  by_cases hSame : id' = id
  · have hMem := List.mem_of_find?_eq_some h
    have hOther : t.id ≠ id := by
      simpa using (List.mem_filter.mp hMem).2
    exact absurd ((task?_eq_some h).trans hSame) hOther
  · rw [← h, task?_forget hSame]

/- Forgetting a task leaves the connections of the others. -/
theorem own?_forget
    {l : Ledger}
    {id id' : Nat}
    (hNe : id' ≠ id) :
    (l.forget id).own? id' = l.own? id' := by
  rw [own?, own?, task?_forget hNe]

------------------------------------------------------------
-- Claims
------------------------------------------------------------

/- The connection of a task, marked with its transaction. -/
def holding?
    (l : Ledger)
    (x : Nat × Bool) : Option (Connection × Bool) :=
  (l.own? x.1).map fun c => (c, x.2)

def holdings
    (l : Ledger)
    (xs : List (Nat × Bool)) : List (Connection × Bool) :=
  xs.filterMap l.holding?

theorem holdings_cons_some
    {l : Ledger}
    {id : Nat}
    {c : Connection}
    (b : Bool)
    (xs : List (Nat × Bool))
    (hOwn : l.own? id = some c) :
    l.holdings ((id, b) :: xs) = (c, b) :: l.holdings xs := by
  simp [holdings, holding?, hOwn]

theorem holdings_cons_none
    {l : Ledger}
    {id : Nat}
    (b : Bool)
    (xs : List (Nat × Bool))
    (hOwn : l.own? id = none) :
    l.holdings ((id, b) :: xs) = l.holdings xs := by
  simp [holdings, holding?, hOwn]

/- Holdings depend on the connections of their tasks only. -/
theorem holdings_congr
    {l l' : Ledger}
    {xs : List (Nat × Bool)}
    (h : ∀ x ∈ xs, l'.own? x.1 = l.own? x.1) :
    l'.holdings xs = l.holdings xs :=
  List.filterMap_congr fun x hX => by
    rw [holding?, holding?, h x hX]

end Ledger

------------------------------------------------------------
-- Holdings
------------------------------------------------------------

/- The connection of a session that is not at work. -/
def Session.holding? (s : Session) : Option (Connection × Bool) :=
  match s.link with
  | .opened c => some (c, s.inTransaction)
  | _ => none

/- The connection of a job that has no task. -/
def Job.holding? : Job → Option (Connection × Bool)
  | .commit c => some (c, true)
  | .afterTask _ _ => none

namespace Scene

def holdings (σ : Scene) : List (Connection × Bool) :=
  σ.sessions.filterMap (·.holding?) ++
    (σ.ledger.holdings σ.claims ++
      σ.ledger.jobs.filterMap Job.holding?)

def custody (σ : Scene) : Custody where
  held := σ.holdings
  opened := σ.ledger.connections
  log := σ.ledger.log

theorem holdings_opened
    {s : Session}
    {ss : List Session}
    {os : List Operation}
    {l : Ledger}
    {c : Connection}
    (hLink : s.link = .opened c) :
    holdings ⟨s :: ss, os, l⟩ =
      (c, s.inTransaction) :: holdings ⟨ss, os, l⟩ := by
  have hHolds : s.holding? = some (c, s.inTransaction) := by
    simp [Session.holding?, hLink]
  simp only [holdings, List.filterMap_cons_some hHolds,
    List.cons_append]
  rfl

theorem holdings_other
    {s : Session}
    {ss : List Session}
    {os : List Operation}
    {l : Ledger}
    (hLink : ∀ c, s.link ≠ .opened c) :
    holdings ⟨s :: ss, os, l⟩ = holdings ⟨ss, os, l⟩ := by
  have hHolds : s.holding? = none := by
    unfold Session.holding?
    split
    · exact absurd ‹_› (hLink _)
    · rfl
  simp only [holdings, List.filterMap_cons_none hHolds]
  rfl

/-
  What leaves the connections of tasks and the jobs as they
  are leaves the holdings.
-/
theorem holdings_still
    {ss : List Session}
    {os : List Operation}
    {l l' : Ledger}
    (hOwn : l'.own? = l.own?)
    (hJobs : l'.jobs = l.jobs) :
    holdings ⟨ss, os, l'⟩ = holdings ⟨ss, os, l⟩ := by
  have hClaims : claims ⟨ss, os, l'⟩ = claims ⟨ss, os, l⟩ := by
    simp only [claims, hJobs]
  have hSame : l'.holdings (claims ⟨ss, os, l⟩) =
      l.holdings (claims ⟨ss, os, l⟩) :=
    Ledger.holdings_congr fun x _ => congrFun hOwn x.1
  simp only [holdings, hClaims, hSame, hJobs]

/- Claims may be taken in another order. -/
theorem holdings_perm
    {ss : List Session}
    {os os' : List Operation}
    {l l' : Ledger}
    (hClaims : (l.holdings (claims ⟨ss, os, l⟩)).Perm
      (l'.holdings (claims ⟨ss, os', l'⟩)))
    (hJobs : l'.jobs.filterMap Job.holding? =
      l.jobs.filterMap Job.holding?) :
    (holdings ⟨ss, os, l⟩).Perm (holdings ⟨ss, os', l'⟩) := by
  simp only [holdings, hJobs]
  exact (hClaims.append_right _).append_left _

/- A connection that a claim adds is added to the holdings. -/
theorem holdings_claim
    {ss : List Session}
    {os os' : List Operation}
    {l l' : Ledger}
    {x : Connection × Bool}
    (hClaims : (l.holdings (claims ⟨ss, os, l⟩)).Perm
      (x :: l'.holdings (claims ⟨ss, os', l'⟩)))
    (hJobs : l'.jobs.filterMap Job.holding? =
      l.jobs.filterMap Job.holding?) :
    (holdings ⟨ss, os, l⟩).Perm
      (x :: holdings ⟨ss, os', l'⟩) := by
  simp only [holdings, hJobs]
  refine ((hClaims.append_right _).append_left _).trans ?_
  exact List.perm_middle

------------------------------------------------------------
-- The background
------------------------------------------------------------

/- The claims but one are for other tasks. -/
theorem Claimed.apart
    {σ : Scene}
    {id : Nat}
    {b : Bool}
    {xs : List (Nat × Bool)}
    (hNodup : σ.ledger.taskIds.Nodup)
    (hClaimed : Claimed σ)
    (hPerm : σ.claims.Perm ((id, b) :: xs)) :
    ∀ x ∈ xs, x.1 ≠ id := by
  intro x hX hSame
  have hIds : (σ.claims.map (·.1)).Perm (id :: xs.map (·.1)) :=
    hPerm.map (·.1)
  have hOnce : (id :: xs.map (·.1)).Nodup :=
    (hIds.symm.trans hClaimed).nodup_iff.mpr hNodup
  exact (List.nodup_cons.mp hOnce).1
    (List.mem_map.mpr ⟨x, hX, hSame⟩)

/- A task is claimed. -/
theorem Claimed.split
    {σ : Scene}
    {id : Nat}
    (hClaimed : Claimed σ)
    (hMem : id ∈ σ.ledger.taskIds) :
    ∃ b xs, σ.claims.Perm ((id, b) :: xs) := by
  rcases List.mem_map.mp (hClaimed.mem_iff.mpr hMem) with
    ⟨⟨id, b⟩, hX, rfl⟩
  exact ⟨b, _, List.perm_cons_erase hX⟩

/- A task that ends without its connection held it. -/
theorem holdings_ended
    {ss : List Session}
    {os : List Operation}
    {l l' : Ledger}
    {a b : List Task}
    {t : Task}
    {state : Task.State}
    {c : Connection}
    (hNodup : l.taskIds.Nodup)
    (hClaimed : Claimed ⟨ss, os, l⟩)
    (hTasks : l.tasks = a ++ t :: b)
    (hOther : l'.tasks = a ++ t.inState state :: b)
    (hJobs : l'.jobs = l.jobs)
    (hOwn : t.own? = some c)
    (hNone : (t.inState state).own? = none) :
    ∃ mark, (holdings ⟨ss, os, l⟩).Perm
      ((c, mark) :: holdings ⟨ss, os, l'⟩) := by
  have hMem : t.id ∈ l.taskIds := by
    simp [Ledger.taskIds, hTasks]
  have hNodup' : l'.taskIds.Nodup := by
    simpa [Ledger.taskIds, hTasks, hOther, Task.inState]
      using hNodup
  have hOld : l.own? t.id = some c := by
    rw [Ledger.own?, Ledger.task?_this hNodup hTasks]
    exact hOwn
  have hNew : l'.own? t.id = none := by
    have hTask : l'.task? t.id = some (t.inState state) :=
      Ledger.task?_this hNodup' hOther
    rw [Ledger.own?, hTask]
    exact hNone
  rcases hClaimed.split hMem with ⟨mark, xs, hPerm⟩
  have hApart := hClaimed.apart hNodup hPerm
  have hSame : l'.holdings xs = l.holdings xs := by
    refine Ledger.holdings_congr fun x hX => ?_
    rw [Ledger.own?, Ledger.own?,
      Ledger.task?_other hTasks hOther (hApart x hX)]
  have hClaims : claims ⟨ss, os, l'⟩ = claims ⟨ss, os, l⟩ := by
    simp only [claims, hJobs]
  have hBefore : (l.holdings (claims ⟨ss, os, l⟩)).Perm
      ((c, mark) :: l.holdings xs) := by
    rw [← Ledger.holdings_cons_some mark xs hOld]
    exact hPerm.filterMap _
  have hAfter : (l'.holdings (claims ⟨ss, os, l'⟩)).Perm
      (l.holdings xs) := by
    rw [hClaims, ← hSame,
      ← Ledger.holdings_cons_none mark xs hNew]
    exact hPerm.filterMap _
  refine ⟨mark, holdings_claim ?_ (by rw [hJobs])⟩
  exact hBefore.trans (hAfter.symm.cons _)

/- The task of a claim is forgotten. -/
theorem holdings_forget
    {σ : Scene}
    {id : Nat}
    {b : Bool}
    {xs : List (Nat × Bool)}
    (hNodup : σ.ledger.taskIds.Nodup)
    (hClaimed : Claimed σ)
    (hPerm : σ.claims.Perm ((id, b) :: xs)) :
    (σ.ledger.holdings σ.claims).Perm
      (σ.ledger.holdings ((id, b) :: xs)) ∧
    (σ.ledger.forget id).holdings xs = σ.ledger.holdings xs :=
  ⟨hPerm.filterMap _, Ledger.holdings_congr fun x hX =>
    Ledger.own?_forget (hClaimed.apart hNodup hPerm x hX)⟩

end Scene

namespace Custody

variable {backend : String → Backend}

/-
  Custody does not depend on the order in which connections
  are listed.
-/
theorem Steps.arranged
    {held held' : List (Connection × Bool)}
    {n : Nat}
    {log : List Event}
    {κ : Custody}
    (hPerm : held.Perm held')
    (h : Steps backend ⟨held', n, log⟩ κ) :
    Steps backend ⟨held, n, log⟩ κ :=
  .head (.arranged hPerm) h

/- A connection that is released is not held any more. -/
theorem Steps.released
    {held : List (Connection × Bool)}
    {n : Nat}
    {log es : List Event}
    {c : Connection}
    {inTransaction : Bool}
    (h : Released c inTransaction es) :
    Steps backend ⟨(c, inTransaction) :: held, n, log⟩
      ⟨held, n, log ++ es⟩ := by
  cases h with
  | plain ok => exact .single (.closed c ok)
  | committed ok =>
      rw [List.append_cons]
      exact .tail (.single (.ended c .commit true)) (.closed c ok)
  | failed =>
      rw [List.append_cons]
      exact .tail (.single (.ended c .commit false))
        (.discarded c false)

end Custody

namespace Scene

/-
  Events aside from sessions say nothing of who has a
  connection.
-/
theorem isQuiet_aside
    {e : Event}
    (h : e.isAside = true) : e.isQuiet = true := by
  cases e <;> first | exact h | rfl | cases h

/- The job of a task holds nothing by itself. -/
theorem holding?_afterTask
    {l : Ledger}
    {a b : List Job}
    {id : Nat}
    {inTransaction : Bool}
    (hJobs : l.jobs = a ++ .afterTask id inTransaction :: b) :
    (a ++ b).filterMap Job.holding? =
      l.jobs.filterMap Job.holding? := by
  have hNone :
      (Job.afterTask id inTransaction).holding? = none := rfl
  rw [hJobs, List.filterMap_append, List.filterMap_append,
    List.filterMap_cons_none hNone]

/- The job of a task is done, whose connection is released. -/
theorem custody_released
    {ss : List Session}
    {os : List Operation}
    {l : Ledger}
    {a b : List Job}
    {id : Nat}
    {inTransaction : Bool}
    {c : Connection}
    {es : List Event}
    (hNodup : l.taskIds.Nodup)
    (hClaimed : Claimed ⟨ss, os, l⟩)
    (hJobs : l.jobs = a ++ .afterTask id inTransaction :: b)
    (hOwn : l.own? id = some c)
    (hEvents : Released c inTransaction es) :
    Custody.Steps l.backend (custody ⟨ss, os, l⟩)
      (custody ⟨ss, os,
        ((l.forget id).add es).close.withJobs (a ++ b)⟩) := by
  have hPerm : (claims ⟨ss, os, l⟩).Perm _ := claims_job hJobs
  rcases holdings_forget hNodup hClaimed hPerm with
    ⟨hBefore, hAfter⟩
  rw [Ledger.holdings_cons_some _ _ hOwn] at hBefore
  have hHeld : (holdings ⟨ss, os, l⟩).Perm
      ((c, inTransaction) :: holdings ⟨ss, os,
        ((l.forget id).add es).close.withJobs (a ++ b)⟩) := by
    refine holdings_claim (hBefore.trans ?_) ?_
    · exact (List.Perm.of_eq hAfter.symm).cons _
    · exact holding?_afterTask hJobs
  exact .arranged hHeld (.released hEvents)

/- The job of a task is done that gives nothing back. -/
theorem custody_forgotten
    {ss : List Session}
    {os : List Operation}
    {l : Ledger}
    {a b : List Job}
    {id : Nat}
    {inTransaction : Bool}
    (hNodup : l.taskIds.Nodup)
    (hClaimed : Claimed ⟨ss, os, l⟩)
    (hJobs : l.jobs = a ++ .afterTask id inTransaction :: b)
    (hOwn : l.own? id = none) :
    Custody.Steps l.backend (custody ⟨ss, os, l⟩)
      (custody ⟨ss, os,
        (l.forget id).close.withJobs (a ++ b)⟩) := by
  have hPerm : (claims ⟨ss, os, l⟩).Perm _ := claims_job hJobs
  rcases holdings_forget hNodup hClaimed hPerm with
    ⟨hBefore, hAfter⟩
  rw [Ledger.holdings_cons_none _ _ hOwn] at hBefore
  refine .single (.arranged (holdings_perm ?_ ?_))
  · exact hBefore.trans (List.Perm.of_eq hAfter.symm)
  · exact holding?_afterTask hJobs

/- Steps in the background are steps of custody. -/
theorem custody_around
    {ss : List Session}
    {os : List Operation}
    {l l' : Ledger}
    (hSound : Sound ⟨ss, os, l⟩)
    (h : l.Step l') :
    Custody.Steps l.backend (custody ⟨ss, os, l⟩)
      (custody ⟨ss, os, l'⟩) := by
  have hNodup : l.taskIds.Nodup := hSound.numbered.tasks
  have hClaimed : Claimed ⟨ss, os, l⟩ := hSound.claimed
  cases h with
  | noted e hAside => exact .single (.noted e (isQuiet_aside hAside))
  | @continued a b t time p q reply later hTasks hState =>
      let state : Task.State := .waiting later q
        (l.reply? t.connection q.statement)
      have hOwn : ((l.ask t.connection q.statement).withTasks
          (a ++ t.inState state :: b)).own? = l.own? :=
        Ledger.own?_inState hNodup hTasks rfl
          (by simp [Task.own?, hState, Task.inState, state])
      have hHeld : holdings ⟨ss, os, _⟩ = holdings ⟨ss, os, l⟩ :=
        holdings_still hOwn rfl
      rw [custody, custody, hHeld]
      exact .single (.noted _ rfl)
  | @concluded a b t time p reply result hTasks hState =>
      have hOwn : (l.withTasks (a ++
          t.inState (.finished t.connection result) ::
            b)).own? = l.own? :=
        Ledger.own?_inState hNodup hTasks rfl
          (by simp [Task.own?, hState, Task.inState])
      have hHeld : holdings ⟨ss, os, _⟩ = holdings ⟨ss, os, l⟩ :=
        holdings_still hOwn rfl
      rw [custody, custody, hHeld]
      exact .refl
  | @died a b t time p hTasks hState =>
      have hMem : t ∈ l.tasks := by
        simp [hTasks]
      have hSilent : IsSilent l.backend t.connection l.log :=
        hSound.answered.awaited t hMem time p hState
      have hHeld : ∃ mark, (holdings ⟨ss, os, l⟩).Perm
          ((t.connection, mark) :: holdings ⟨ss, os,
            l.withTasks (a ++ t.inState .died :: b)⟩) :=
        holdings_ended hNodup hClaimed hTasks rfl rfl
          (by simp [Task.own?, hState]) rfl
      rcases hHeld with ⟨mark, hHeld⟩
      exact .arranged hHeld (.single (.lost _ mark hSilent))
  | @timedOut a b t time p reply hTasks hState =>
      let state : Task.State := .stopped (.timeout
        t.connection.repository "Command" t.limit)
      have hHeld : ∃ mark, (holdings ⟨ss, os, l⟩).Perm
          ((t.connection, mark) :: holdings ⟨ss, os,
            (l.add [.discarded t.connection]).withTasks
              (a ++ t.inState state :: b)⟩) :=
        holdings_ended hNodup hClaimed hTasks rfl rfl
          (by simp [Task.own?, hState]) rfl
      rcases hHeld with ⟨mark, hHeld⟩
      exact .arranged hHeld (.single (.discarded _ mark))
  | @committed a b c es hJobs hEvents =>
      have hHolds : (Job.commit c).holding? = some (c, true) := rfl
      have hClaims : claims ⟨ss, os, l⟩ = _ := claims_commit hJobs
      have hHeld : (holdings ⟨ss, os, l⟩).Perm
          ((c, true) :: holdings ⟨ss, os,
            (l.add es).close.withJobs (a ++ b)⟩) := by
        simp only [holdings, hClaims, hJobs, Ledger.withJobs,
          List.filterMap_append, List.filterMap_cons_some hHolds]
        rw [← List.append_assoc, ← List.append_assoc,
          ← List.append_assoc, ← List.append_assoc]
        exact List.perm_middle
      exact .arranged hHeld (.released hEvents)
  | released hJobs hTask hState hEvents =>
      refine custody_released hNodup hClaimed hJobs ?_ hEvents
      simp [Ledger.own?, hTask, Task.own?, hState]
  | forgotten hJobs hTask hLost =>
      refine custody_forgotten hNodup hClaimed hJobs ?_
      simp [Ledger.own?, hTask, hLost.own?]
  | void hJobs hTask =>
      exact absurd hTask (hClaimed.exists_task hJobs)

------------------------------------------------------------
-- Sessions and operations
------------------------------------------------------------

variable {may : Nat → Prop} {σ σ' : Scene}

/- A new task is found, and the others as before. -/
theorem task?_start
    {l l' : Ledger}
    {t : Task}
    (hStarted : ∀ i ∈ l.taskIds, i < t.id)
    (hTasks : l'.tasks = l.tasks ++ [t]) :
    l'.task? t.id = some t ∧
    ∀ id ∈ l.taskIds, l'.task? id = l.task? id := by
  refine ⟨?_, fun id hMem => ?_⟩
  · have hNone : l.tasks.find? (·.id == t.id) = none := by
      refine List.find?_eq_none.mpr fun x hX hSame => ?_
      have hLess := hStarted x.id (List.mem_map.mpr ⟨x, hX, rfl⟩)
      rw [beq_iff_eq.mp hSame] at hLess
      exact Nat.lt_irrefl _ hLess
    simp [Ledger.task?, hTasks, List.find?_append, hNone]
  · have hNe : t.id ≠ id := Nat.ne_of_gt (hStarted id hMem)
    simp [Ledger.task?, hTasks, List.find?_append, hNe]

/- The connection passes from a session to its operation. -/
theorem holdings_started
    {s s' : Session}
    {ss : List Session}
    {o : Operation}
    {os : List Operation}
    {l l' : Ledger}
    {c : Connection}
    {t : Task}
    (hNumbered : Numbered ⟨s :: ss, os, l⟩)
    (hClaimed : Claimed ⟨s :: ss, os, l⟩)
    (hLink : s.link = .opened c)
    (hBusy : s'.link = .busy)
    (hTask : o.task = t.id)
    (hMark : o.context.inTransaction = s.inTransaction)
    (hOwn : t.own? = some c)
    (hId : t.id = l.started)
    (hTasks : l'.tasks = l.tasks ++ [t])
    (hJobs : l'.jobs = l.jobs) :
    (holdings ⟨s :: ss, os, l⟩).Perm
      (holdings ⟨s' :: ss, o :: os, l'⟩) := by
  have hStarted : ∀ i ∈ l.taskIds, i < t.id :=
    hId ▸ hNumbered.started
  rcases task?_start hStarted hTasks with ⟨hThis, hOther⟩
  have hClaims : claims ⟨ss, o :: os, l'⟩ =
      (o.task, s.inTransaction) :: claims ⟨s :: ss, os, l⟩ := by
    simp [claims, Operation.claim, hMark, hJobs]
  have hMem : ∀ x ∈ claims ⟨s :: ss, os, l⟩, x.1 ∈ l.taskIds :=
    fun x hX => hClaimed.mem_iff.mp (List.mem_map.mpr ⟨x, hX, rfl⟩)
  have hSame : l'.holdings (claims ⟨s :: ss, os, l⟩) =
      l.holdings (claims ⟨s :: ss, os, l⟩) :=
    Ledger.holdings_congr fun x hX => by
      rw [Ledger.own?, Ledger.own?, hOther x.1 (hMem x hX)]
  have hFirst : l'.own? o.task = some c := by
    rw [hTask, Ledger.own?, hThis]
    exact hOwn
  have hHeld : holdings ⟨s' :: ss, o :: os, l'⟩ =
      holdings ⟨ss, o :: os, l'⟩ :=
    holdings_other (by simp [hBusy])
  rw [holdings_opened hLink, hHeld]
  simp only [holdings, hClaims, hJobs,
    Ledger.holdings_cons_some _ _ hFirst, hSame]
  exact List.perm_middle.symm

/- The connection comes back from an operation. -/
theorem holdings_returned
    {s s' : Session}
    {ss : List Session}
    {o : Operation}
    {os : List Operation}
    {l : Ledger}
    {c : Connection}
    (hNodup : l.taskIds.Nodup)
    (hClaimed : Claimed ⟨s :: ss, o :: os, l⟩)
    (hBusy : s.link = .busy)
    (hMark : o.context.inTransaction = s'.inTransaction)
    (hLink : s'.link = .opened c)
    (hOwn : l.own? o.task = some c) :
    (holdings ⟨s :: ss, o :: os, l⟩).Perm
      (holdings ⟨s' :: ss, os, l.forget o.task⟩) := by
  have hPerm : (claims ⟨s :: ss, o :: os, l⟩).Perm
      ((o.task, o.context.inTransaction) ::
        claims ⟨ss, os, l.forget o.task⟩) := .refl _
  rcases holdings_forget hNodup hClaimed hPerm with
    ⟨hBefore, hAfter⟩
  rw [Ledger.holdings_cons_some _ _ hOwn, hMark] at hBefore
  have hHeld : holdings ⟨s :: ss, o :: os, l⟩ =
      holdings ⟨ss, o :: os, l⟩ :=
    holdings_other (by simp [hBusy])
  rw [holdings_opened hLink, hHeld]
  refine holdings_claim (hBefore.trans ?_) rfl
  exact (List.Perm.of_eq hAfter.symm).cons _

/-
  An operation that gives no connection back leaves the
  others' holdings.
-/
theorem holdings_lost
    {s s' : Session}
    {ss : List Session}
    {o : Operation}
    {os : List Operation}
    {l l' : Ledger}
    (hNodup : l.taskIds.Nodup)
    (hClaimed : Claimed ⟨s :: ss, o :: os, l⟩)
    (hBusy : s.link = .busy)
    (hLink : s'.link = .closed)
    (hOwn : l.own? o.task = none)
    (hTasks : l'.tasks = (l.forget o.task).tasks)
    (hJobs : l'.jobs = l.jobs) :
    (holdings ⟨s :: ss, o :: os, l⟩).Perm
      (holdings ⟨s' :: ss, os, l'⟩) := by
  have hPerm : (claims ⟨s :: ss, o :: os, l⟩).Perm
      ((o.task, o.context.inTransaction) ::
        claims ⟨ss, os, l⟩) := .refl _
  rcases holdings_forget hNodup hClaimed hPerm with
    ⟨hBefore, hAfter⟩
  rw [Ledger.holdings_cons_none _ _ hOwn] at hBefore
  have hOwn' : l'.own? = (l.forget o.task).own? := by
    funext id
    simp only [Ledger.own?, Ledger.task?, hTasks]
  have hOld : holdings ⟨s :: ss, o :: os, l⟩ =
      holdings ⟨ss, o :: os, l⟩ :=
    holdings_other (by simp [hBusy])
  have hNew : holdings ⟨s' :: ss, os, l'⟩ =
      holdings ⟨ss, os, l.forget o.task⟩ :=
    (holdings_other (by simp [hLink])).trans
      (holdings_still hOwn' hJobs)
  rw [hOld, hNew]
  exact holdings_perm (hBefore.trans (.of_eq hAfter.symm)) rfl

/- A step of a scene is some steps of custody. -/
theorem Step.custody
    (hSound : Sound σ)
    (h : Step may σ σ') :
    Custody.Steps σ.ledger.backend σ.custody σ'.custody := by
  have hNodup := hSound.numbered.tasks
  cases h with
  | @rearranged ss ss' os os' l hS hO =>
      have hClaims : (claims ⟨ss, os, l⟩).Perm
          (claims ⟨ss', os', l⟩) :=
        (hO.map (·.claim)).append_right _
      have hHeld : (holdings ⟨ss, os, l⟩).Perm
          (holdings ⟨ss', os', l⟩) :=
        (hS.filterMap _).append
          ((hClaims.filterMap _).append_right _)
      exact .single (.arranged hHeld)
  | around h => exact custody_around hSound h
  | @made ss os l r n =>
      have hHeld : holdings ⟨⟨l.sessions, r, n, none, none, .closed,
            false, false⟩ :: ss, os,
          { l with sessions := l.sessions + 1 }⟩ =
          holdings ⟨ss, os, l⟩ :=
        holdings_other nofun
      rw [Scene.custody, Scene.custody, hHeld]
  | changed command bound disposed => exact .refl
  | @opened ss os l s hLink =>
      have hOld : holdings ⟨s :: ss, os, l⟩ =
          holdings ⟨ss, os, l⟩ :=
        holdings_other (by simp [hLink])
      rw [Scene.custody, hOld]
      exact .tail (.single (.opened s.repository.name _))
        (.noted _ rfl)
  | @closed ss os l s c ok hLink hTransaction =>
      rw [Scene.custody, holdings_opened hLink, hTransaction]
      exact .tail (.single (.closed c ok)) (.noted _ rfl)
  | @discarded ss os l s c hLink =>
      rw [Scene.custody, holdings_opened hLink]
      exact .tail (.single (.discarded c _)) (.noted _ rfl)
  | @began ss os l s c hLink hTransaction =>
      have hNew : holdings
          ⟨{ s with inTransaction := true } :: ss, os,
            l.add [.called .begin c true]⟩ =
          (c, true) :: holdings ⟨ss, os, l⟩ :=
        holdings_opened hLink
      rw [Scene.custody, Scene.custody, holdings_opened hLink,
        hTransaction, hNew]
      exact .single (.began c)
  | refused => exact .single (.noted _ rfl)
  | @ended ss os l s c e ok hLink hTransaction =>
      have hNew : holdings
          ⟨{ s with inTransaction := false } :: ss, os,
            l.add [.called e.call c ok]⟩ =
          (c, false) :: holdings ⟨ss, os, l⟩ :=
        holdings_opened hLink
      rw [Scene.custody, Scene.custody, holdings_opened hLink,
        hTransaction, hNew]
      exact .single (.ended c e ok)
  | @cleared ss os l s hLink hTransaction =>
      have hOld : holdings ⟨s :: ss, os, l⟩ =
          holdings ⟨ss, os, l⟩ :=
        holdings_other (by simp [hLink])
      have hNew : holdings
          ⟨{ s with inTransaction := false } :: ss, os, l⟩ =
          holdings ⟨ss, os, l⟩ :=
        holdings_other (by simp [hLink])
      rw [Scene.custody, Scene.custody, hOld, hNew]
  | @started ss os l s c b kind context limit deadline time
      hLink hBound hMark =>
      let s₀ := (Progress.start b).statement
      let t : Task := ⟨l.started, c, limit, deadline,
        .waiting time (.start b) (l.reply? c s₀)⟩
      have hHeld : (holdings ⟨s :: ss, os, l⟩).Perm (holdings
          ⟨{ s with link := .busy } :: ss,
            ⟨s.id, kind, l.started, context⟩ :: os,
            (l.ask c s₀).start t⟩) :=
        holdings_started (t := t) hSound.numbered hSound.claimed
          hLink rfl rfl hMark rfl rfl rfl rfl
      exact .arranged hHeld (.single (.noted _ rfl))
  | @returned ss os l s c o t result hSession hTask hState =>
      have hPaired := hSound.paired.busy o (List.mem_cons_self ..)
        s (List.mem_cons_self ..) hSession
      have hOwn : l.own? o.task = some c := by
        simp [Ledger.own?, hTask, Task.own?, hState]
      exact .single (.arranged (holdings_returned hNodup
        hSound.claimed hPaired.1 hPaired.2 rfl hOwn))
  | @lost ss os l s o hSession hTask =>
      have hPaired := hSound.paired.busy o (List.mem_cons_self ..)
        s (List.mem_cons_self ..) hSession
      have hOwn : l.own? o.task = none := by
        rcases hThis : l.task? o.task with _ | t
        · simp [Ledger.own?, hThis]
        · simp [Ledger.own?, hThis, (hTask t hThis).own?]
      let s' := { s with link := .closed, inTransaction := false }
      have hHeld : (holdings ⟨s :: ss, o :: os, l⟩).Perm (holdings
          ⟨s' :: ss, os, (l.forget o.task).unlink s.repository⟩) :=
        holdings_lost hNodup hSound.claimed hPaired.1 rfl hOwn rfl
          rfl
      exact .arranged hHeld (.single (.noted _ rfl))
  | @dropped ss os l o =>
      let l' := l.withJobs (l.jobs ++
        [.afterTask o.task o.context.inTransaction])
      have hClaims : (claims ⟨ss, o :: os, l⟩).Perm
          (claims ⟨ss, os, l'⟩) :=
        claims_dropped
      have hJobs : l'.jobs.filterMap Job.holding? =
          l.jobs.filterMap Job.holding? :=
        (holding?_afterTask (b := []) rfl).symm.trans
          (by rw [List.append_nil])
      exact .single (.arranged
        (holdings_perm (hClaims.filterMap _) hJobs))
  | @left ss os l s hLink =>
      have hOld : holdings ⟨s :: ss, os, l⟩ =
          holdings ⟨ss, os, l⟩ :=
        holdings_other hLink
      rw [Scene.custody, hOld]
      rfl
  | @leftOpen ss os l s c ok hLink hTransaction =>
      rw [Scene.custody, holdings_opened hLink, hTransaction]
      exact .single (.closed c ok)
  | @leftInTransaction ss os l s c hLink hTransaction =>
      have hClaims : claims ⟨ss, os,
          l.withJobs (l.jobs ++ [.commit c])⟩ =
            claims ⟨ss, os, l⟩ := by
        simp [claims, Ledger.withJobs, Job.claim?]
      have hHeld : holdings ⟨ss, os,
          l.withJobs (l.jobs ++ [.commit c])⟩ =
            holdings ⟨ss, os, l⟩ ++ [(c, true)] := by
        have hJobs : (l.withJobs (l.jobs ++ [.commit c])).jobs =
            l.jobs ++ [.commit c] := rfl
        simp only [holdings, hClaims, hJobs,
          List.filterMap_append, ← List.append_assoc]
        rfl
      rw [Scene.custody, Scene.custody, holdings_opened hLink,
        hTransaction, hHeld]
      exact .single (.arranged
        (List.perm_append_singleton ..).symm)

/- The engines stay as they are. -/
theorem Step.backend_eq
    (h : Step may σ σ') :
    σ'.ledger.backend = σ.ledger.backend := by
  cases h with
  | around h => cases h <;> rfl
  | _ => rfl

/-
  A run of a scene is a run of custody, by induction on
  its steps.
-/
theorem Steps.custody
    (hSound : Sound σ)
    (h : Steps may σ σ') :
    σ'.ledger.backend = σ.ledger.backend ∧
    Custody.Steps σ.ledger.backend σ.custody σ'.custody := by
  induction h with
  | refl => exact ⟨rfl, .refl⟩
  | tail hSteps hStep ih =>
      rcases ih with ⟨hBackend, hCustody⟩
      have hNext := hStep.custody (hSound.steps hSteps)
      rw [hBackend] at hNext
      exact ⟨hStep.backend_eq.trans hBackend, hCustody.trans hNext⟩

end Scene

end Failover
