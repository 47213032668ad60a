import Failover.Proofs.Common
import Failover.Proofs.Scene.Step
import Mathlib.Data.List.Nodup

/-
  Numbers in every scene that sessions and operations come
  to: each session and each task has one of its own, and each
  task is one operation's or one job's.

  Key definitions include:
    * `Scene.Numbered`
    * `Scene.claims`, `Scene.Claimed`

  Main statements:
    * `Scene.Numbered.step`
    * `Scene.Claimed.step`
-/

namespace Failover

------------------------------------------------------------
-- Numbers
------------------------------------------------------------

namespace Ledger

def taskIds (l : Ledger) : List Nat :=
  l.tasks.map (·.id)

theorem taskIds_forget
    (l : Ledger)
    (id : Nat) :
    (l.forget id).taskIds.Sublist l.taskIds :=
  List.filter_sublist.map _

/- The background starts no tasks. -/
theorem Step.taskIds
    {l l' : Ledger}
    (h : l.Step l') :
    l'.taskIds.Sublist l.taskIds ∧ l'.started = l.started := by
  cases h with
  | noted => exact ⟨.refl _, rfl⟩
  | continued later hTasks =>
      refine ⟨?_, rfl⟩
      simp [Ledger.taskIds, hTasks, withTasks, Task.inState]
  | concluded hTasks =>
      refine ⟨?_, rfl⟩
      simp [Ledger.taskIds, hTasks, withTasks, Task.inState]
  | died hTasks =>
      refine ⟨?_, rfl⟩
      simp [Ledger.taskIds, hTasks, withTasks, Task.inState]
  | timedOut hTasks =>
      refine ⟨?_, rfl⟩
      simp [Ledger.taskIds, hTasks, withTasks, Task.inState]
  | committed => exact ⟨.refl _, rfl⟩
  | released => exact ⟨taskIds_forget _ _, rfl⟩
  | forgotten => exact ⟨taskIds_forget _ _, rfl⟩
  | void => exact ⟨.refl _, rfl⟩

end Ledger

namespace Scene

variable {may : Nat → Prop} {σ σ' : Scene}

def sessionIds (σ : Scene) : List Nat :=
  σ.sessions.map (·.id)

/- Sessions and tasks are numbered in turn. -/
structure Numbered (σ : Scene) : Prop where
  sessions : σ.sessionIds.Nodup
  made : ∀ i ∈ σ.sessionIds, i < σ.ledger.sessions
  tasks : σ.ledger.taskIds.Nodup
  started : ∀ i ∈ σ.ledger.taskIds, i < σ.ledger.started

/- Numbers may be forgotten. -/
theorem Numbered.less
    (h : Numbered σ)
    (hSessions : σ'.sessionIds.Sublist σ.sessionIds)
    (hTasks : σ'.ledger.taskIds.Sublist σ.ledger.taskIds)
    (hMade : σ'.ledger.sessions = σ.ledger.sessions)
    (hStarted : σ'.ledger.started = σ.ledger.started) :
    Numbered σ' where
  sessions := h.sessions.sublist hSessions
  made := fun i hI => hMade ▸ h.made i (hSessions.subset hI)
  tasks := h.tasks.sublist hTasks
  started := fun i hI => hStarted ▸ h.started i (hTasks.subset hI)

/- Numbers are forgotten, or the next one is taken. -/
theorem Numbered.step
    (hNumbered : Numbered σ)
    (h : Step may σ σ') :
    Numbered σ' := by
  cases h with
  | rearranged hS hO =>
      have hIds := hS.map (·.id)
      rcases hNumbered with ⟨hSessions, hMade, hTasks, hStarted⟩
      refine ⟨hIds.nodup_iff.mp hSessions, ?_, hTasks, hStarted⟩
      exact fun i hI => hMade i (hIds.mem_iff.mpr hI)
  | around h =>
      rcases h.taskIds with ⟨hTasks, hStarted⟩
      exact hNumbered.less (.refl _) hTasks h.sessions_eq hStarted
  | made r n =>
      rcases hNumbered with ⟨hSessions, hMade, hTasks, hStarted⟩
      refine ⟨?_, ?_, hTasks, hStarted⟩
      · refine List.nodup_cons.mpr ⟨fun hMem => ?_, hSessions⟩
        exact Nat.lt_irrefl _ (hMade _ hMem)
      · intro i hI
        rcases List.mem_cons.mp hI with rfl | hI
        · exact Nat.lt_succ_self _
        · exact Nat.lt_succ_of_lt (hMade i hI)
  | started kind context limit deadline time hLink hBound hC =>
      rcases hNumbered with ⟨hSessions, hMade, hTasks, hStarted⟩
      refine ⟨hSessions, hMade, ?_, ?_⟩
      · simpa [Ledger.taskIds, Ledger.start, Ledger.ask] using
          nodup_snoc hTasks hStarted
      · intro i hI
        simp only [Ledger.taskIds, Ledger.start, Ledger.ask,
          List.map_append, List.map_cons, List.map_nil,
          List.mem_append, List.mem_singleton] at hI ⊢
        rcases hI with hI | rfl
        · exact Nat.lt_succ_of_lt (hStarted i hI)
        · exact Nat.lt_succ_self _
  | returned =>
      exact hNumbered.less (.refl _)
        (Ledger.taskIds_forget _ _) rfl rfl
  | lost =>
      exact hNumbered.less (.refl _)
        (Ledger.taskIds_forget _ _) rfl rfl
  | left =>
      exact hNumbered.less (List.sublist_cons_self ..) (.refl _)
        rfl rfl
  | leftOpen =>
      exact hNumbered.less (List.sublist_cons_self ..) (.refl _)
        rfl rfl
  | leftInTransaction =>
      exact hNumbered.less (List.sublist_cons_self ..) (.refl _)
        rfl rfl
  | _ => exact hNumbered.less (.refl _) (.refl _) rfl rfl

------------------------------------------------------------
-- Claims
------------------------------------------------------------

end Scene

/- The task that a job is for, with its transaction. -/
def Job.claim? : Job → Option (Nat × Bool)
  | .afterTask id inTransaction => some (id, inTransaction)
  | .commit _ => none

/- The task of an operation, with its transaction. -/
def Operation.claim (o : Operation) : Nat × Bool :=
  (o.task, o.context.inTransaction)

namespace Scene

/- The tasks whose ends someone is to take. -/
def claims (σ : Scene) : List (Nat × Bool) :=
  σ.operations.map (·.claim) ++ σ.ledger.jobs.filterMap Job.claim?

/- Every task is claimed by one alone. -/
def Claimed (σ : Scene) : Prop :=
  (σ.claims.map (·.1)).Perm σ.ledger.taskIds

end Scene

/- The tasks that are not forgotten, and the one that is. -/
theorem Ledger.perm_forget
    {l : Ledger}
    {id : Nat}
    (hNodup : l.taskIds.Nodup)
    (hMem : id ∈ l.taskIds) :
    l.taskIds.Perm (id :: (l.forget id).taskIds) := by
  have hFilter :
      (l.forget id).taskIds = l.taskIds.filter (· != id) := by
    simp [taskIds, forget, List.filter_map, Function.comp_def]
  have hErase : l.taskIds.filter (· != id) = l.taskIds.erase id :=
    (hNodup.erase_eq_filter id).symm
  rw [hFilter, hErase]
  exact List.perm_cons_erase hMem

namespace Scene

/- Claims may be taken in another order. -/
theorem Claimed.perm
    (hClaimed : Claimed σ)
    (hPerm : σ.claims.Perm σ'.claims)
    (hTasks : σ'.ledger.taskIds = σ.ledger.taskIds) :
    Claimed σ' := by
  have hIds : (σ.claims.map (·.1)).Perm (σ'.claims.map (·.1)) :=
    hPerm.map _
  rw [Claimed, hTasks]
  exact hIds.symm.trans hClaimed

/-
  Claims and tasks still match when a claim is met and its
  task forgotten.
-/
theorem Claimed.forget
    {l : Ledger}
    {xs ys : List (Nat × Bool)}
    {x : Nat × Bool}
    (hNodup : l.taskIds.Nodup)
    (hClaimed : (xs.map (·.1)).Perm l.taskIds)
    (hPerm : xs.Perm (x :: ys)) :
    (ys.map (·.1)).Perm (l.forget x.1).taskIds := by
  have hIds : (xs.map (·.1)).Perm (x.1 :: ys.map (·.1)) :=
    hPerm.map (·.1)
  have hFirst : (x.1 :: ys.map (·.1)).Perm l.taskIds :=
    hIds.symm.trans hClaimed
  have hMem : x.1 ∈ l.taskIds :=
    hFirst.mem_iff.mp (List.mem_cons_self ..)
  exact (hFirst.trans (Ledger.perm_forget hNodup hMem)).cons_inv

/- A job stands among others with its claim. -/
theorem claims_job
    {ss : List Session}
    {os : List Operation}
    {l : Ledger}
    {a b : List Job}
    {id : Nat}
    {inTransaction : Bool}
    (hJobs : l.jobs = a ++ .afterTask id inTransaction :: b) :
    (claims ⟨ss, os, l⟩).Perm ((id, inTransaction) ::
      claims ⟨ss, os, l.withJobs (a ++ b)⟩) := by
  have hThis :
      Job.claim? (.afterTask id inTransaction) =
        some (id, inTransaction) := rfl
  simp only [claims, hJobs, Ledger.withJobs,
    List.filterMap_append, List.filterMap_cons_some hThis]
  rw [← List.append_assoc, ← List.append_assoc]
  exact List.perm_middle

/- A commit claims nothing. -/
theorem claims_commit
    {ss : List Session}
    {os : List Operation}
    {l : Ledger}
    {a b : List Job}
    {c : Connection}
    (hJobs : l.jobs = a ++ .commit c :: b) :
    claims ⟨ss, os, l⟩ =
      claims ⟨ss, os, l.withJobs (a ++ b)⟩ := by
  have hThis : Job.claim? (.commit c) = none := rfl
  simp only [claims, hJobs, Ledger.withJobs,
    List.filterMap_append, List.filterMap_cons_none hThis]

/- The states of tasks do not matter. -/
theorem Claimed.inState
    {ss : List Session}
    {os : List Operation}
    {l l' : Ledger}
    {a b : List Task}
    {t : Task}
    {state : Task.State}
    (hClaimed : Claimed ⟨ss, os, l⟩)
    (hTasks : l.tasks = a ++ t :: b)
    (hOther : l'.tasks = a ++ t.inState state :: b)
    (hJobs : l'.jobs = l.jobs) :
    Claimed ⟨ss, os, l'⟩ := by
  have hIds : l'.taskIds = l.taskIds := by
    simp [Ledger.taskIds, hTasks, hOther, Task.inState]
  simp only [Claimed, claims, hJobs, hIds] at hClaimed ⊢
  exact hClaimed

/- The task of a job is there. -/
theorem Claimed.exists_task
    {ss : List Session}
    {os : List Operation}
    {l : Ledger}
    {a b : List Job}
    {id : Nat}
    {inTransaction : Bool}
    (hClaimed : Claimed ⟨ss, os, l⟩)
    (hJobs : l.jobs = a ++ .afterTask id inTransaction :: b) :
    l.task? id ≠ none := by
  intro hNone
  have hPerm : (claims ⟨ss, os, l⟩).Perm _ := claims_job hJobs
  have hMem : id ∈ l.taskIds :=
    hClaimed.mem_iff.mp (List.mem_map.mpr
      ⟨_, hPerm.mem_iff.mpr (List.mem_cons_self ..), rfl⟩)
  rcases List.mem_map.mp hMem with ⟨t, hT, hId⟩
  have hNot := List.find?_eq_none.mp hNone t hT
  simp [hId] at hNot

theorem Claimed.around
    {ss : List Session}
    {os : List Operation}
    {l l' : Ledger}
    (hNodup : l.taskIds.Nodup)
    (hClaimed : Claimed ⟨ss, os, l⟩)
    (h : l.Step l') :
    Claimed ⟨ss, os, l'⟩ := by
  cases h with
  | noted => exact hClaimed
  | continued later hTasks => exact hClaimed.inState hTasks rfl rfl
  | concluded hTasks => exact hClaimed.inState hTasks rfl rfl
  | died hTasks => exact hClaimed.inState hTasks rfl rfl
  | timedOut hTasks => exact hClaimed.inState hTasks rfl rfl
  | committed hJobs =>
      have hClaims : claims ⟨ss, os, l⟩ = _ := claims_commit hJobs
      exact hClaimed.perm (.of_eq hClaims) rfl
  | released hJobs =>
      exact Claimed.forget hNodup hClaimed (claims_job hJobs)
  | forgotten hJobs =>
      exact Claimed.forget hNodup hClaimed (claims_job hJobs)
  | void hJobs hTask =>
      exact absurd hTask (hClaimed.exists_task hJobs)

/- An operation leaves its claim to a job. -/
theorem claims_dropped
    {ss : List Session}
    {o : Operation}
    {os : List Operation}
    {l : Ledger} :
    (claims ⟨ss, o :: os, l⟩).Perm
      (claims ⟨ss, os, l.withJobs (l.jobs ++
        [.afterTask o.task o.context.inTransaction])⟩) := by
  simp only [claims, Ledger.withJobs,
    List.filterMap_append, List.map_cons, List.cons_append]
  rw [← List.append_assoc]
  exact (List.perm_append_singleton ..).symm

/- Claims pass from operations to jobs, and are met there. -/
theorem Claimed.step
    (hNumbered : Numbered σ)
    (hClaimed : Claimed σ)
    (h : Step may σ σ') :
    Claimed σ' := by
  cases h with
  | @rearranged ss ss' os os' l hS hO =>
      have hPerm : (claims ⟨ss, os, l⟩).Perm
          (claims ⟨ss', os', l⟩) :=
        (hO.map (·.claim)).append_right _
      exact hClaimed.perm hPerm rfl
  | around h => exact hClaimed.around hNumbered.tasks h
  | @started ss os l s c b kind context limit deadline =>
      have hCons := List.Perm.cons l.started hClaimed
      refine hCons.trans ?_
      simp only [Ledger.taskIds, Ledger.start, Ledger.ask,
        List.map_append, List.map_cons, List.map_nil]
      exact (List.perm_append_singleton ..).symm
  | returned hSession hTask hState =>
      exact Claimed.forget hNumbered.tasks hClaimed (.refl _)
  | lost hSession hTask =>
      exact Claimed.forget hNumbered.tasks hClaimed (.refl _)
  | dropped o => exact hClaimed.perm claims_dropped rfl
  | @leftInTransaction ss os l s c =>
      have hClaims : claims ⟨s :: ss, os, l⟩ = claims ⟨ss, os,
          l.withJobs (l.jobs ++ [.commit c])⟩ := by
        simp [claims, Ledger.withJobs, Job.claim?]
      exact hClaimed.perm (.of_eq hClaims) rfl
  | _ => exact hClaimed

end Scene

end Failover
