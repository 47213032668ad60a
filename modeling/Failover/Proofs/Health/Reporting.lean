import Failover.Proofs.Effect.Keeps

/-
  Failures are counted for a repository and reported with its
  name, at different places and not always at one time.  The
  books are kept of both: what is counted was reported before
  or is reported meanwhile.  Calls of engines, waiting, and
  what goes on in the background are silent: no outcome is
  counted or told there, and no failure is reported that would
  be counted.

  Key definitions include:
    * `complaints`
    * `Event.isSilent`, `World.Silent`
    * `Incident`
    * `counted`, `complained`
    * `World.Books`
    * `World.Accounts`

  Main statements:
    * `World.await_silent`, `World.pass_silent`
    * `World.runJobs_silent`
    * `World.Accounts.trans`, `World.Accounts.frame`
    * `World.Accounts.counts`
-/

namespace Failover

------------------------------------------------------------
-- Events
------------------------------------------------------------

/- What failures that are counted are reported with. -/
def complaints : List String :=
  ["Failed to bind command", "Failed to open connection",
    "Command execution failed", "Failed to read next row",
    "Failed to advance to next result"]

/- An event that tells no outcome. -/
def Event.isSilent : Event → Bool
  | .commandEnded _ _ _ => false
  | .connectionFailed _ => false
  | .recorded _ _ => false
  | .reported _ message _ => decide (message ∉ complaints)
  | _ => true

/- No outcome is counted, and none is told. -/
structure World.Silent (w w' : World) : Prop where
  health : w'.health = w.health
  news : ∃ es, w'.log = w.log ++ es ∧
    ∀ e ∈ es, e.isSilent = true

namespace World.Silent

variable {w w₁ w' : World}

/-
  What leaves health and log as they are counts and tells no
  outcome.
-/
theorem same
    (hHealth : w'.health = w.health)
    (hLog : w'.log = w.log) : w.Silent w' :=
  ⟨hHealth, [], hLog.trans (List.append_nil _).symm, nofun⟩

/- An event that is no outcome counts and tells none. -/
theorem noted
    {e : Event}
    (hSilent : e.isSilent = true)
    (hHealth : w'.health = w.health)
    (hLog : w'.log = w.log ++ [e]) : w.Silent w' :=
  ⟨hHealth, [e], hLog, fun _ hMem =>
    List.mem_singleton.mp hMem ▸ hSilent⟩

/- Two silences are one. -/
theorem trans
    (h : w.Silent w₁)
    (hNext : w₁.Silent w') : w.Silent w' := by
  refine ⟨hNext.health.trans h.health, ?_⟩
  rcases h.news with ⟨es, hFirst, hSilent⟩
  rcases hNext.news with ⟨fs, hLast, hStill⟩
  refine ⟨es ++ fs, ?_, ?_⟩
  · rw [hLast, hFirst, List.append_assoc]
  · intro e hMem
    exact (List.mem_append.mp hMem).elim (hSilent e) (hStill e)

instance : IsPreorder World Silent where
  refl _ := .same rfl rfl
  trans _ _ _ := trans

end World.Silent

namespace World

open Effect (Keeps)

------------------------------------------------------------
-- Calls
------------------------------------------------------------

/- An event that tells no outcome may be noted. -/
theorem note_silent
    {e : Event}
    (hSilent : e.isSilent = true) : Keeps Silent (note e) :=
  fun _ => .noted hSilent rfl rfl

/- An engine is asked in silence. -/
theorem refused?_silent
    (repository : String)
    (call : Call) : Keeps Silent (refused? repository call) :=
  fun _ => .same rfl rfl

theorem callOn_silent
    (c : Connection)
    (call : Call) : Keeps Silent (callOn c call) :=
  fun _ => .noted rfl rfl rfl

/- Binding is a call at most. -/
theorem bindCommand_silent
    (r : Repository)
    (c : Command) : Keeps Silent (bindCommand r c) := by
  unfold bindCommand
  split
  · refine (refused?_silent r.name .bind).bind fun f => ?_
    refine (note_silent rfl).bind fun _ => ?_
    cases f <;> exact .pure _
  · exact .pure _

/- Opening tells of a connection, but of no outcome. -/
theorem openConnection_silent
    (repository : String) :
    Keeps Silent (openConnection repository) := by
  unfold openConnection
  refine (refused?_silent repository .opening).bind fun f => ?_
  cases f with
  | some f => exact (note_silent rfl).bind fun _ => .pure _
  | none =>
      refine .bind (fun _ => .same rfl rfl) fun c => ?_
      exact (note_silent rfl).bind fun _ => .pure _

/- Ranking takes turns and tells nothing. -/
theorem rank_silent (k : Cluster) : Keeps Silent (rank k) := by
  unfold rank
  cases k.available with
  | error f => exact .pure _
  | ok _ => exact .bind (fun _ => .same rfl rfl) fun _ => .pure _

------------------------------------------------------------
-- Tasks
------------------------------------------------------------

theorem timeOut_silent
    (t : Task) : Keeps Silent (timeOut t) :=
  fun _ => .noted rfl rfl rfl

/- The induction is on the number of statements left. -/
theorem send_silent
    (t : Task)
    (p : Progress) : Keeps Silent (send t p) := by
  induction hSize : p.size using Nat.strongRecOn
    generalizing p with
  | _ n ih =>
  subst hSize
  unfold send
  refine .bind (fun _ => .noted rfl rfl rfl) fun r => ?_
  split
  · split
    · exact .pure _
    · split
      · exact .pure _
      · next q hNext =>
        exact ih q.size (Progress.size_receive hNext) q rfl
  · refine .get_bind fun w => ?_
    simp only
    split
    · exact timeOut_silent t
    · exact .pure _

/- A task that goes on sends statements only. -/
theorem goOn_silent (t : Task) : Keeps Silent (goOn t) := by
  unfold goOn
  split
  · next time p reply hState =>
    refine .get_bind fun w => ?_
    simp only
    split
    · refine .bind ?_ fun _ => .pure _
      unfold take
      split
      · exact .pure _
      · split
        · exact .pure _
        · exact send_silent t _
    · split
      · exact (timeOut_silent t).bind fun _ => .pure _
      · exact .pure _
  · exact .pure _

/- Work begins without a word on its outcome. -/
theorem spawn_silent
    (c : Connection)
    (limit : Nat)
    (b : BoundCommand) : Keeps Silent (spawn c limit b) := by
  intro w
  unfold spawn
  rw [Effect.ends_bind, Effect.ends_get]
  simp only
  rw [Effect.ends_bind, Effect.ends_set]
  refine (send_silent _ _ _).bind fun state w₁ hSent => ?_
  have hNumbered : w.Silent { w with started := w.started + 1 } :=
    .same rfl rfl
  exact (hNumbered.trans hSent).trans (.same rfl rfl)

------------------------------------------------------------
-- Background
------------------------------------------------------------

/- A job in the background tells no outcome. -/
theorem runJob_silent (j : Job) : Keeps Silent (runJob j) := by
  have hRelease (c : Connection) (inTransaction : Bool) :
      Keeps Silent (releaseDetached c inTransaction) := by
    unfold releaseDetached
    split
    · refine (callOn_silent c .commit).bind fun r => ?_
      cases r with
      | ok _ => exact callOn_silent c .close
      | error f => exact note_silent rfl
    · exact callOn_silent c .close
  unfold runJob
  split
  · exact (hRelease _ true).bind fun _ _ => .same rfl rfl
  · refine .get_bind fun w => ?_
    split
    · exact .pure _
    · simp only
      split
      · exact .pure _
      · refine .bind (fun _ => .same rfl rfl) fun _ => ?_
        split
        · exact (hRelease _ _).bind fun _ _ => .same rfl rfl
        · exact fun _ => .same rfl rfl

/- The work in the background counts no outcome and tells none. -/
theorem runJobs_silent : Keeps Silent runJobs := by
  have hEach (js : List Job) : Keeps Silent (runEach js) := by
    induction js with
    | nil => exact .pure _
    | cons j js ih =>
        refine (runJob_silent j).bind fun isDone => ?_
        exact ih.bind fun _ => .pure _
  unfold runJobs
  refine .get_bind fun w => (hEach _).bind ?_
  exact fun _ _ => .same rfl rfl

------------------------------------------------------------
-- Time
------------------------------------------------------------

/- A time that comes lets tasks end, and says nothing. -/
theorem arrive_silent
    (time : Nat) : Keeps Silent (arrive time) := by
  unfold arrive
  refine .bind (fun _ => .same rfl rfl) fun _ =>
    .get_bind fun w => ?_
  refine (Keeps.mapM goOn_silent _).bind fun _ => ?_
  exact .bind (fun _ => .same rfl rfl) fun _ => runJobs_silent

/- Time that passes is a sequence of such times. -/
theorem pass_silent
    (millis : Nat) : Keeps Silent (pass millis) := by
  have hPass (finish fuel : Nat) :
      Keeps Silent (passFor finish fuel) := by
    induction fuel with
    | zero => exact .pure _
    | succ fuel ih =>
        unfold passFor
        refine .get_bind fun w => ?_
        split
        · split
          · exact (arrive_silent _).bind fun _ => ih
          · exact .pure _
        · exact .pure _
  unfold pass
  refine .get_bind fun w => (hPass _ _).bind fun _ => ?_
  exact fun _ => .same rfl rfl

/- Waiting for a task counts no outcome. -/
theorem await_silent
    (id : Nat) : Keeps Silent (await id) := by
  have hPass (fuel : Nat) :
      Keeps Silent (passUntilEnd id fuel) := by
    induction fuel with
    | zero => exact .pure _
    | succ fuel ih =>
        unfold passUntilEnd
        refine .get_bind fun w => ?_
        split
        · exact .pure _
        · split
          · split
            · exact (arrive_silent _).bind fun _ => ih
            · exact .pure _
          · exact .pure _
  unfold await
  refine .get_bind fun w => (hPass _).bind fun _ => ?_
  exact fun _ => .same rfl rfl

end World

------------------------------------------------------------
-- Incidents
------------------------------------------------------------

/- A failure at the repository of a name. -/
abbrev Incident := String × Failure

/- The failure that is counted by an event. -/
def Event.counted? : Event → Option Incident
  | .recorded repository (some f) => some (repository, f)
  | _ => none

/- The failure that is reported as one that is counted. -/
def Event.complained? : Event → Option Incident
  | .reported repository message f =>
      if message ∈ complaints then some (repository, f) else none
  | _ => none

def counted (es : List Event) : List Incident :=
  es.filterMap Event.counted?

def complained (es : List Event) : List Incident :=
  es.filterMap Event.complained?

/- Two logs count together what each counts. -/
@[simp] theorem counted_append (es fs : List Event) :
    counted (es ++ fs) = counted es ++ counted fs :=
  List.filterMap_append

/- They report together what each reports. -/
@[simp] theorem complained_append (es fs : List Event) :
    complained (es ++ fs) = complained es ++ complained fs :=
  List.filterMap_append

/- Silent events count no incident. -/
theorem counted_silent
    {es : List Event}
    (h : ∀ e ∈ es, e.isSilent = true) : counted es = [] := by
  refine List.filterMap_eq_nil_iff.mpr fun e hMem => ?_
  have hSilent := h e hMem
  cases e <;> first | rfl | cases hSilent

/- Events that tell no outcome complain of nothing. -/
theorem complained_silent
    {es : List Event}
    (h : ∀ e ∈ es, e.isSilent = true) : complained es = [] := by
  refine List.filterMap_eq_nil_iff.mpr fun e hMem => ?_
  have hSilent := h e hMem
  cases e with
  | reported repository message f =>
      exact if_neg (of_decide_eq_true hSilent)
  | _ => rfl

------------------------------------------------------------
-- Books
------------------------------------------------------------

/-
  What is counted and what is reported from one world to
  another, with the numbers of failures.
-/
structure World.Books
    (w : World)
    (cs rs : List Incident)
    (w' : World) : Prop where
  failures : ∀ name, (w'.health name).failures =
    (w.health name).failures + cs.countP (·.1 == name)
  news : ∃ es, w'.log = w.log ++ es ∧
    counted es = cs ∧ complained es = rs

namespace World

variable {w w₁ w' : World}

/- Where no outcome is counted none has to be reported. -/
theorem Silent.books
    (h : w.Silent w') : w.Books [] [] w' := by
  rcases h.news with ⟨es, hLog, hSilent⟩
  refine ⟨fun name => ?_, es, hLog, counted_silent hSilent,
    complained_silent hSilent⟩
  rw [h.health]
  rfl

/- Entries of the books follow one another. -/
theorem Books.trans
    {cs rs ds ts : List Incident}
    (h : w.Books cs rs w₁)
    (hNext : w₁.Books ds ts w') :
    w.Books (cs ++ ds) (rs ++ ts) w' := by
  rcases h.news with ⟨es, hFirst, rfl, rfl⟩
  rcases hNext.news with ⟨fs, hLast, rfl, rfl⟩
  refine ⟨fun name => ?_, es ++ fs, ?_, counted_append es fs,
    complained_append es fs⟩
  · rw [hNext.failures, h.failures, List.countP_append,
      Nat.add_assoc]
  · rw [hLast, hFirst, List.append_assoc]

/- An event that counts nothing reports what it complains of. -/
theorem Books.noted
    {e : Event}
    (hCounted : e.counted? = none)
    (hHealth : w'.health = w.health)
    (hLog : w'.log = w.log ++ [e]) :
    w.Books [] e.complained?.toList w' := by
  refine ⟨fun name => ?_, [e], hLog, ?_, ?_⟩
  · rw [hHealth]
    rfl
  · rw [counted, List.filterMap_cons_none hCounted]
    rfl
  · cases hComplained : e.complained? with
    | none =>
        rw [complained, List.filterMap_cons_none hComplained]
        rfl
    | some x =>
        rw [complained, List.filterMap_cons_some hComplained]
        rfl

/- A failure is counted, and nothing else. -/
theorem recordFailure_books
    (repository : String)
    (f : Failure)
    (w : World) :
    Effect.Ends (recordFailure repository f) w fun _ w' =>
      w.Books [(repository, f)] [] w' := by
  refine ⟨fun name => ?_, [.recorded repository (some f)], rfl,
    rfl, rfl⟩
  change (update w.health repository _ name).failures = _
  by_cases hThis : name = repository
  · subst hThis
    simp [update, Health.recordFailure_health]
  · have hOther : ¬ repository = name := fun h => hThis h.symm
    simp [update, hThis, hOther]

/- A success counts no failure. -/
theorem recordSuccess_books
    (repository : String)
    (started : Nat)
    (w : World) :
    Effect.Ends (recordSuccess repository started) w fun _ w' =>
      w.Books [] [] w' := by
  refine ⟨fun name => ?_, [.recorded repository none], rfl, rfl,
    rfl⟩
  change (update w.health repository _ name).failures = _
  by_cases hThis : name = repository
  · subst hThis
    simp [update, Health.recordSuccess_health]
  · simp [update, hThis]

end World

------------------------------------------------------------
-- Accounts
------------------------------------------------------------

/-
  Each failure is counted as often as it is reported, or less.
  There may be some before that were reported and not counted
  yet, and some afterwards.
-/
def World.Accounts
    (before after : List Incident)
    (w w' : World) : Prop :=
  ∃ cs rs, w.Books cs rs w' ∧ ∀ x,
    cs.count x + after.count x ≤ rs.count x + before.count x

/- Nothing is counted that is not reported. -/
abbrev World.Candid (w w' : World) : Prop :=
  w.Accounts [] [] w'

namespace World

variable {w w₁ w' : World}
variable {xs ys zs : List Incident}

/- Who owes a report before a silence owes it after. -/
theorem Silent.accounts
    (h : w.Silent w') : w.Accounts xs xs w' :=
  ⟨[], [], h.books, fun _ => Nat.le_refl _⟩

namespace Accounts

/- Nothing is owed for nothing. -/
theorem refl (w : World) : w.Accounts xs xs w :=
  (Silent.same rfl rfl).accounts

/- Accounts follow one another. -/
theorem trans
    (h : w.Accounts xs ys w₁)
    (hNext : w₁.Accounts ys zs w') : w.Accounts xs zs w' := by
  rcases h with ⟨cs, rs, hBooks, hLe⟩
  rcases hNext with ⟨ds, ts, hBooksNext, hLeNext⟩
  refine ⟨_, _, hBooks.trans hBooksNext, fun x => ?_⟩
  have hFirst := hLe x
  have hLast := hLeNext x
  simp only [List.count_append]
  omega

instance : IsPreorder World (World.Accounts xs xs) where
  refl := refl
  trans _ _ _ := trans

/- Less is left of more. -/
theorem mono
    {xs' ys' : List Incident}
    (h : w.Accounts xs ys w')
    (hMore : ∀ x, xs.count x ≤ xs'.count x)
    (hLess : ∀ x, ys'.count x ≤ ys.count x) :
    w.Accounts xs' ys' w' := by
  rcases h with ⟨cs, rs, hBooks, hLe⟩
  refine ⟨cs, rs, hBooks, fun x => ?_⟩
  have hThis := hLe x
  have hFirst := hMore x
  have hLast := hLess x
  omega

/- Something else is reported and not counted yet. -/
theorem frame
    (h : w.Accounts xs ys w')
    (zs : List Incident) :
    w.Accounts (xs ++ zs) (ys ++ zs) w' := by
  rcases h with ⟨cs, rs, hBooks, hLe⟩
  refine ⟨cs, rs, hBooks, fun x => ?_⟩
  have hThis := hLe x
  simp only [List.count_append]
  omega

/- What was reported before is counted now. -/
theorem counts
    (h : w.Books xs [] w') : w.Accounts xs [] w' :=
  ⟨xs, [], h, fun _ => by simp⟩

end Accounts

end World

end Failover
