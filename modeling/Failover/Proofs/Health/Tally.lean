import Failover.Proofs.Health.Reporting

/-
  How often operations on a repository have succeeded and
  failed, and what changes these numbers.  Calls of engines,
  waiting, and the background leave them as they are.

  Key definitions include:
    * `Tally`, `World.tallies`
    * `Event.isVerdict`, `World.Unrecorded`
    * `Effect.RecordsNothing`
    * `World.IsQuiet`
    * `World.Change`

  Main statements:
    * `World.await_recordsNothing`
    * `World.Change.trans`
-/

namespace Failover

variable {α : Type}

------------------------------------------------------------
-- Tallies
------------------------------------------------------------

/- The outcomes of the operations on a repository. -/
@[ext] structure Tally where
  successes : Nat
  failures : Nat
deriving DecidableEq

/- One outcome more, which is a success or a failure. -/
def Tally.count
    (t : Tally) : Bool → Tally
  | true => { t with successes := t.successes + 1 }
  | false => { t with failures := t.failures + 1 }

/- An outcome is counted for its repository alone. -/
def tallied
    (tallies : String → Tally)
    (x : String × Bool) : String → Tally :=
  World.update tallies x.1 ((tallies x.1).count x.2)

/- An outcome counts for its repository, -/
@[simp] theorem tallied_this
    (tallies : String → Tally)
    (name : String)
    (ok : Bool) :
    tallied tallies (name, ok) name = (tallies name).count ok := by
  simp [tallied, World.update]

/- An outcome of one repository is not counted for another. -/
theorem tallied_other
    (tallies : String → Tally)
    {x : String × Bool}
    {name : String}
    (hNe : name ≠ x.1) :
    tallied tallies x name = tallies name := by
  simp [tallied, World.update, hNe]

/- Outcomes on other repositories do not count. -/
theorem tallied_others
    (xs : List (String × Bool))
    (tallies : String → Tally)
    {name : String}
    (hNot : name ∉ xs.map (·.1)) :
    xs.foldl tallied tallies name = tallies name := by
  induction xs generalizing tallies with
  | nil => rfl
  | cons x xs ih =>
      rw [List.map_cons, List.mem_cons, not_or] at hNot
      rw [List.foldl_cons, ih _ hNot.2, tallied_other _ hNot.1]

/- Of several repositories each one's outcome counts once. -/
theorem tallied_once
    {xs : List (String × Bool)}
    {x : String × Bool}
    (tallies : String → Tally)
    (hNodup : (xs.map (·.1)).Nodup)
    (hMem : x ∈ xs) :
    xs.foldl tallied tallies x.1 = (tallies x.1).count x.2 := by
  induction xs generalizing tallies with
  | nil => cases hMem
  | cons y xs ih =>
      rw [List.map_cons, List.nodup_cons] at hNodup
      rw [List.foldl_cons]
      rcases List.mem_cons.mp hMem with rfl | hLater
      · rw [tallied_others xs _ hNodup.1]
        exact tallied_this tallies x.1 x.2
      · have hNe : x.1 ≠ y.1 := by
          intro hSame
          rw [← hSame] at hNodup
          exact hNodup.1 (List.mem_map_of_mem hLater)
        rw [ih _ hNodup.2 hLater, tallied_other _ hNe]

namespace World

def tallies (w : World) : String → Tally :=
  fun r => ⟨(w.health r).successes, (w.health r).failures⟩

/- Tallies are read off the health. -/
theorem tallies_congr
    {w w' : World}
    (h : w'.health = w.health) : w'.tallies = w.tallies := by
  unfold tallies
  rw [h]

end World

/- The health of one repository is another. -/
theorem World.tallies_update
    {w w' : World}
    {name : String}
    {h : Health}
    {ok : Bool}
    (hHealth : w'.health = World.update w.health name h)
    (hCount : ⟨h.successes, h.failures⟩ =
      (w.tallies name).count ok) :
    w'.tallies = tallied w.tallies (name, ok) := by
  funext r
  by_cases hThis : r = name
  · rw [hThis, tallied_this, ← hCount]
    simp [tallies, hHealth, World.update]
  · rw [tallied_other _ hThis]
    simp [tallies, hHealth, World.update, hThis]

/- A success counts, whether its latency is averaged or not. -/
theorem Tally.of_success
    (h : Health)
    (elapsed : Nat) :
    Tally.mk (h.recordSuccess elapsed).health.successes
        (h.recordSuccess elapsed).health.failures =
      Tally.count ⟨h.successes, h.failures⟩ true := by
  rw [Health.recordSuccess_health]
  rfl

/- A failure counts, whether its time is kept or not. -/
theorem Tally.of_failure
    (h : Health)
    (now : Nat) :
    Tally.mk (h.recordFailure now).health.successes
        (h.recordFailure now).health.failures =
      Tally.count ⟨h.successes, h.failures⟩ false := by
  rw [Health.recordFailure_health]
  rfl

------------------------------------------------------------
-- What records nothing
------------------------------------------------------------

/- The outcome of a command, or of opening a connection. -/
def Event.isVerdict : Event → Bool
  | .commandEnded _ _ _ => true
  | .connectionFailed _ => true
  | _ => false

/- No outcome is recorded, and none is told. -/
structure World.Unrecorded (w w' : World) : Prop where
  health : w'.health = w.health
  untold : ∃ es, w'.log = w.log ++ es ∧
    es.filter (·.isVerdict) = []

namespace World.Unrecorded

variable {w w₁ w' : World}

/- What leaves health and log as they are records no outcome. -/
theorem same
    (hHealth : w'.health = w.health)
    (hLog : w'.log = w.log) : w.Unrecorded w' :=
  ⟨hHealth, [], hLog.trans (List.append_nil _).symm, rfl⟩

/- An event that is no outcome records none. -/
theorem noted
    {e : Event}
    (hVerdict : e.isVerdict = false)
    (hHealth : w'.health = w.health)
    (hLog : w'.log = w.log ++ [e]) : w.Unrecorded w' :=
  ⟨hHealth, [e], hLog, by simp [hVerdict]⟩

/- Two of these follow one another. -/
theorem trans
    (h : w.Unrecorded w₁)
    (hNext : w₁.Unrecorded w') : w.Unrecorded w' := by
  refine ⟨hNext.health.trans h.health, ?_⟩
  rcases h.untold with ⟨es, hFirst, hNone⟩
  rcases hNext.untold with ⟨fs, hLast, hNoMore⟩
  refine ⟨es ++ fs, ?_, ?_⟩
  · rw [hLast, hFirst, List.append_assoc]
  · rw [List.filter_append, hNone, hNoMore]
    rfl

end World.Unrecorded

namespace Effect

/- The health of all repositories is left as it is. -/
def RecordsNothing (e : Effect α) : Prop :=
  ∀ w, Ends e w fun _ w' => w.Unrecorded w'

end Effect

namespace World

open Effect (RecordsNothing)

/- What counts no failure and tells none records no outcome. -/
theorem Silent.unrecorded
    {w w' : World}
    (h : w.Silent w') : w.Unrecorded w' := by
  rcases h.news with ⟨es, hLog, hSilent⟩
  refine ⟨h.health, es, hLog, ?_⟩
  refine List.filter_eq_nil_iff.mpr fun e hMem hVerdict => ?_
  have hSilent := hSilent e hMem
  cases e <;> cases hVerdict <;> cases hSilent

/- A call on a connection is no outcome. -/
theorem callOn_recordsNothing
    (c : Connection)
    (call : Call) : RecordsNothing (callOn c call) :=
  (callOn_silent c call).mono fun _ _ => Silent.unrecorded

/- The beginning of work in the background records no outcome. -/
theorem spawn_recordsNothing
    (c : Connection)
    (limit : Nat)
    (b : BoundCommand) : RecordsNothing (spawn c limit b) :=
  (spawn_silent c limit b).mono fun _ _ => Silent.unrecorded

/-
  Waiting for work to end records no outcome, which is
  recorded later.
-/
theorem await_recordsNothing
    (id : Nat) : RecordsNothing (await id) :=
  (await_silent id).mono fun _ _ => Silent.unrecorded

------------------------------------------------------------
-- Changes
------------------------------------------------------------

/- Nothing goes on in the background. -/
structure IsQuiet (w : World) : Prop where
  tasks : w.tasks = []
  jobs : w.jobs = []

/- Only some calls of engines were made, and all is quiet. -/
structure Stays
    (asked : String → Call → Prop)
    (w w' : World) : Prop where
  quiet : w'.IsQuiet
  backend : w'.backend = w.backend
  calls : ∀ r call, ¬ asked r call →
    w'.calls r call = w.calls r call

/-
  Some outcomes were recorded.  If nothing went on in the
  background, nothing does, and only some calls were made.
-/
structure Change
    (asked : String → Call → Prop)
    (records : List (String × Bool))
    (w w' : World) : Prop where
  tallies : w'.tallies = records.foldl tallied w.tallies
  alone : w.IsQuiet → Stays asked w w'

/- All the calls of one repository's engine. -/
def callsOf (repository : String) : String → Call → Prop :=
  fun r _ => r = repository

/- The calls of one kind of a repository's engine. -/
def callsFor
    (repository : String)
    (call : Call) : String → Call → Prop :=
  fun r c => r = repository ∧ c = call

def noCalls : String → Call → Prop :=
  fun _ _ => False

/- The number of one kind of calls is another. -/
theorem update_call_this
    (calls : String → Call → Nat)
    (repository : String)
    (call : Call)
    (n : Nat) :
    update calls repository (update (calls repository) call n)
      repository call = n := by
  simp [update]

/- Other calls keep their number. -/
theorem update_call_other
    (calls : String → Call → Nat)
    {repository r : String}
    {call k : Call}
    (n : Nat)
    (hNot : ¬ callsFor repository call r k) :
    update calls repository (update (calls repository) call n) r k =
      calls r k := by
  by_cases hThis : r = repository
  · have hOther : k ≠ call := fun hCall => hNot ⟨hThis, hCall⟩
    simp [update, hThis, hOther]
  · simp [update, hThis]

namespace Change

variable {asked more : String → Call → Prop}
variable {xs ys : List (String × Bool)} {w w₁ w' : World}

/- Nothing changes where nothing is done. -/
theorem refl : Change asked [] w w :=
  ⟨rfl, fun hQuiet => ⟨hQuiet, rfl, fun _ _ _ => rfl⟩⟩

/-
  One change after another.  Which calls the second one makes
  counts only where all was quiet before the first.
-/
theorem trans_of
    (h : Change asked xs w w₁)
    (hNext : Change more ys w₁ w')
    (hImp : w.IsQuiet → ∀ r call,
      more r call → asked r call) :
    Change asked (xs ++ ys) w w' where
  tallies := by
    rw [List.foldl_append, ← h.tallies]
    exact hNext.tallies
  alone := by
    intro hQuiet
    have hFirst := h.alone hQuiet
    have hLast := hNext.alone hFirst.quiet
    refine ⟨hLast.quiet, hLast.backend.trans hFirst.backend, ?_⟩
    intro r call hNot
    have hNotLast : ¬ more r call :=
      fun hMore => hNot (hImp hQuiet r call hMore)
    exact (hLast.calls r call hNotLast).trans
      (hFirst.calls r call hNot)

/- Changes follow one another. -/
theorem trans
    (h : Change asked xs w w₁)
    (hNext : Change asked ys w₁ w') :
    Change asked (xs ++ ys) w w' :=
  h.trans_of hNext fun _ _ _ hAsked => hAsked

/- Nothing is asked of an engine after it. -/
theorem unasked
    (h : Change asked xs w w₁)
    (hNext : Change noCalls ys w₁ w') :
    Change asked (xs ++ ys) w w' :=
  h.trans_of hNext fun _ _ _ hNone => hNone.elim

/- More calls may be allowed than are made. -/
theorem mono
    (h : Change asked xs w w')
    (hImp : ∀ r call, asked r call → more r call) :
    Change more xs w w' :=
  Change.refl.trans_of h fun _ => hImp

/-
  A change of anything else records no outcome and asks
  nothing.
-/
theorem aside
    (hHealth : w'.health = w.health)
    (hTasks : w'.tasks = w.tasks)
    (hJobs : w'.jobs = w.jobs)
    (hBackend : w'.backend = w.backend)
    (hCalls : w'.calls = w.calls) : Change asked [] w w' where
  tallies := tallies_congr hHealth
  alone := fun hQuiet =>
    ⟨⟨hTasks.trans hQuiet.tasks, hJobs.trans hQuiet.jobs⟩,
      hBackend, fun r call _ => congrFun (congrFun hCalls r) call⟩

/- What is written to the log changes nothing else. -/
theorem logged (log : List Event) :
    Change asked [] w { w with log } :=
  .aside rfl rfl rfl rfl rfl

/- A call of an engine is made. -/
theorem call
    (repository : String)
    (call : Call)
    (hHealth : w'.health = w.health)
    (hTasks : w'.tasks = w.tasks)
    (hJobs : w'.jobs = w.jobs)
    (hBackend : w'.backend = w.backend)
    (hCalls : w'.calls = update w.calls repository
      (update (w.calls repository) call
        (w.calls repository call + 1))) :
    Change (callsFor repository call) [] w w' where
  tallies := tallies_congr hHealth
  alone := fun hQuiet =>
    ⟨⟨hTasks.trans hQuiet.tasks, hJobs.trans hQuiet.jobs⟩,
      hBackend, fun r k hNot => by
        rw [hCalls]
        exact update_call_other w.calls _ hNot⟩

/- Calls of one kind leave those of another kind. -/
theorem other
    {repository : String}
    {call kind : Call}
    (h : Change (callsFor repository call) xs w w')
    (hQuiet : w.IsQuiet)
    (hNe : kind ≠ call) :
    w'.backend repository = w.backend repository ∧
    w'.calls repository kind = w.calls repository kind := by
  have hStays := h.alone hQuiet
  rw [hStays.backend]
  exact ⟨rfl, hStays.calls _ _ fun hAsked => hNe hAsked.2⟩

end Change

/- An event is only noted. -/
theorem note_change
    (e : Event)
    (w : World) :
    Effect.Ends (note e) w fun _ w' => Change noCalls [] w w' :=
  .aside rfl rfl rfl rfl rfl

/- A call is numbered for its repository. -/
theorem callOn_change
    (c : Connection)
    (call : Call)
    (w : World) :
    Effect.Ends (callOn c call) w fun _ w' =>
      Change (callsFor c.repository call) [] w w' :=
  .call c.repository call rfl rfl rfl rfl rfl

/- An outcome is recorded and nothing else. -/
theorem recordSuccess_change
    (repository : String)
    (started : Nat)
    (w : World) :
    Effect.Ends (recordSuccess repository started) w fun _ w' =>
      Change noCalls [(repository, true)] w w' := by
  refine ⟨tallies_update rfl (Tally.of_success ..),
    fun hQuiet => ?_⟩
  exact ⟨⟨hQuiet.tasks, hQuiet.jobs⟩, rfl, fun _ _ _ => rfl⟩

/- A failure is recorded and nothing else. -/
theorem recordFailure_change
    (repository : String)
    (cause : Failure)
    (w : World) :
    Effect.Ends (recordFailure repository cause) w fun _ w' =>
      Change noCalls [(repository, false)] w w' := by
  refine ⟨tallies_update rfl (Tally.of_failure ..),
    fun hQuiet => ?_⟩
  exact ⟨⟨hQuiet.tasks, hQuiet.jobs⟩, rfl, fun _ _ _ => rfl⟩

end World

end Failover
