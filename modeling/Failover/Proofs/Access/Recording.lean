import Failover.Access.Execute
import Failover.Proofs.Effect.Ends
import Mathlib.Data.List.Basic

/-
  The attempts that a command on a cluster makes, recorded as
  they are made.  The record changes nothing of what is done.

  Key definitions include:
    * `Attempted`
    * `Recording`, `recorded`
    * `Follows`, `Wins`, `Tried`
    * `Entry.returned`

  Main statements:
    * `Cluster.tryEach_follows`
    * `DataAccess.routed_recorded`, `DataAccess.routed_follows`
    * `DataAccess.recording_returned`
-/

namespace Failover

variable {α : Type}

------------------------------------------------------------
-- Records
------------------------------------------------------------

/- One attempt on a member, with the worlds around it. -/
structure Attempted where
  member : Repository
  before : World
  failure? : Option Failure
  after : World

/- Effects that keep a record of attempts. -/
abbrev Recording := StateT (List Attempted) Effect

def failureOf : Except Failure α → Option Failure
  | .error f => some f
  | .ok _ => none

theorem failureOf_eq_some
    {x : Except Failure α}
    {f : Failure}
    (h : failureOf x = some f) : x = .error f := by
  cases x with
  | ok a => cases h
  | error f' =>
      cases h
      rfl

/- An attempt that is put on record. -/
def recorded
    (attempt : Repository → Effect (Except Failure α))
    (r : Repository) : Recording (Except Failure α) := do
  let before ← getThe World
  let x ← liftM (attempt r)
  let after ← getThe World
  modify (· ++ [⟨r, before, failureOf x, after⟩])
  return x

@[simp] theorem ends_recorded
    (attempt : Repository → Effect (Except Failure α))
    (r : Repository)
    (trail : List Attempted)
    (w : World)
    (Q : Except Failure α → List Attempted → World → Prop) :
    Act.Ends (recorded attempt r) trail w Q ↔
      Effect.Ends (attempt r) w fun x w' =>
        Q x (trail ++ [⟨r, w, failureOf x, w'⟩]) w' :=
  Iff.rfl

------------------------------------------------------------
-- Which attempts there are
------------------------------------------------------------

/-
  An attempt is followed by another just if it failed with a
  failure that is to be followed by one and there are members
  left.  Attempts count from some that were made before.
-/
def Follows
    (retry : Failure → Nat → Bool)
    (before members : Nat)
    (trail : List Attempted) : Prop :=
  ∀ earlier m later, trail = earlier ++ m :: later →
    (later ≠ [] ↔ earlier.length + 1 < members ∧
      ∃ f, m.failure? = some f ∧
        retry f (before + earlier.length + 1) = true)

theorem Follows.nobody
    {retry : Failure → Nat → Bool}
    {before members : Nat} : Follows retry before members [] := by
  intro earlier m later hSplit
  simp at hSplit

/- The last attempt of all. -/
theorem Follows.last
    {retry : Failure → Nat → Bool}
    {before members : Nat}
    {m : Attempted}
    (h : 1 < members → ∀ f, m.failure? = some f →
      retry f (before + 1) = false) :
    Follows retry before members [m] := by
  intro earlier m' later hSplit
  cases earlier with
  | nil =>
      cases hSplit
      refine ⟨fun hNot => absurd rfl hNot, ?_⟩
      rintro ⟨hLess, f, hFail, hRetry⟩
      cases (h hLess f hFail).symm.trans hRetry
  | cons x earlier =>
      simp at hSplit

/- An attempt that is followed by others. -/
theorem Follows.cons
    {retry : Failure → Nat → Bool}
    {before members : Nat}
    {m : Attempted}
    {f : Failure}
    {trail : List Attempted}
    (hFail : m.failure? = some f)
    (hRetry : retry f (before + 1) = true)
    (hMembers : 0 < members)
    (hSome : trail ≠ [])
    (h : Follows retry (before + 1) members trail) :
    Follows retry before (members + 1) (m :: trail) := by
  intro earlier m' later hSplit
  cases earlier with
  | nil =>
      cases hSplit
      refine ⟨fun _ => ⟨?_, f, hFail, hRetry⟩, fun _ => hSome⟩
      simpa using hMembers
  | cons x earlier =>
      cases hSplit
      have hRest := h earlier m' later rfl
      rw [hRest, List.length_cons, Nat.add_lt_add_iff_right]
      have hCount : before + 1 + earlier.length + 1 =
          before + (earlier.length + 1) + 1 := by
        omega
      rw [hCount]

/- An attempt is on record as it came out. -/
def Attempted.Fits
    (fits : Repository → World → Except Failure α → World → Prop)
    (m : Attempted) : Prop :=
  ∃ x, m.failure? = failureOf x ∧ fits m.member m.before x m.after

/-
  The last attempt has succeeded, and those before it have
  failed.
-/
def Wins
    (fits : Repository → World → Except Failure α → World → Prop)
    (a : α)
    (trail : List Attempted) : Prop :=
  ∃ earlier m, trail = earlier ++ [m] ∧
    (∀ x ∈ earlier, x.failure? ≠ none) ∧ m.failure? = none ∧
    fits m.member m.before (.ok a) m.after

theorem Wins.cons
    {fits : Repository → World → Except Failure α → World → Prop}
    {a : α}
    {m : Attempted}
    {f : Failure}
    {trail : List Attempted}
    (h : Wins fits a trail)
    (hFail : m.failure? = some f) : Wins fits a (m :: trail) := by
  rcases h with ⟨earlier, last, rfl, hEarlier, hLast⟩
  refine ⟨m :: earlier, last, rfl, fun x hX => ?_, hLast⟩
  rcases List.mem_cons.mp hX with rfl | hX
  · rw [hFail]
    exact nofun
  · exact hEarlier x hX

namespace Cluster

/-
  The attempts on some members and what has come of them.
  There are some if there are members, and they have succeeded
  if the last one has.
-/
structure Tried
    (fits : Repository → World → Except Failure α → World → Prop)
    (retry : Failure → Nat → Bool)
    (before : Nat)
    (members : List Repository)
    (y : Trial α)
    (made : List Attempted) : Prop where
  nonempty : members ≠ [] → made ≠ []
  each : ∀ m ∈ made, m.Fits fits
  follows : Follows retry before members.length made
  wins : ∀ a, y = .succeeded a → Wins fits a made

namespace Tried

variable
  {fits : Repository → World → Except Failure α → World → Prop}
variable {retry : Failure → Nat → Bool} {before : Nat}
variable {member : Repository} {rest : List Repository}
variable {w w' : World} {y : Trial α} {made : List Attempted}

theorem nobody : Tried fits retry before [] .untried [] where
  nonempty h := absurd rfl h
  each := nofun
  follows := .nobody
  wins := nofun

/- An attempt that succeeds is the last one. -/
theorem succeeded
    {a : α}
    (hFits : fits member w (.ok a) w') :
    Tried fits retry before (member :: rest) (.succeeded a)
      [⟨member, w, none, w'⟩] where
  nonempty _ := nofun
  each m hMem := by
    rw [List.mem_singleton.mp hMem]
    exact ⟨.ok a, rfl, hFits⟩
  follows := .last fun _ f (hFail : none = some f) => by cases hFail
  wins a' hSame := by
    cases hSame
    exact ⟨[], _, rfl, nofun, rfl, hFits⟩

/- An attempt that fails, and the last one for its failure. -/
theorem failed
    {f : Failure}
    {history : List Attempt}
    (hFits : fits member w (.error f) w')
    (hLast : rest ≠ [] → retry f (before + 1) = false) :
    Tried fits retry before (member :: rest) (.failed f history)
      [⟨member, w, some f, w'⟩] where
  nonempty _ := nofun
  each m hMem := by
    rw [List.mem_singleton.mp hMem]
    exact ⟨.error f, rfl, hFits⟩
  follows := by
    refine .last fun hLess f' hFail => ?_
    cases hFail
    refine hLast ?_
    rintro rfl
    exact Nat.lt_irrefl _ hLess
  wins := nofun

/- An attempt that fails, and those that follow it. -/
theorem cons
    {f : Failure}
    (h : Tried fits retry (before + 1) rest y made)
    (hFits : fits member w (.error f) w')
    (hRest : rest ≠ [])
    (hRetry : retry f (before + 1) = true) :
    Tried fits retry before (member :: rest) y
      (⟨member, w, some f, w'⟩ :: made) where
  nonempty _ := nofun
  each m hMem := by
    rcases List.mem_cons.mp hMem with rfl | hMem
    · exact ⟨.error f, rfl, hFits⟩
    · exact h.each m hMem
  follows := .cons rfl hRetry (List.length_pos_iff.mpr hRest)
    (h.nonempty hRest) h.follows
  wins a hSame := (h.wins a hSame).cons rfl

end Tried

/-
  The induction is on the members that are left.  What holds
  of worlds between attempts is kept by those that fail, and
  one that succeeds is the last.
-/
theorem tryEach_follows
    (holds : World → Prop)
    (fits : Repository → World → Except Failure α → World → Prop)
    (attempt : Repository → Effect (Except Failure α))
    (report : Repository → Bool → Effect Unit)
    (retry : Failure → Nat → Bool)
    (hAttempt : ∀ r w, holds w →
      Effect.Ends (attempt r) w fun x w' =>
        (∀ f, x = .error f → holds w') ∧ fits r w x w')
    (hReport : ∀ r w, holds w →
      Effect.Ends (report r false) w fun _ w' => holds w')
    (history : List Attempt)
    (members : List Repository)
    (trail : List Attempted)
    {w : World}
    (hHolds : holds w) :
    Act.Ends
      (tryEach
        (⟨recorded attempt, fun r ok => liftM (report r ok),
          retry⟩ : Trier Recording α)
        history members) trail w fun y trail' _ =>
      ∃ made, trail' = trail ++ made ∧
        Tried fits retry history.length members y made := by
  induction members generalizing history trail w with
  | nil => exact ⟨[], (List.append_nil _).symm, .nobody⟩
  | cons member rest ih =>
      unfold tryEach
      rw [Act.ends_bind, ends_recorded]
      refine (hAttempt member w hHolds).mono ?_
      rintro x w₁ ⟨hKept, hFits⟩
      cases x with
      | ok a =>
          rw [Act.ends_bind]
          change Act.Ends (liftM (report member true)) _ _ _
          rw [Act.ends_lift]
          refine Effect.Ends.mono (P := fun _ _ => True) trivial ?_
          exact fun _ _ _ => ⟨_, rfl, .succeeded hFits⟩
      | error f =>
          rw [Act.ends_bind]
          change Act.Ends (liftM (report member false)) _ _ _
          rw [Act.ends_lift]
          refine (hReport member w₁ (hKept f rfl)).mono ?_
          intro _ w₂ hHolds₂
          simp only [List.length_append, List.length_singleton]
          split
          · next hMore =>
            rcases Bool.and_eq_true_iff.mp hMore with
              ⟨hRetry, hLeft⟩
            have hRest : rest ≠ [] := by simpa using hLeft
            refine (ih _ _ hHolds₂).mono ?_
            rintro y trail' w' ⟨made, rfl, hTried⟩
            rw [List.length_append] at hTried
            exact ⟨_ :: made, List.append_assoc ..,
              hTried.cons hFits hRest hRetry⟩
          · next hLast =>
            refine ⟨_, rfl, .failed hFits fun hRest => ?_⟩
            simpa [hRest] using hLast

/-
  Keeping a record changes neither which members are tried nor
  what comes of it.
-/
theorem tryEach_recorded
    (attempt : Repository → Effect (Except Failure α))
    (report : Repository → Bool → Effect Unit)
    (retry : Failure → Nat → Bool)
    (history : List Attempt)
    (members : List Repository)
    (trail : List Attempted)
    (w : World)
    (Q : Trial α → World → Prop) :
    Act.Ends
      (tryEach
        (⟨recorded attempt, fun r ok => liftM (report r ok),
          retry⟩ : Trier Recording α)
        history members) trail w (fun x _ w' => Q x w') ↔
    Effect.Ends
      (tryEach ⟨attempt, report, retry⟩ history members) w Q := by
  induction members generalizing history trail w with
  | nil => exact Iff.rfl
  | cons member rest ih =>
      unfold tryEach
      rw [Act.ends_bind, ends_recorded, Effect.ends_bind]
      refine Effect.ends_congr fun x w₁ => ?_
      cases x with
      | ok a => exact Iff.rfl
      | error f =>
          rw [Act.ends_bind, Effect.ends_bind]
          change Act.Ends (liftM (report member false)) _ _ _ ↔ _
          rw [Act.ends_lift]
          refine Effect.ends_congr fun _ w₂ => ?_
          simp only
          split
          · exact ih _ _ w₂
          · exact Iff.rfl

end Cluster

------------------------------------------------------------
-- Commands on clusters
------------------------------------------------------------

namespace DataAccess

/- The record changes nothing of a command on a cluster. -/
theorem routed_recorded
    (d : DataAccess)
    (cluster : String)
    (c : Command)
    (attempt : Repository → Effect (Except Failure α))
    (trail : List Attempted)
    (w : World)
    (Q : Except Failure α → World → Prop) :
    Act.Ends (d.routed cluster c (recorded attempt)) trail w
      (fun x _ w' => Q x w') ↔
    Effect.Ends (d.routed cluster c attempt) w Q := by
  unfold routed
  cases d.cluster cluster with
  | error f => exact Iff.rfl
  | ok k =>
      simp only
      rw [Act.ends_bind, Act.ends_lift, Effect.ends_bind]
      refine Effect.ends_congr fun ranked w₁ => ?_
      cases ranked with
      | error f => exact Iff.rfl
      | ok ranked =>
          unfold Cluster.execute
          simp only
          rw [Act.ends_bind, Effect.ends_bind]
          exact Cluster.tryEach_recorded attempt
            (reportTo k.policy) _ [] ranked trail w₁
            fun x w' => Q (k.conclude ranked x) w'

/-
  The attempts of a command on a cluster.  What holds between
  them holds when the members are ranked, too.
-/
theorem routed_follows
    (holds : World → Prop)
    (fits : Repository → World → Except Failure α → World → Prop)
    (d : DataAccess)
    (cluster : String)
    (c : Command)
    (attempt : Repository → Effect (Except Failure α))
    (hAttempt : ∀ r w, holds w →
      Effect.Ends (attempt r) w fun x w' =>
        (∀ f, x = .error f → holds w') ∧ fits r w x w')
    (hRank : ∀ k w, holds w →
      Effect.Ends (World.rank k) w fun _ w' => holds w')
    (hReport : ∀ p r w, holds w →
      Effect.Ends (reportTo p r false) w fun _ w' => holds w')
    {w : World}
    (hHolds : holds w) :
    Act.Ends (d.routed cluster c (recorded attempt)) [] w
      fun x trail _ =>
        (∀ m ∈ trail, m.Fits fits) ∧
        (∀ a, x = .ok a → Wins fits a trail) ∧
        ∀ k, d.cluster cluster = .ok k →
          Effect.Ends (World.rank k) w fun ranked _ =>
            ∀ n, (∀ ms, ranked = .ok ms → ms.length = n) →
              Follows (k.policy.shouldRetry c) 0 n trail := by
  unfold routed
  cases hCluster : d.cluster cluster with
  | error f => exact ⟨nofun, nofun, nofun⟩
  | ok k =>
      simp only
      rw [Act.ends_bind, Act.ends_lift]
      rcases Effect.exists_leads (World.rank k) w with
        ⟨ranked, w₁, hRanked⟩
      have hHolds₁ : holds w₁ :=
        (hRanked.ends_iff _).mp (hRank k w hHolds)
      rw [hRanked.ends_iff]
      cases ranked with
      | error f =>
          refine ⟨nofun, nofun, fun k' hSame => ?_⟩
          cases hSame
          rw [hRanked.ends_iff]
          exact fun n _ => .nobody
      | ok ranked =>
          unfold Cluster.execute
          simp only
          rw [Act.ends_bind]
          refine (Cluster.tryEach_follows holds fits attempt
            (reportTo k.policy) (k.policy.shouldRetry c) hAttempt
            (hReport k.policy) [] ranked [] hHolds₁).mono ?_
          rintro y trail _ ⟨made, rfl, hTried⟩
          refine ⟨hTried.each, fun a hOk => hTried.wins a ?_,
            fun k' hSame => ?_⟩
          · cases y with
            | succeeded a' =>
                cases hOk
                rfl
            | untried => cases hOk
            | failed last history =>
                change (if _ then _ else _) = _ at hOk
                split at hOk <;> cases hOk
          · cases hSame
            rw [hRanked.ends_iff]
            intro n hLength
            rw [← hLength ranked rfl]
            exact hTried.follows

end DataAccess

/- The ways to run a command on a cluster. -/
inductive Entry where
  | scalar (t : Target)
  | nonQuery
  | reader

namespace Entry

/- What comes of one attempt. -/
abbrev Gain : Entry → Type
  | .scalar t => t.Carrier × Option Command
  | .nonQuery => UInt64 × Option Command
  | .reader => Reader

def attempt
    (d : DataAccess)
    (c : Command) :
    (e : Entry) → Repository → Effect (Except Failure e.Gain)
  | .scalar t => d.attemptOn c (Session.executeScalar t)
  | .nonQuery => d.attemptOn c Session.executeNonQuery
  | .reader => d.attemptReaderOn c

/- What comes of all of them. -/
abbrev Output : Entry → Type
  | .scalar t => t.Carrier
  | .nonQuery => UInt64
  | .reader => Reader

def execute
    (d : DataAccess)
    (cluster : String)
    (c : Command) :
    (e : Entry) → Effect (Except Failure e.Output × Command)
  | .scalar t => d.executeScalar cluster c t
  | .nonQuery => d.executeNonQuery cluster c
  | .reader => d.executeReader cluster c

/- What an attempt has gained, and its command. -/
def gained :
    (e : Entry) → e.Gain → e.Output × Option Command
  | .scalar _, x => x
  | .nonQuery, x => x
  | .reader, a => (a, a.session.command)

/- What is given back of the result of the attempts. -/
def returned
    (c : Command)
    (e : Entry) :
    Except Failure e.Gain → Except Failure e.Output × Command
  | .error f => (.error f, c)
  | .ok gain =>
      (.ok (e.gained gain).1,
        DataAccess.withOutputs c (e.gained gain).2)

theorem execute_eq
    (d : DataAccess)
    (cluster : String)
    (c : Command)
    (e : Entry) :
    e.execute d cluster c = (do
      return e.returned c
        (← d.routed cluster c (e.attempt d c))) := by
  cases e with
  | scalar t => exact bind_congr fun x => by cases x <;> rfl
  | nonQuery => exact bind_congr fun x => by cases x <;> rfl
  | reader => exact bind_congr fun x => by cases x <;> rfl

end Entry

namespace DataAccess

/- A command on a cluster, with its attempts on record. -/
def recording
    (d : DataAccess)
    (cluster : String)
    (c : Command)
    (e : Entry) : Recording (Except Failure e.Gain) :=
  d.routed cluster c (recorded (e.attempt d c))

/- The attempts that a command on a cluster makes. -/
def trail
    (d : DataAccess)
    (cluster : String)
    (c : Command)
    (e : Entry)
    (w : World) : List Attempted :=
  (((d.recording cluster c e).run []).run w).1.2

/- The attempts on record are those that were made. -/
theorem ends_trail
    {d : DataAccess}
    {cluster : String}
    {c : Command}
    {e : Entry}
    {w : World}
    {Q : Except Failure e.Gain → List Attempted → World → Prop}
    (h : Act.Ends (d.recording cluster c e) [] w Q) :
    Act.Ends (d.recording cluster c e) [] w fun x _ w' =>
      Q x (d.trail cluster c e w) w' :=
  h

/- Attempts that are on record have the same result. -/
theorem recording_returned
    (d : DataAccess)
    (cluster : String)
    (c : Command)
    (e : Entry)
    (w : World)
    (Q : Except Failure e.Output × Command → World → Prop) :
    Act.Ends (d.recording cluster c e) [] w
      (fun x _ w' => Q (e.returned c x) w') ↔
    Effect.Ends (e.execute d cluster c) w Q := by
  rw [Entry.execute_eq]
  exact routed_recorded d cluster c (e.attempt d c) [] w
    fun x w' => Q (e.returned c x) w'

end DataAccess

end Failover
