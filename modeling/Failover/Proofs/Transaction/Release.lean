import Failover.Proofs.Transaction.Abandon

/-
  How connections are released: one that is closed is inside
  no transaction, unless an attempt to end its transaction has
  failed, and all others are discarded.

  Key definitions include:
    * `Settled`, `Doubtful`
    * `ClosesUnlessDoubtful`

  Main statements:
    * `Workspace.run_releases`
-/

namespace Failover

------------------------------------------------------------
-- Settled connections
------------------------------------------------------------

/- Every transaction on a connection was ended, and well. -/
def Settled
    (c : Connection)
    (log : List Event) : Prop :=
  ∀ earlier later : List Event,
    log = earlier ++ .called .begin c true :: later →
      ∃ e : Session.Ending, .called e.call c true ∈ later

/-
  A transaction on a connection was not ended well, though an
  attempt was made, after which it counts as ended.
-/
def Doubtful
    (c : Connection)
    (log : List Event) : Prop :=
  ∃ earlier later : List Event,
    log = earlier ++ .called .begin c true :: later ∧
    (∃ e : Session.Ending, .called e.call c false ∈ later) ∧
    ∀ e : Session.Ending, .called e.call c true ∉ later

/- Connections go back settled, but for those in doubt. -/
def ClosesUnlessDoubtful (log : List Event) : Prop :=
  ∀ (earlier later : List Event) (c : Connection) (ok : Bool),
    log = earlier ++ .called .close c ok :: later →
      (Settled c earlier ↔ ¬ Doubtful c earlier)

/-
  On a connection without an active transaction, all are
  settled exactly if none is in doubt.
-/
theorem settled_iff_of_not_isActive
    {c : Connection}
    {log : List Event}
    (h : isActive c log = false) :
    Settled c log ↔ ¬ Doubtful c log := by
  constructor
  · rintro hSettled ⟨earlier, later, hLog, -, hNever⟩
    rcases hSettled earlier later hLog with ⟨e, hMem⟩
    exact hNever e hMem
  · intro hNot earlier later hLog
    by_contra hNone
    rw [hLog] at h
    rcases ending_of_not_isActive h with ⟨e, ok, hMem⟩
    have hNever : ∀ e : Session.Ending,
        .called e.call c true ∉ later :=
      fun e hEnds => hNone ⟨e, hEnds⟩
    cases ok with
    | true => exact hNever e hMem
    | false =>
        exact hNot ⟨earlier, later, hLog, ⟨e, hMem⟩, hNever⟩

theorem Custody.Orderly.closes
    {log : List Event}
    (h : Custody.Orderly log) : ClosesUnlessDoubtful log :=
  fun earlier later c ok hLog =>
    settled_iff_of_not_isActive (h earlier later c ok hLog)

------------------------------------------------------------
-- Calls
------------------------------------------------------------

/- A call on a connection, and whether it succeeded. -/
def Event.callOn?
    (c : Connection) : Event → Option (Call × Bool)
  | .called call c' ok => if c' = c then some (call, ok) else none
  | _ => none

theorem Event.eq_called
    {c : Connection}
    {e : Event}
    {call : Call}
    {ok : Bool}
    (h : e.callOn? c = some (call, ok)) :
    e = .called call c ok := by
  unfold Event.callOn? at h
  split at h
  · split at h
    · cases h
      subst c
      rfl
    · cases h
  · cases h

/- The calls on a connection, in their order. -/
def callsOn
    (c : Connection)
    (log : List Event) : List (Call × Bool) :=
  log.filterMap (·.callOn? c)

theorem mem_callsOn
    {c : Connection}
    {log : List Event}
    {call : Call}
    {ok : Bool}
    (h : .called call c ok ∈ log) :
    (call, ok) ∈ callsOn c log :=
  List.mem_filterMap.mpr ⟨_, h, by simp [Event.callOn?]⟩

/- A call stands in the log between those around it. -/
theorem exists_call
    {c : Connection}
    {log : List Event}
    {xs ys : List (Call × Bool)}
    {call : Call}
    {ok : Bool}
    (h : callsOn c log = xs ++ (call, ok) :: ys) :
    ∃ earlier later,
      log = earlier ++ .called call c ok :: later ∧
      callsOn c earlier = xs ∧ callsOn c later = ys := by
  rcases List.filterMap_eq_append_iff.mp h with
    ⟨l₁, l₂, hLog, hFirst, hRest⟩
  rcases List.filterMap_eq_cons_iff.mp hRest with
    ⟨l₃, e, l₄, rfl, hNone, hThis, hLater⟩
  refine ⟨l₁ ++ l₃, l₄, ?_, ?_, hLater⟩
  · rw [hLog, Event.eq_called hThis, List.append_assoc]
  · have hNo : callsOn c l₃ = [] :=
      List.filterMap_eq_nil_iff.mpr hNone
    have hXs : callsOn c l₁ = xs := hFirst
    rw [callsOn, List.filterMap_append]
    change callsOn c l₁ ++ callsOn c l₃ = xs
    rw [hNo, hXs, List.append_nil]

------------------------------------------------------------
-- Runs
------------------------------------------------------------

namespace Workspace

/- Scenes that requests lead to from the beginning. -/
theorem run_sound
    (d : DataAccess)
    (backend : String → Backend)
    (qs : List Request) :
    Act.Ends (run qs) (ofAccess d) (World.initial backend)
      fun _ ws w =>
        (ws.scene w [] []).Sound ∧
        Custody.Clean (ws.scene w [] []).custody ∧
        Custody.Accounted backend (ws.scene w [] []).custody := by
  refine (run_follows qs (ofAccess d) (World.initial backend)
    (tidy_ofAccess d)).mono ?_
  intro _ ws w hFollows
  have hInitial := Scene.Sound.initial backend
  have hCustody := (hFollows.steps.custody hInitial).2
  refine ⟨hInitial.steps hFollows.steps, ?_, ?_⟩
  · exact Custody.Clean.initial.steps hCustody
  · exact Custody.Accounted.initial.steps hCustody

/-
  After any requests, and if then all is dropped where nothing
  goes on, no connection was closed in a transaction but those
  in doubt.  Each connection is held, was closed or discarded,
  or had no reply to a statement.
-/
theorem run_releases
    (d : DataAccess)
    (backend : String → Backend)
    (qs : List Request) :
    Act.Ends (run qs) (ofAccess d) (World.initial backend)
      fun _ ws w =>
        ClosesUnlessDoubtful w.log ∧
        (∀ r c, .opened r (some c) ∈ w.log →
          Custody.Fate backend (ws.scene w [] []).custody c) ∧
        Effect.Ends ws.abandon w fun _ w' =>
          ClosesUnlessDoubtful w'.log := by
  refine (run_sound d backend qs).mono ?_
  rintro _ ws w ⟨hSound, hClean, hAccounted⟩
  refine ⟨hClean.orderly.closes, hAccounted, ?_⟩
  refine (abandon_partings ws w).mono ?_
  intro _ w' hPartings
  have hLeft := (Scene.clean_partings hSound hClean hPartings).2
  exact hLeft.orderly.closes

/- One repository, whose engine takes commands as they are. -/
def oneRepository : DataAccess :=
  ⟨[("a", ⟨"a", "mock", true, 0,
    .verbatim "MOCK" "mock://a" false⟩)], [], 30⟩

/- An engine that refuses to commit. -/
def refusingCommits : Backend :=
  { Backend.willing with
    refusal := fun call _ =>
      if call = .commit then
        some (.execution "a" "commit refused" none false)
      else none }

/- A commit that fails, and then the end of the session. -/
def commitAndDispose : List Request :=
  [.openRepositorySession "a" "s", .begin "s", .commit "s",
    .dispose "s"]

theorem commitAndDispose_calls :
    Act.Ends (run commitAndDispose) (ofAccess oneRepository)
      (World.initial fun _ => refusingCommits) fun _ _ w =>
        callsOn ⟨0, "a"⟩ w.log =
          [(.begin, true), (.commit, false), (.close, true)] := by
  unfold Act.Ends Effect.Ends
  decide +kernel

/- The connection of a transaction in doubt is not discarded. -/
theorem dispose_closes_unsettled :
    ¬ ∀ (d : DataAccess) (backend : String → Backend)
      (qs : List Request),
      Act.Ends (run qs) (ofAccess d) (World.initial backend)
        fun _ _ w =>
          ∀ (earlier later : List Event) (c : Connection)
            (ok : Bool),
            w.log = earlier ++ .called .close c ok :: later →
              Settled c earlier := by
  intro h
  have hRun := h oneRepository (fun _ => refusingCommits)
    commitAndDispose
  have hClose : callsOn ⟨0, "a"⟩ _ =
      [(.begin, true), (.commit, false)] ++ (.close, true) :: [] :=
    commitAndDispose_calls
  rcases exists_call hClose with
    ⟨earlier, later, hLog, hCalls, -⟩
  have hBegun : callsOn ⟨0, "a"⟩ earlier =
      [] ++ (.begin, true) :: [(.commit, false)] := hCalls
  rcases exists_call hBegun with
    ⟨before, after, hBegin, -, hAfter⟩
  rcases hRun earlier later _ _ hLog before after hBegin with
    ⟨e, hEnds⟩
  have hMem := mem_callsOn hEnds
  rw [hAfter] at hMem
  cases e <;> simp [Session.Ending.call] at hMem

end Workspace

end Failover
