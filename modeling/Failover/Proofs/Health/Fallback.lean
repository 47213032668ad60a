import Failover.Proofs.Cluster.Order
import Failover.Proofs.Command.Outputs
import Failover.Proofs.Health.Attempt
import Failover.Proofs.Health.Release

/-
  Commands that fall back from members of a cluster that fail
  to one that succeeds: the result is the one of that member
  alone, and each attempt is counted once.

  Key definitions include:
    * `Entry.FailsOn`
    * `World.CountedOnce`

  Main statements:
    * `Entry.FailsOn.change`
    * `Entry.FailsOn.of_foretold`
    * `DataAccess.falls_back`
-/

namespace Failover

open World (Change callsOf noCalls)

------------------------------------------------------------
-- Failures
------------------------------------------------------------

namespace Entry

variable {d : DataAccess} {c : Command} {e : Entry}
variable {p : Policy} {r : Repository} {w w' : World}

theorem reportTo_change
    (p : Policy)
    (r : Repository)
    (ok : Bool)
    (w : World) :
    Effect.Ends (DataAccess.reportTo p r ok) w fun _ w' =>
      Change noCalls [] w w' := by
  unfold DataAccess.reportTo
  split
  · exact World.note_change _ w
  · exact .refl

/-
  Attempts on some members fail in turn, none of them because
  a result did not convert, and each failure is reported.
-/
inductive FailsOn
    (d : DataAccess)
    (c : Command)
    (e : Entry)
    (p : Policy) : List Repository → World → World → Prop where
  | none (w : World) : FailsOn d c e p [] w w
  | more
      {m : Repository}
      {rest : List Repository}
      {f : Failure}
      {w w₁ w₂ w' : World}
      (hAttempt : Effect.Leads (e.attempt d c m) w (.error f) w₁)
      (hKind : ∀ repository message,
        f ≠ .resultConversion repository message)
      (hReport : Effect.Leads (DataAccess.reportTo p m false) w₁ ()
        w₂)
      (hRest : FailsOn d c e p rest w₂ w') :
      FailsOn d c e p (m :: rest) w w'

/- The calls of the engines of some repositories. -/
def callsAmong
    (members : List Repository) : String → Call → Prop :=
  fun r _ => r ∈ members.map (·.name)

/- Each of the members that were tried has one failure more. -/
theorem FailsOn.change
    {failed : List Repository}
    (h : FailsOn d c e p failed w w') :
    Change (callsAmong failed) (failed.map fun m => (m.name, false))
      w w' := by
  induction h with
  | none w => exact .refl
  | @more m rest f w w₁ w₂ w' hAttempt hKind hReport hRest ih =>
      have hCounted := (attempt_counts hAttempt).2
      have hReported := (hReport.ends_iff _).mp
        (reportTo_change p m false w₁)
      rw [show Except.isOk (.error f : Except Failure e.Gain) = false
        from rfl, records_failure] at hCounted
      have hFirst : Change (callsAmong (m :: rest))
          [(m.name, false)] w w₁ :=
        hCounted.mono fun r _ hThis =>
          List.mem_cons.mpr (.inl hThis)
      have hLast : Change (callsAmong (m :: rest))
          (rest.map fun m => (m.name, false)) w₂ w' :=
        ih.mono fun r _ hThere =>
          List.mem_cons.mpr (.inr hThere)
      exact (hFirst.unasked hReported).trans hLast

/-
  Members fail in turn if their engines make failures of the
  command, as none of them changes what is foretold of others.
-/
theorem FailsOn.of_foretold
    {members : List Repository}
    (p : Policy)
    (hQuiet : w.IsQuiet)
    (hDistinct : (members.map (·.name)).Nodup)
    (hFails : ∀ m ∈ members, ∃ f,
      e.foretold m d.defaultTimeout c w = .error f ∧
      ∀ repository message,
        f ≠ .resultConversion repository message) :
    ∃ w', e.FailsOn d c p members w w' := by
  induction members generalizing w with
  | nil => exact ⟨w, .none w⟩
  | cons m rest ih =>
      rw [List.map_cons, List.nodup_cons] at hDistinct
      rcases hFails m List.mem_cons_self with ⟨f, hForetold, hKind⟩
      rcases attempt_foretold d c e m hQuiet with
        ⟨x, w₁, hAttempt, hSame⟩
      rcases Effect.exists_leads (DataAccess.reportTo p m false) w₁
        with ⟨_, w₂, hReport⟩
      have hChange := (attempt_counts hAttempt).2.unasked
        ((hReport.ends_iff _).mp (reportTo_change p m false w₁))
      have hLater (m' : Repository) (hMem : m' ∈ rest) :
          ∃ f, e.foretold m' d.defaultTimeout c w₂ = .error f ∧
            ∀ repository message,
              f ≠ .resultConversion repository message := by
        have hApart : m'.name ≠ m.name := by
          intro hName
          rw [← hName] at hDistinct
          exact hDistinct.1 (List.mem_map_of_mem hMem)
        rw [foretold_later d.defaultTimeout c e hChange hQuiet
          fun _ => hApart]
        exact hFails m' (List.mem_cons_of_mem _ hMem)
      rcases ih (hChange.alone hQuiet).quiet hDistinct.2 hLater with
        ⟨w', hRest⟩
      rw [hForetold] at hSame
      cases x with
      | ok gain => cases hSame
      | error g =>
          cases hSame
          exact ⟨w', .more hAttempt hKind hReport hRest⟩

end Entry

------------------------------------------------------------
-- Routing
------------------------------------------------------------

/-
  A command that is safe to repeat is tried again after every
  failure but of a conversion.
-/
theorem Policy.standardRetry_safe
    {c : Command}
    {most : Option Nat}
    {f : Failure}
    {n : Nat}
    (hSafe : c.retrySafe = true)
    (hKind : ∀ repository message,
      f ≠ .resultConversion repository message)
    (hMost : ∀ m, most = some m → n < m) :
    standardRetry most c f n = true := by
  unfold standardRetry
  split
  · next repository message =>
    exact absurd rfl (hKind repository message)
  · rw [hSafe]
    cases most with
    | none => rfl
    | some m => simpa using hMost m rfl

/- A failure that is granted another attempt leads on. -/
theorem Cluster.tryEach_goesOn
    {α : Type}
    {t : Cluster.Trier Effect α}
    {history later : List Attempt}
    {m : Repository}
    {rest : List Repository}
    {f : Failure}
    {y : Cluster.Trial α}
    {w w₁ w₂ w' : World}
    (hAttempt : Effect.Leads (t.attempt m) w (.error f) w₁)
    (hReport : Effect.Leads (t.report m false) w₁ () w₂)
    (hLater : later = history ++ [⟨m.name, f.message⟩])
    (hGranted : t.retry f later.length = true)
    (hLeft : rest.isEmpty = false)
    (hRest : Effect.Leads (Cluster.tryEach t later rest) w₂ y w') :
    Effect.Leads (Cluster.tryEach t history (m :: rest)) w y w' := by
  subst hLater
  unfold Cluster.tryEach
  refine hAttempt.bind (hReport.bind ?_)
  simp only [hGranted, hLeft, Bool.not_false, Bool.and_self,
    if_true]
  exact hRest

/-
  Where a failure is retried, the members that fail lead on to
  the one that succeeds.
-/
theorem Entry.FailsOn.tryEach
    {d : DataAccess}
    {c : Command}
    {e : Entry}
    {p : Policy}
    {r : Repository}
    {w : World}
    {failed : List Repository}
    {gain : e.Gain}
    {w₁ w₂ w₃ : World}
    {retry : Failure → Nat → Bool}
    (h : FailsOn d c e p failed w w₁)
    (rest : List Repository)
    (history : List Attempt)
    (hRetry : ∀ f n,
      (∀ repository message,
        f ≠ .resultConversion repository message) →
      n ≤ history.length + failed.length → retry f n = true)
    (hGain : Effect.Leads (e.attempt d c r) w₁ (.ok gain) w₂)
    (hReport : Effect.Leads (DataAccess.reportTo p r true) w₂ ()
      w₃) :
    Effect.Leads
      (Cluster.tryEach
        ⟨e.attempt d c, DataAccess.reportTo p, retry⟩ history
        (failed ++ r :: rest)) w (.succeeded gain) w₃ := by
  induction h generalizing history with
  | none w => exact hGain.bind (hReport.bind rfl)
  | @more m members f w w₁ w₂ w' hAttempt hKind hFailed hRest ih =>
      let later := history ++ [⟨m.name, f.message⟩]
      have hLength : later.length = history.length + 1 := by
        simp [later]
      have hGranted : retry f later.length = true := by
        apply hRetry f _ hKind
        rw [hLength, List.length_cons]
        omega
      refine Cluster.tryEach_goesOn hAttempt hFailed rfl hGranted
        (by simp) ?_
      apply ih later
      · intro f n hOther hLess
        apply hRetry f n hOther
        rw [hLength] at hLess
        rw [List.length_cons]
        omega
      · exact hGain

namespace DataAccess

/-
  The result of a command is that of the members that are
  tried.
-/
theorem routed_leads
    {α : Type}
    {d : DataAccess}
    {cluster : String}
    {k : Cluster}
    {c : Command}
    {attempt : Repository → Effect (Except Failure α)}
    {ranked : List Repository}
    {a : α}
    {w w₁ w' : World}
    (hCluster : d.cluster cluster = .ok k)
    (hAvailable : k.available = .ok ())
    (hOrder : Effect.Leads (World.order k) w ranked w₁)
    (hTried : Effect.Leads
      (Cluster.tryEach
        ⟨attempt, reportTo k.policy, k.policy.shouldRetry c⟩ []
        ranked) w₁ (.succeeded a) w') :
    Effect.Leads (d.routed cluster c attempt) w (.ok a) w' := by
  have hRanked : Effect.Leads (World.rank k) w (.ok ranked) w₁ := by
    unfold World.rank
    rw [hAvailable]
    exact hOrder.bind rfl
  unfold routed
  rw [hCluster]
  exact hRanked.bind (hTried.bind rfl)

/- The gain of the attempts is given back, with the outputs. -/
theorem execute_leads
    {d : DataAccess}
    {cluster : String}
    {c : Command}
    {e : Entry}
    {gain : e.Gain}
    {w w' : World}
    (hRouted : Effect.Leads (d.routed cluster c (e.attempt d c)) w
      (.ok gain) w') :
    Effect.Leads (e.execute d cluster c) w
      (.ok (e.gained gain).1, withOutputs c (e.gained gain).2)
      w' := by
  cases e with
  | scalar t => exact hRouted.bind rfl
  | nonQuery => exact hRouted.bind rfl
  | reader => exact hRouted.bind rfl

end DataAccess

/-
  The members that fail lead on to the one that succeeds, if
  they are tried as they are ranked and the limit of attempts
  allows for it.  What comes afterwards is only reported.
-/
theorem Entry.FailsOn.execute
    {d : DataAccess}
    {cluster : String}
    {k : Cluster}
    {c : Command}
    {most : Option Nat}
    {failed rest : List Repository}
    {r : Repository}
    {e : Entry}
    {gain : e.Gain}
    {w w₁ w₂ w₃ : World}
    (hFailed : e.FailsOn d c k.policy failed w₁ w₂)
    (hCluster : d.cluster cluster = .ok k)
    (hAvailable : k.available = .ok ())
    (hRetry : k.policy.retry = .standard most)
    (hMost : ∀ m, most = some m → failed.length + 1 ≤ m)
    (hSafe : c.retrySafe = true)
    (hOrder : Effect.Leads (World.order k) w (failed ++ r :: rest)
      w₁)
    (hGain : Effect.Leads (e.attempt d c r) w₂ (.ok gain) w₃) :
    ∃ w', w'.tallies = w₃.tallies ∧
      Effect.Leads (e.execute d cluster c) w
        (.ok (e.gained gain).1,
          DataAccess.withOutputs c (e.gained gain).2) w' := by
  rcases Effect.exists_leads (DataAccess.reportTo k.policy r true)
    w₃ with ⟨_, w₄, hReport⟩
  have hReported := (hReport.ends_iff _).mp
    (reportTo_change k.policy r true w₃)
  have hGranted (f : Failure) (n : Nat)
      (hKind : ∀ repository message,
        f ≠ .resultConversion repository message)
      (hLess : n ≤ ([] : List Attempt).length + failed.length) :
      k.policy.shouldRetry c f n = true := by
    unfold Policy.shouldRetry
    rw [hRetry]
    apply Policy.standardRetry_safe hSafe hKind
    intro m hM
    have hEnough := hMost m hM
    rw [List.length_nil] at hLess
    omega
  have hTried := hFailed.tryEach rest [] hGranted hGain hReport
  exact ⟨w₄, hReported.tallies, DataAccess.execute_leads
    (DataAccess.routed_leads hCluster hAvailable hOrder hTried)⟩

------------------------------------------------------------
-- Counts
------------------------------------------------------------

/-
  Some members have failed once more and another one has
  succeeded once more, and nothing else was counted.
-/
structure World.CountedOnce
    (failed : List Repository)
    (r : Repository)
    (w w' : World) : Prop where
  failures : ∀ m ∈ failed,
    w'.tallies m.name =
      ⟨(w.tallies m.name).successes,
        (w.tallies m.name).failures + 1⟩
  success : w'.tallies r.name =
    ⟨(w.tallies r.name).successes + 1,
      (w.tallies r.name).failures⟩
  others : ∀ name, name ∉ (failed ++ [r]).map (·.name) →
    w'.tallies name = w.tallies name

theorem World.countedOnce_of_tallies
    {failed : List Repository}
    {r : Repository}
    {w w' : World}
    (hDistinct : ((failed ++ [r]).map (·.name)).Nodup)
    (hTallies : w'.tallies = tallied
      ((failed.map fun m => (m.name, false)).foldl tallied
        w.tallies) (r.name, true)) :
    CountedOnce failed r w w' := by
  let xs := (failed.map fun m => (m.name, false)) ++ [(r.name, true)]
  have hNames : xs.map (·.1) = (failed ++ [r]).map (·.name) := by
    simp [xs]
  have hAll : w'.tallies = xs.foldl tallied w.tallies := by
    rw [hTallies, List.foldl_append]
    rfl
  rw [← hNames] at hDistinct
  constructor
  · intro m hMem
    have hThere : (m.name, false) ∈ xs :=
      List.mem_append_left _ (List.mem_map.mpr ⟨m, hMem, rfl⟩)
    rw [hAll]
    exact tallied_once w.tallies hDistinct hThere
  · have hThere : (r.name, true) ∈ xs :=
      List.mem_append_right _ (List.mem_singleton_self _)
    rw [hAll]
    exact tallied_once w.tallies hDistinct hThere
  · intro name hNot
    rw [← hNames] at hNot
    rw [hAll]
    exact tallied_others xs w.tallies hNot

------------------------------------------------------------
-- Fallback
------------------------------------------------------------

/- A cluster that is on takes commands if it has a member. -/
theorem Cluster.available_of_mem
    {k : Cluster}
    {r : Repository}
    (hEnabled : k.enabled = true)
    (hMem : r ∈ k.members) : k.available = .ok () := by
  have hSome : k.members.isEmpty = false :=
    List.isEmpty_eq_false_iff_exists_mem.mpr ⟨r, hMem⟩
  unfold available
  rw [hEnabled, hSome]
  rfl

namespace DataAccess

/-
  A command on a cluster whose first members fail and whose
  next one succeeds.  The command succeeds with the result and
  the outputs of that member alone, and each member that was
  tried is counted once, a reader's when it is used up and no
  failure has shown.
-/
theorem falls_back
    {d : DataAccess}
    {cluster : String}
    {k : Cluster}
    {c : Command}
    {most : Option Nat}
    {failed rest : List Repository}
    {r : Repository}
    {e : Entry}
    {gain : e.Gain}
    {w w₁ w₂ w₃ : World}
    (hCluster : d.cluster cluster = .ok k)
    (hEnabled : k.enabled = true)
    (hDistinct : (k.members.map (·.name)).Nodup)
    (hRanked : k.policy.IsRanked)
    (hRetry : k.policy.retry = .standard most)
    (hMost : ∀ m, most = some m → failed.length + 1 ≤ m)
    (hSafe : c.retrySafe = true)
    (hNamed : c.IsNamed)
    (hOrder : Effect.Leads (World.order k) w (failed ++ r :: rest)
      w₁)
    (hFailed : e.FailsOn d c k.policy failed w₁ w₂)
    (hGain : Effect.Leads (e.attempt d c r) w₂ (.ok gain) w₃) :
    Effect.Ends (e.execute d cluster c) w fun x w' =>
      ∃ a, x.1 = .ok a ∧
        Effect.Ends (e.direct d c r) w₂
          (fun y _ => y = .ok (a, some x.2)) ∧
        (w.IsQuiet → Effect.Ends (e.direct d c r) w fun y _ =>
          y.map e.seen = .ok (e.view a, some x.2)) ∧
        ∀ ms, Effect.Ends (e.useUp ms a) w' fun failure w'' =>
          failure = none → World.CountedOnce failed r w w'' := by
  have hPerm : (failed ++ r :: rest).Perm k.members :=
    (hOrder.ends_iff fun ranked _ => ranked.Perm k.members).mp
      (Policy.rank_perm hRanked _ _ _ k.members)
  have hMember : r ∈ k.members :=
    hPerm.subset (List.mem_append_right _ List.mem_cons_self)
  have hTriedOnce : ((failed ++ [r]).map (·.name)).Nodup := by
    have hAll : ((failed ++ r :: rest).map (·.name)).Nodup :=
      (hPerm.map _).nodup_iff.mpr hDistinct
    refine hAll.sublist (List.Sublist.map _ ?_)
    simp
  rcases hFailed.execute hCluster
    (Cluster.available_of_mem hEnabled hMember) hRetry hMost hSafe
    hOrder hGain with ⟨w₄, hReported, hExecuted⟩
  rw [hExecuted.ends_iff]
  -- The same command on the last member alone.
  rcases Entry.attempt_counts hGain with ⟨hDirect, hSuccess⟩
  rcases ((hDirect.ends_iff _).mp
    (Entry.direct_counts d c e r w₂)) with ⟨-, hGained, hForetold⟩
  rcases hGained _ rfl with ⟨hHolds, outputs, hStored⟩
  have hSame : withOutputs c (e.gained gain).2 =
      c.storeOutputs outputs := by
    rw [hStored]
    exact Command.copyOutputs_storeOutputs hNamed outputs
  -- What has changed before it is tried.
  have hBefore : Change (Entry.callsAmong failed)
      (failed.map fun m => (m.name, false)) w w₂ := by
    have hOrdered : Change (Entry.callsAmong failed) [] w w₁ :=
      (hOrder.ends_iff fun _ w₁ => Change _ [] w w₁).mp
        (.aside rfl rfl rfl rfl rfl)
    exact hOrdered.trans hFailed.change
  refine ⟨(e.gained gain).1, rfl, ?_, ?_, ?_⟩
  · rw [hDirect.ends_iff, hSame, ← hStored]
    rfl
  · intro hQuiet
    have hApart : r.name ∉ failed.map (·.name) := by
      rw [List.map_append, List.nodup_append] at hTriedOnce
      exact fun hThere => hTriedOnce.2.2 _ hThere _
        (List.mem_singleton_self _) rfl
    have hFuture := Entry.foretold_later d.defaultTimeout c e
      hBefore hQuiet fun _ => hApart
    have hQuiet₂ := (hBefore.alone hQuiet).quiet
    refine (Entry.direct_counts d c e r w).mono ?_
    intro y w' hAlone
    rw [hAlone.2.2 hQuiet, ← hFuture, ← hForetold hQuiet₂, hSame,
      ← hStored]
    rfl
  · intro ms
    refine (Entry.useUp_counts w₄ ms hHolds).mono ?_
    intro failure w' hUsed hNone
    apply World.countedOnce_of_tallies hTriedOnce
    apply hUsed hNone
    rw [hReported, hSuccess.tallies, hBefore.tallies]
    rfl

/- Two members that are tried as they are listed. -/
def duo : Cluster :=
  ⟨"duo", 0, true,
    [⟨"a", "mock", true, 0, .verbatim "MOCK" "a" false⟩,
      ⟨"b", "mock", true, 1, .verbatim "MOCK" "b" false⟩],
    ⟨"plain", .configured, .standard (some 2), false⟩⟩

def duoAccess : DataAccess :=
  ⟨[], [duo], 30⟩

/- The first of them opens no connection. -/
def refusing (repository : String) : Backend :=
  if repository = "a" then
    { Backend.willing with
      refusal := fun call _ =>
        if call = .opening then
          some (.connectionOpen "a" "refused" "")
        else none }
  else Backend.willing

/- The second one answers, and both are counted once. -/
theorem query_falls_back :
    Effect.Ends
      (duoAccess.executeNonQuery "duo"
        (.ofText .text "SELECT 1"))
      (World.initial refusing) fun x w' =>
        x.1.isOk = true ∧
        ∃ a b, duo.members = [a, b] ∧
          World.CountedOnce [a] b (World.initial refusing) w' := by
  let c : Command := .ofText .text "SELECT 1"
  let a : Repository :=
    ⟨"a", "mock", true, 0, .verbatim "MOCK" "a" false⟩
  let b : Repository :=
    ⟨"b", "mock", true, 1, .verbatim "MOCK" "b" false⟩
  rcases Effect.exists_leads (World.order duo)
    (World.initial refusing) with ⟨ranked, w₁, hOrder⟩
  have hRanked : ranked = [a] ++ b :: [] := by
    cases hOrder
    rfl
  have hQuiet : w₁.IsQuiet := by
    cases hOrder
    exact ⟨rfl, rfl⟩
  have hRefused : Entry.foretold a 30 c .nonQuery w₁ =
      .error (.connectionOpen "a" "refused" "") := by
    cases hOrder
    rfl
  have hAnswered :
      (Entry.foretold b 30 c .nonQuery w₁).isOk = true := by
    cases hOrder
    decide +kernel
  subst hRanked
  have hFails : ∀ m ∈ [a], ∃ f,
      Entry.foretold m duoAccess.defaultTimeout c .nonQuery w₁ =
        .error f ∧
      ∀ repository message,
        f ≠ .resultConversion repository message := by
    intro m hMem
    cases List.mem_singleton.mp hMem
    exact ⟨_, hRefused, nofun⟩
  have hDistinct : ([a].map (·.name)).Nodup := by
    decide
  rcases Entry.FailsOn.of_foretold duo.policy hQuiet hDistinct
    hFails with ⟨w₂, hFailed⟩
  have hApart : b.name ∉ [a].map (·.name) := by
    decide
  have hLater := Entry.foretold_later 30 c .nonQuery
    hFailed.change hQuiet fun _ => hApart
  rcases Entry.attempt_foretold duoAccess c .nonQuery b
    (hFailed.change.alone hQuiet).quiet with
    ⟨x, w₃, hAttempt, hSame⟩
  rw [← hLater, ← (show _ = Entry.foretold b 30 c .nonQuery w₂
    from hSame)] at hAnswered
  cases x with
  | error f => cases hAnswered
  | ok gain =>
      have hMost (m : Nat) (hM : some 2 = some m) :
          [a].length + 1 ≤ m := by
        cases hM
        exact Nat.le_refl 2
      have hCluster : duoAccess.cluster "duo" = .ok duo := rfl
      refine (falls_back hCluster rfl (by decide) nofun rfl hMost
        rfl (Command.isNamed_ofText .text "SELECT 1") hOrder
        hFailed hAttempt).mono ?_
      intro y w' hFellBack
      rcases hFellBack with ⟨n, hOk, -, -, hCounted⟩
      refine ⟨?_, a, b, rfl, hCounted [] rfl⟩
      rw [hOk]
      rfl

end DataAccess

end Failover
