import Failover.Proofs.Scene.Request
import Failover.Proofs.Transaction.Holding

/-
  All that is left is dropped where nothing goes on in the
  background: connections inside transactions are discarded,
  and work is stopped with the connection that it has.

  Key definitions include:
    * `Scene.Parting`, `Scene.Partings`
    * `Workspace.AtWork`

  Main statements:
    * `Scene.Parting.custody`
    * `Scene.clean_partings`
    * `Workspace.abandon_partings`
-/

namespace Failover

namespace Scene

variable {cut : Connection → Prop} {σ σ' : Scene}

------------------------------------------------------------
-- Parting
------------------------------------------------------------

/-
  What happens to scenes abroad, besides all else.  The
  connections that may be lost with stopped work are given.
-/
inductive Parting (cut : Connection → Prop) :
    Scene → Scene → Prop where
  | stepped
      {σ σ' : Scene}
      (h : Step (fun _ => True) σ σ') : Parting cut σ σ'
  | discarded
      {ss : List Session}
      {os : List Operation}
      {l : Ledger}
      {s : Session}
      {c : Connection}
      (hLink : s.link = .opened c) :
      Parting cut ⟨s :: ss, os, l⟩
        ⟨ss, os, (l.add [.discarded c]).close⟩
  | stopped
      {ss : List Session}
      {os : List Operation}
      {l : Ledger}
      (o : Operation)
      (hCut : ∀ c, l.own? o.task = some c → cut c) :
      Parting cut ⟨ss, o :: os, l⟩
        ⟨ss, os, (l.forget o.task).close⟩

abbrev Partings (cut : Connection → Prop) :=
  Relation.ReflTransGen (Parting cut)

theorem Steps.partings
    {may : Nat → Prop}
    (h : Steps may σ σ') : Partings cut σ σ' :=
  h.lift id fun _ _ hStep =>
    .stepped (hStep.mono fun _ _ => trivial)

/- The engines stay as they are. -/
theorem Parting.backend_eq
    (h : Parting cut σ σ') :
    σ'.ledger.backend = σ.ledger.backend := by
  cases h with
  | stepped h => exact h.backend_eq
  | discarded => rfl
  | stopped => rfl

/- A parting adds to the log at its end only. -/
theorem Parting.log_grows
    (h : Parting cut σ σ') :
    σ.ledger.log <+: σ'.ledger.log := by
  cases h with
  | stepped h => exact h.log_grows
  | discarded => exact List.prefix_append _ _
  | stopped => exact List.prefix_rfl

/- The claim of an operation that is stopped. -/
theorem Claimed.stopped
    {ss : List Session}
    {o : Operation}
    {os : List Operation}
    {l : Ledger}
    (hNodup : l.taskIds.Nodup)
    (hClaimed : Claimed ⟨ss, o :: os, l⟩) :
    Claimed ⟨ss, os, (l.forget o.task).close⟩ :=
  Claimed.forget hNodup hClaimed (.refl _)

theorem Sound.parting
    (hSound : Sound σ)
    (h : Parting cut σ σ') : Sound σ' := by
  cases h with
  | stepped h => exact hSound.step h
  | @discarded ss os l s c hLink =>
      rcases hSound with ⟨hNumbered, hClaimed, hPaired, hAnswered⟩
      refine ⟨?_, hClaimed, ?_, ?_⟩
      · exact hNumbered.less (List.sublist_cons_self ..) (.refl _)
          rfl rfl
      · exact hPaired.less (fun _ hS => List.mem_cons_of_mem _ hS)
          (.refl _) rfl
      · exact answered_noted hAnswered [_] rfl rfl rfl rfl
          (by simp [Unasked, Event.asks])
  | @stopped ss os l o =>
      rcases hSound with ⟨hNumbered, hClaimed, hPaired, hAnswered⟩
      refine ⟨?_, hClaimed.stopped hNumbered.tasks, ?_, ?_⟩
      · exact hNumbered.less (.refl _) (Ledger.taskIds_forget ..)
          rfl rfl
      · exact hPaired.less (fun _ hS => hS)
          (List.sublist_cons_self ..) rfl
      · exact answered_noted (hAnswered.forget o.task) [] rfl rfl
          (List.append_nil _).symm rfl .nil

/- The work of an operation is stopped. -/
theorem holdings_stopped
    {ss : List Session}
    {o : Operation}
    {os : List Operation}
    {l : Ledger}
    (hNodup : l.taskIds.Nodup)
    (hClaimed : Claimed ⟨ss, o :: os, l⟩) :
    (holdings ⟨ss, o :: os, l⟩).Perm
      (((l.own? o.task).map (·, o.context.inTransaction)).toList ++
        holdings ⟨ss, os, (l.forget o.task).close⟩) := by
  have hPerm : (claims ⟨ss, o :: os, l⟩).Perm
      ((o.task, o.context.inTransaction) ::
        claims ⟨ss, os, (l.forget o.task).close⟩) := .refl _
  rcases holdings_forget hNodup hClaimed hPerm with
    ⟨hBefore, hAfter⟩
  have hRest := List.Perm.of_eq hAfter.symm
  rcases hOwn : l.own? o.task with _ | c
  · rw [Ledger.holdings_cons_none _ _ hOwn] at hBefore
    exact holdings_perm (hBefore.trans hRest) rfl
  · rw [Ledger.holdings_cons_some _ _ hOwn] at hBefore
    exact holdings_claim (hBefore.trans (hRest.cons _)) rfl

/-
  Connections are held and released as everywhere, but for one
  that is lost with stopped work.
-/
theorem Parting.custody
    (hSound : Sound σ)
    (h : Parting cut σ σ') :
    Custody.Steps σ.ledger.backend σ.custody σ'.custody ∨
    ∃ c b, cut c ∧ Custody.Steps σ.ledger.backend σ.custody
      ⟨(c, b) :: σ'.holdings, σ'.ledger.connections,
        σ'.ledger.log⟩ := by
  cases h with
  | stepped h => exact .inl (h.custody hSound)
  | @discarded ss os l s c hLink =>
      left
      rw [Scene.custody, holdings_opened hLink]
      exact .single (.discarded c _)
  | @stopped ss os l o hCut =>
      have hHeld := holdings_stopped hSound.numbered.tasks
        hSound.claimed
      rcases hOwn : l.own? o.task with _ | c
      · rw [hOwn] at hHeld
        exact .inl (.single (.arranged hHeld))
      · rw [hOwn] at hHeld
        exact .inr ⟨c, _, hCut c hOwn, .single (.arranged hHeld)⟩

theorem clean_parting
    (hSound : Sound σ)
    (hClean : Custody.Clean σ.custody)
    (h : Parting cut σ σ') : Custody.Clean σ'.custody := by
  rcases h.custody hSound with hSteps | ⟨c, b, -, hSteps⟩
  · exact hClean.steps hSteps
  · exact (hClean.steps hSteps).tail

theorem clean_partings
    (hSound : Sound σ)
    (hClean : Custody.Clean σ.custody)
    (h : Partings cut σ σ') :
    Sound σ' ∧ Custody.Clean σ'.custody := by
  induction h with
  | refl => exact ⟨hSound, hClean⟩
  | tail _ hParting ih =>
      exact ⟨ih.1.parting hParting,
        clean_parting ih.1 ih.2 hParting⟩

end Scene

------------------------------------------------------------
-- Sessions and operations abroad
------------------------------------------------------------

theorem Session.dropAbroad_partings
    (cut : Connection → Prop)
    (s : Session)
    (ss : List Session)
    (os : List Operation)
    (w : World) :
    Effect.Ends s.dropAbroad w fun _ w' =>
      w'.tasks = w.tasks ∧
      Scene.Partings cut ⟨s :: ss, os, w.ledger⟩
        ⟨ss, os, w'.ledger⟩ := by
  unfold dropAbroad
  split
  · next c hLink =>
    split
    · exact ⟨rfl, .single (.discarded hLink)⟩
    · next hTransaction =>
      have hFalse := Bool.eq_false_of_not_eq_true hTransaction
      rw [Effect.ends_bind, Effect.ends_discard]
      refine (World.callOn_noted w c .close nofun).mono ?_
      rintro _ w₁ ⟨-, ok, hLedger⟩
      refine ⟨congrArg Ledger.tasks hLedger, ?_⟩
      change Scene.Partings cut _ ⟨_, _, w₁.ledger.close⟩
      rw [hLedger]
      exact .single (.stepped (.leftOpen ok hLink hFalse))
  · next hLink =>
    exact ⟨rfl, .single (.stepped (.left fun c h => hLink c h))⟩

/- A reader is released before its session is dropped. -/
theorem Reader.dropAbroad_partings
    (cut : Connection → Prop)
    (r : Reader)
    (ss : List Session)
    (os : List Operation)
    (w : World) :
    Effect.Ends (do
        let (_, r) ← Reader.release.run r
        r.session.dropAbroad) w fun _ w' =>
      Scene.Partings cut ⟨r.session :: ss, os, w.ledger⟩
        ⟨ss, os, w'.ledger⟩ := by
  rw [Effect.ends_bind, Act.ends_run]
  refine (Reader.release_goes r w).mono ?_
  intro _ r' w₁ hFollows
  have hReleased : Scene.Partings cut _ _ :=
    (hFollows.steps.frame ss os).partings
  refine (r'.session.dropAbroad_partings cut ss os w₁).mono ?_
  exact fun _ w' hDropped => hReleased.trans hDropped.2

namespace Workspace

/- The connections on which held operations are at work. -/
def AtWork
    (ws : Workspace)
    (w : World)
    (c : Connection) : Prop :=
  ∃ o ∈ ws.heldOperations, w.ledger.own? o.task = some c

/- Arranging by name leaves out nothing and adds nothing. -/
theorem byName_perm
    {κ α : Type}
    (name : κ → String)
    (xs : List (κ × α)) : (byName name xs).Perm xs :=
  List.mergeSort_perm ..

/-
  Abandoning a workspace leaves all that it holds behind, one
  after the other.
-/
theorem abandon_partings
    (ws : Workspace)
    (w : World) :
    Effect.Ends ws.abandon w fun _ w' =>
      Scene.Partings (ws.AtWork w) (ws.scene w [] [])
        ⟨[], [], w'.ledger⟩ := by
  let ss := (byName id ws.sessions).map (·.2)
  let os := (byName id ws.operations).map (·.2)
  let rs := (byName Holder.name ws.readers).map (·.2.session)
  have hOperations :=
    (byName_perm id ws.operations).map (fun x => x.2)
  have hArranged : Scene.Partings (ws.AtWork w)
      (ws.scene w [] []) ⟨ss ++ rs, os, w.ledger⟩ := by
    refine .single (.stepped (.rearranged ?_ ?_))
    · exact ((byName_perm id ws.sessions).map _).symm.append
        ((byName_perm Holder.name ws.readers).map _).symm
    · exact hOperations.symm
  -- Work is stopped on tasks that were there from the start.
  let P₁ (xs : List (String × Session)) (w' : World) : Prop :=
    w'.tasks = w.tasks ∧
    Scene.Partings (ws.AtWork w) (ws.scene w [] [])
      ⟨xs.map (·.2) ++ rs, os, w'.ledger⟩
  let P₂ (xs : List (String × Operation)) (w' : World) : Prop :=
    (∀ id t, w'.ledger.task? id = some t →
      w.ledger.task? id = some t) ∧
    (∀ x ∈ xs, x.2 ∈ ws.heldOperations) ∧
    Scene.Partings (ws.AtWork w) (ws.scene w [] [])
      ⟨rs, xs.map (·.2), w'.ledger⟩
  let P₃ (xs : List (Holder × Reader)) (w' : World) : Prop :=
    Scene.Partings (ws.AtWork w) (ws.scene w [] [])
      ⟨xs.map (·.2.session), [], w'.ledger⟩
  unfold abandon
  refine (Effect.Ends.forM (P := P₁) ⟨rfl, hArranged⟩ ?_).bind ?_
  · rintro x xs w₁ ⟨hTasks, hLeft⟩
    refine (x.2.dropAbroad_partings (ws.AtWork w)
      (xs.map (·.2) ++ rs) os w₁).mono ?_
    rintro _ w₂ ⟨hSame, hDropped⟩
    exact ⟨hSame.trans hTasks, hLeft.trans hDropped⟩
  rintro _ w₁ ⟨hTasks, hSessions⟩
  have hStart : P₂ (byName id ws.operations) w₁ := by
    refine ⟨fun id t hTask => ?_, fun x hX => ?_, hSessions⟩
    · rw [Ledger.task?, World.ledger, hTasks] at hTask
      exact hTask
    · exact hOperations.mem_iff.mp (List.mem_map.mpr ⟨x, hX, rfl⟩)
  refine (Effect.Ends.forM (P := P₂) hStart ?_).bind ?_
  · rintro x xs w₂ ⟨hOld, hHeld, hLeft⟩
    refine ⟨fun id t hTask => ?_, fun y hY => ?_, ?_⟩
    · exact hOld id t (Ledger.task?_of_forget hTask)
    · exact hHeld y (List.mem_cons_of_mem _ hY)
    · refine hLeft.tail (.stopped x.2 fun c hOwn => ?_)
      exact ⟨x.2, hHeld x (List.mem_cons_self ..),
        Ledger.own?_of_task? (hOld x.2.task) hOwn⟩
  rintro _ w₂ ⟨-, -, hStopped⟩
  refine Effect.Ends.forM (P := P₃) hStopped ?_
  intro x xs w₃ hLeft
  refine (x.2.dropAbroad_partings (ws.AtWork w)
    (xs.map (·.2.session)) [] w₃).mono ?_
  exact fun _ w₄ hDropped => hLeft.trans hDropped

end Workspace

end Failover
