import Failover.Proofs.Binding.Current
import Failover.Proofs.Operation.Start
import Failover.Proofs.Session.Use

/-
  What a session hands to its engine: the bound form of its
  command as it was set.  Output values that have come back
  since then are not in it.

  Key definitions include:
    * `Repository.IsBuiltIn`
    * `Session.IsBound`, `Scene.Bound`
    * `Session.Hands`

  Main statements:
    * `Scene.Bound.steps`
    * `Session.start_hands`
    * `Workspace.run_hands_former`
-/

namespace Failover

/- The engine of the repository is one of the built-in ones. -/
def Repository.IsBuiltIn (r : Repository) : Prop :=
  ∃ e settings, r.provider = Provider.ofEngine e settings

------------------------------------------------------------
-- Bound sessions
------------------------------------------------------------

/-
  A session is bound to its command as it was before output
  values came back.
-/
def Session.IsBound (s : Session) : Prop :=
  ∀ c b, s.command = some c → s.bound = some b →
    ∃ former, s.repository.provider.bind former = .ok b ∧
      c.IsLater former

/- A session that binds a command anew is bound. -/
theorem Session.IsBound.rebind
    {s : Session}
    {command : Option Command}
    {bound : Option BoundCommand}
    (h : s.IsBound)
    (hRebinds : s.Rebinds command bound)
    (disposed : Bool) :
    IsBound { s with command, bound, disposed } := by
  intro c b hCommand hBound
  change command = some c at hCommand
  change bound = some b at hBound
  cases hRebinds with
  | none => cases hCommand
  | @bound c' b' hBinds =>
      cases hCommand
      cases hBound
      exact ⟨c, hBinds, .refl c⟩
  | stored o =>
      cases hFormer : s.command with
      | none =>
          rw [hFormer] at hCommand
          cases hCommand
      | some c' =>
          rw [hFormer] at hCommand
          cases hCommand
          rcases h c' b hFormer hBound with
            ⟨former, hBinds, hLater⟩
          exact ⟨former, hBinds, hLater.storeOutputs o⟩

namespace Scene

variable {may : Nat → Prop} {σ σ' : Scene}

def Bound (σ : Scene) : Prop :=
  ∀ s ∈ σ.sessions, s.IsBound

theorem Bound.initial (l : Ledger) : Bound ⟨[], [], l⟩ :=
  fun _ hMem => absurd hMem List.not_mem_nil

/-
  Sessions stay bound when one of them changes and stays
  bound.
-/
theorem Bound.change
    {s s' : Session}
    {ss : List Session}
    {os os' : List Operation}
    {l l' : Ledger}
    (h : Bound ⟨s :: ss, os, l⟩)
    (hChange : s.IsBound → s'.IsBound) :
    Bound ⟨s' :: ss, os', l'⟩ := by
  intro x hX
  rcases List.mem_cons.mp hX with rfl | hX
  · exact hChange (h s (List.mem_cons_self ..))
  · exact h x (List.mem_cons_of_mem _ hX)

theorem Bound.tail
    {s : Session}
    {ss : List Session}
    {os os' : List Operation}
    {l l' : Ledger}
    (h : Bound ⟨s :: ss, os, l⟩) : Bound ⟨ss, os', l'⟩ :=
  fun x hX => h x (List.mem_cons_of_mem _ hX)

theorem Bound.step
    (hBound : Bound σ)
    (h : Step may σ σ') : Bound σ' := by
  cases h with
  | rearranged hSessions =>
      exact fun s hS => hBound s (hSessions.mem_iff.mpr hS)
  | around => exact hBound
  | made r n =>
      intro s hS
      rcases List.mem_cons.mp hS with rfl | hS
      · exact fun c b hCommand => by cases hCommand
      · exact hBound s hS
  | changed command bound disposed hRebinds =>
      exact hBound.change fun h => h.rebind hRebinds disposed
  | opened => exact hBound.change fun h => h
  | closed => exact hBound.change fun h => h
  | discarded => exact hBound.change fun h => h
  | began => exact hBound.change fun h => h
  | refused => exact hBound
  | ended => exact hBound.change fun h => h
  | cleared => exact hBound.change fun h => h
  | started => exact hBound.change fun h => h
  | returned => exact hBound.change fun h => h
  | lost => exact hBound.change fun h => h
  | dropped => exact hBound
  | left => exact hBound.tail
  | leftOpen => exact hBound.tail
  | leftInTransaction => exact hBound.tail

theorem Bound.steps
    (hBound : Bound σ)
    (h : Steps may σ σ') : Bound σ' := by
  induction h with
  | refl => exact hBound
  | tail _ hStep ih => exact ih.step hStep

end Scene

------------------------------------------------------------
-- What is handed to the engine
------------------------------------------------------------

namespace Session

variable {s : Session} {c : Command} {b : BoundCommand}

/- The work of an operation has begun for a bound command. -/
structure Hands
    (s : Session)
    (b : BoundCommand)
    (o : Operation)
    (w' : World) : Prop where
  bound : s.bound = some b
  work : ∃ k limit w₁,
    Effect.Leads (World.spawn k limit b) w₁ o.task w'

/- An operation starts for what its session is bound to. -/
theorem start_hands
    (w : World)
    (kind : Operation.Kind)
    (hCommand : s.command = some c)
    (hBound : s.bound = some b) :
    Try.Ends (start kind) s w fun x _ w' =>
      ∀ o, x = .ok o → s.Hands b o w' := by
  by_cases hDisposed : s.disposed = true
  · refine (start_unusable w hDisposed kind).mono ?_
    intro x s' w' hRefused o hOk
    rcases hRefused.1 with ⟨f, hFail⟩
    cases hFail.symm.trans hOk
  · have hUsable := Bool.eq_false_of_not_eq_true hDisposed
    by_cases hBusy : s.link = .busy
    · refine (start_begins (fun _ => False) s w kind).mono ?_
      intro x s' w' hBegins o hOk
      rcases hBegins with
        ⟨o', k, b', w₁, hStarted, hKind, hAfter, hFree, hRest⟩ |
          ⟨f, hFail, -⟩
      · exact absurd hBusy hFree
      · cases hFail.symm.trans hOk
    · refine (start_begun w kind hUsable hBusy hCommand
        hBound).mono ?_
      intro x s' w' hBegun o hOk
      cases hBegun with
      | unavailable f info w' hLink hTells => cases hOk
      | started o k w₁ w' hOwn hText hLink hApart hWork =>
          cases hOk
          exact ⟨hBound, k, _, w₁, hWork⟩

/-
  The command of a session as it was set, which is bound and
  handed to the engine.  It is bound as it is now only if it
  is one of a table, or if nothing that is sent and comes back
  has taken another value.
-/
structure HandsFormer
    (s : Session)
    (b : BoundCommand)
    (c former : Command) : Prop where
  command : s.command = some c
  bound : s.repository.provider.bind former = .ok b
  later : c.IsLater former
  current : s.repository.provider.bind c = .ok b ↔
    c.kind = .table ∨ c.SendsAs former

theorem IsBound.former
    (hBound : s.IsBound)
    (hBuiltIn : s.repository.IsBuiltIn)
    (hCommand : s.command = some c)
    (hThis : s.bound = some b) :
    ∃ former, s.HandsFormer b c former := by
  rcases hBound c b hCommand hThis with ⟨former, hBinds, hLater⟩
  rcases hBuiltIn with ⟨e, settings, hProvider⟩
  refine ⟨former, hCommand, hBinds, hLater, ?_⟩
  rw [hProvider] at hBinds ⊢
  rw [Provider.ofEngine_bind_iff] at hBinds ⊢
  exact e.bind_later_iff hLater hBinds

end Session

namespace Workspace

/-
  After any requests: an operation that starts on a session of
  a built-in engine hands over the command as it was set, and
  output values that it took since then are left out.
-/
theorem run_hands_former
    (d : DataAccess)
    (backend : String → Backend)
    (qs : List Request) :
    Act.Ends (run qs) (ofAccess d) (World.initial backend)
      fun _ ws w =>
        ∀ s ∈ ws.heldSessions, s.repository.IsBuiltIn →
          ∀ kind, Try.Ends (Session.start kind) s w
            fun x s' w' => ∀ o, x = .ok o →
              ∃ b c former, s.Hands b o w' ∧
                s'.command = s.command ∧
                s.HandsFormer b c former := by
  refine (run_follows qs (ofAccess d) (World.initial backend)
    (tidy_ofAccess d)).mono ?_
  intro _ ws w hFollows s hMem hBuiltIn kind
  have hInitial := Scene.Sound.initial backend
  have hProper : (ws.scene w [] []).Proper :=
    (Scene.Proper.initial _).steps hInitial hFollows.steps
  have hBound : (ws.scene w [] []).Bound :=
    (Scene.Bound.initial _).steps hFollows.steps
  refine Act.Ends.mono
    (Act.Ends.and (Session.start_begins (fun _ => False) s w kind)
      (Q := fun x s' w' => ∀ c b, s.command = some c →
        s.bound = some b → ∀ o, x = .ok o → s.Hands b o w') ?_) ?_
  · intro c b hCommand hThis
    exact Session.start_hands w kind hCommand hThis
  · intro x s' w' hBoth o hOk
    rcases hBoth with
      ⟨⟨o', k, b, w₁, hStarted, hKind, hAfter, hFree, hThis, hRest⟩ |
        ⟨f, hFail, -⟩, hHands⟩
    · have hSome := (hProper s hMem).command
      rw [hThis, Option.isSome_some, Option.isSome_iff_exists]
        at hSome
      rcases hSome with ⟨c, hCommand⟩
      rcases (hBound s hMem).former hBuiltIn hCommand hThis with
        ⟨former, hFormer⟩
      refine ⟨b, c, former, hHands c b hCommand hThis o hOk, ?_,
        hFormer⟩
      rw [hAfter]
    · cases hFail.symm.trans hOk

------------------------------------------------------------
-- A value that is left out
------------------------------------------------------------

/- A repository of a built-in engine. -/
def onePostgres : DataAccess :=
  ⟨[("a", ⟨"a", "postgres", true, 0,
    .ofEngine .postgres ⟨"a", "postgres://a/db", none, {}⟩⟩)], [],
    30⟩

/- A procedure that takes a number and gives one back. -/
def counting : Command :=
  { Command.ofText .procedure "bump" with
    parameters :=
      [⟨"total", .inputOutput, .bigInt, none, .int 1⟩] }

/- An engine that gives the number five back. -/
def reportingFive : Backend :=
  { Backend.willing with
    fetch := fun _ _ =>
      ⟨0, some (.ok
        ⟨[⟨[⟨"total", "INT8"⟩], [[.int 5]], none⟩], 1, .empty⟩)⟩ }

/- The procedure is bound, and called once. -/
def countOnce : List Request :=
  [.openRepositorySession "a" "s", .setCommand "s" counting,
    .execute "s" .nonQuery .bool]

/- The number that a bound command sends first. -/
def firstNumber? (b : BoundCommand) : Option Int64 :=
  match b.main.arguments with
  | ⟨.int n, _⟩ :: _ => some n
  | _ => none

/-
  The number that a session is bound to, the one that its
  command would be bound to now, and whether it can start.
-/
def numbersOf
    (s : Session)
    (w : World) : Option Int64 × Option Int64 × Bool :=
  let bound := s.command.bind fun c =>
    (s.repository.provider.bind c).toOption
  (s.bound.bind firstNumber?, bound.bind firstNumber?,
    (((Session.start .nonQuery).run.run s).run w).1.1.isOk)

theorem countOnce_numbers :
    Act.Ends (run countOnce) (ofAccess onePostgres)
      (World.initial fun _ => reportingFive) fun _ ws w =>
        (ws.heldSessions.map fun s => numbersOf s w) =
          [(some 1, some 5, true)] := by
  unfold Act.Ends Effect.Ends
  decide +kernel

/- The second call does not send what the first one gave. -/
theorem former_number_is_sent :
    ¬ ∀ (d : DataAccess) (backend : String → Backend)
      (qs : List Request),
      (∀ x ∈ d.repositories, x.2.IsBuiltIn) → d.clusters = [] →
      Act.Ends (run qs) (ofAccess d) (World.initial backend)
        fun _ ws w =>
          ∀ s ∈ ws.heldSessions, ∀ kind,
            Try.Ends (Session.start kind) s w fun x _ w' =>
              ∀ o b, x = .ok o → s.Hands b o w' →
                ∃ c, s.command = some c ∧
                  s.repository.provider.bind c = .ok b := by
  intro h
  have hBuiltIn : ∀ x ∈ onePostgres.repositories,
      x.2.IsBuiltIn := by
    intro x hX
    cases List.mem_singleton.mp hX
    exact ⟨_, _, rfl⟩
  have hBoth := Act.Ends.and
    (h onePostgres (fun _ => reportingFive) countOnce hBuiltIn rfl)
    countOnce_numbers
  revert hBoth
  unfold Act.Ends Effect.Ends
  generalize ((run countOnce).run _).run _ = y
  intro hBoth
  rcases hBoth with ⟨hClaim, hNumbers⟩
  rcases List.map_eq_singleton_iff.mp hNumbers with
    ⟨s, hHeld, hThis⟩
  unfold numbersOf at hThis
  simp only [Prod.mk.injEq] at hThis
  rcases hThis with ⟨hFormer, hNow, hOk⟩
  rcases Option.bind_eq_some_iff.mp hFormer with
    ⟨b, hBound, hFirst⟩
  rcases Option.bind_eq_some_iff.mp hNow with
    ⟨b', hBinds, hSecond⟩
  rcases Option.bind_eq_some_iff.mp hBinds with
    ⟨c, hCommand, hOption⟩
  have hStart := hClaim s (hHeld ▸ List.mem_singleton_self s)
    .nonQuery
  have hHands := Session.start_hands y.2 .nonQuery hCommand hBound
  unfold Try.Ends Act.Ends Effect.Ends at hStart hHands
  cases hResult :
      (((Session.start .nonQuery).run.run s).run y.2).1.1 with
  | error f =>
      rw [hResult] at hOk
      cases hOk
  | ok o =>
      rcases hStart o b hResult (hHands o hResult) with
        ⟨c', hSame, hBindsNow⟩
      cases hCommand.symm.trans hSame
      rw [hBindsNow] at hOption
      cases hOption
      cases hFirst.symm.trans hSecond

end Workspace

end Failover
