import Failover.Proofs.Scene.Names

/-
  What a request does to a workspace, as steps of its scene.
  A transaction ends only by a request that is made for it,
  or by the loss of its connection in an operation that fails.

  Key definitions include:
    * `Workspace.Request.ending?`
    * `Workspace.Request.completing?`
    * `Workspace.Request.Ends`, `Workspace.Request.Loses`
    * `Workspace.Request.MayEnd`

  Main statements:
    * `Workspace.answer_follows`
    * `Workspace.perform_follows`
    * `Workspace.run_follows`
-/

namespace Failover

namespace Workspace

------------------------------------------------------------
-- The ends of transactions
------------------------------------------------------------

namespace Request

/- The session whose transaction a request is to end. -/
def ending? : Request → Option String
  | .begin name => some name
  | .commit name => some name
  | .rollback name => some name
  | .dispose name => some name
  | _ => none

/- The session with which a request completes an operation. -/
def completing? : Request → Option String
  | .execute name _ _ => some name
  | .complete name _ _ => some name
  | .completeOwned name _ _ => some name
  | _ => none

/- A request that ends the transaction of a session. -/
def Ends
    (q : Request)
    (ws : Workspace)
    (i : Nat) : Prop :=
  ∃ name s, q.ending? = some name ∧
    ws.session? name = some s ∧ s.id = i

/-
  A request that completes an operation of a session with a
  failure, and leaves the session without a connection.
-/
def Loses
    (q : Request)
    (ws : Workspace)
    (a : Answer)
    (ws' : Workspace)
    (i : Nat) : Prop :=
  ∃ name s, q.completing? = some name ∧
    ws.session? name = some s ∧ s.id = i ∧
    (∃ f, a = .gave (.error f)) ∧
    ∀ s', ws'.session? name = some s' → s'.link = .closed

/- The sessions whose transactions may end by a request. -/
def MayEnd
    (q : Request)
    (ws : Workspace)
    (w : World)
    (a : Answer)
    (ws' : Workspace)
    (i : Nat) : Prop :=
  q.Ends ws i ∨ q.Loses ws a ws' i ∨ w.sessions ≤ i

end Request

variable {ws : Workspace} {w : World}

------------------------------------------------------------
-- Sessions and readers at work
------------------------------------------------------------

/-
  An act of a session that is kept under a name is a step of
  the scene.
-/
theorem onSession_follows
    (may : Session → Except Failure Result → Session →
      Nat → Prop)
    (os os' : List Operation)
    (hTidy : ws.Tidy)
    (name : String)
    (act : Session.Try Result)
    (hAct : ∀ s, ws.session? name = some s →
      Try.Ends act s w fun r s' w' =>
        Scene.Steps (may s r s') ⟨[s], os, w.ledger⟩
          ⟨[s'], os', w'.ledger⟩) :
    Act.Ends (onSession name act) ws w fun a ws' w' =>
      (a = .absent ∧ ws.session? name = none ∧
        ws' = ws ∧ w' = w) ∨
      (∃ s s' r, ws.session? name = some s ∧ a = .gave r ∧
        ws'.session? name = some s' ∧
        Follows (may s r s') [] os ws w [] os' ws' w') := by
  unfold onSession
  rw [Act.ends_bind, Act.ends_get]
  cases hSession : ws.session? name with
  | none => exact .inl ⟨rfl, rfl, rfl, rfl⟩
  | some s =>
      simp only
      rw [Act.ends_bind, Act.ends_lift, Act.ends_run, Try.ends_run]
      refine (hAct s hSession).mono ?_
      intro r s' w' hSteps
      let ws₁ := { ws with sessions := without name ws.sessions }
      have hTaken : Follows (may s r s') [] os ws w [s] os
          ws₁ w :=
        takeSession_follows hTidy hSession
      have hDone := hTaken.trans (.inHand hTaken.tidy hSteps)
      have hAbsent : name ∉ keys ws₁.sessions :=
        absent_without name ws.sessions
      have hPut : Follows (may s r s') [s'] os' ws₁ w' [] os' _
          w' :=
        putSession_follows s' hDone.tidy hAbsent
      have hSame : without name ws₁.sessions = ws₁.sessions :=
        without_absent hAbsent
      rw [hSame] at hPut
      exact .inr ⟨s, s', r, rfl, rfl, session?_put name s',
        hDone.trans hPut⟩

theorem onReader_follows
    (may : Nat → Prop)
    (hTidy : ws.Tidy)
    (h : Holder)
    {α : Type}
    (act : Reader.Act α)
    (after : α → Act Answer)
    (hAct : ∀ r, Act.Ends act r w fun _ r' w' =>
      r.Follows w r' w')
    (hAfter : ∀ a ws w, Act.Ends (after a) ws w fun _ ws' w' =>
      ws' = ws ∧ w' = w) :
    Act.Ends (do
        match (← get).reader? h with
        | none => return .absent
        | some r =>
            let (a, r) ← liftM (act.run r)
            setReader h r
            after a : Act Answer) ws w fun _ ws' w' =>
      Follows may [] [] ws w [] [] ws' w' := by
  rw [Act.ends_bind, Act.ends_get]
  cases hReader : ws.reader? h with
  | none => exact .refl hTidy
  | some r =>
      simp only
      rw [Act.ends_bind, Act.ends_lift, Act.ends_run]
      refine (hAct r).mono ?_
      intro a r' w' hFollows
      let ws₁ := { ws with readers := without h ws.readers }
      have hTaken : Follows may [] [] ws w [r.session] [] ws₁ w :=
        takeReader_follows hTidy hReader
      have hSteps := hFollows.steps.mono (fun i h => h.elim :
        ∀ i, False → may i)
      have hDone := hTaken.trans (.inHand hTaken.tidy hSteps)
      have hAbsent : h ∉ keys ws₁.readers :=
        absent_without h ws.readers
      have hPut : Follows may [r'.session] [] ws₁ w' [] [] _ w' :=
        putReader_follows r' hDone.tidy hAbsent
      have hSame : without h ws₁.readers = ws₁.readers :=
        without_absent hAbsent
      rw [hSame] at hPut
      unfold setReader
      rw [Act.ends_bind, Act.ends_modify]
      refine (hAfter a _ _).mono ?_
      rintro _ ws' w'' ⟨rfl, rfl⟩
      exact hDone.trans hPut

/- A reader keeps its session under another name. -/
theorem renameReader_follows
    (may : Nat → Prop)
    (hTidy : ws.Tidy)
    (h : Holder)
    (name : String) :
    Act.Ends (renameReader h name) ws w fun _ ws' w' =>
      Follows may [] [] ws w [] [] ws' w' := by
  unfold renameReader
  rw [Act.ends_bind, Act.ends_get]
  cases hReader : ws.reader? h with
  | none => exact .refl hTidy
  | some r =>
      simp only
      rw [Act.ends_bind]
      unfold removeReader
      rw [Act.ends_modify]
      have hTaken : Follows may [] [] ws w [r.session] [] _ w :=
        takeReader_follows hTidy hReader
      refine (keepReader_follows may [] [] w hTaken.tidy
        (.named name) r).mono ?_
      intro _ ws' w' hKept
      exact hTaken.trans hKept

------------------------------------------------------------
-- Operations
------------------------------------------------------------

/-
  The reader of an operation that is completed is kept, or the
  session is given back without it.
-/
theorem openReader_follows
    (name : String)
    (s : Session)
    (o : Operation)
    (h : Holder)
    (giveBack : Session → Act Unit)
    (hTidy : ws.Tidy)
    (hGiveBack : ∀ s₁ w₁,
      Act.Ends (giveBack s₁) ws w₁ fun _ ws' w' =>
        (∀ may, Follows may [s₁] [] ws w₁ [] [] ws' w') ∧
          ∀ s', ws'.session? name = some s' → s' = s₁) :
    Act.Ends (openReader s o h giveBack) ws w fun a ws' w' =>
      Follows
        (fun i => i = s.id ∧ (∃ f, a = .gave (.error f)) ∧
          ∀ s', ws'.session? name = some s' → s'.link = .closed)
        [s] [o] ws w [] [] ws' w' := by
  unfold openReader
  rw [Act.ends_bind, Act.ends_lift]
  refine (Session.openReader_ends s w o).mono ?_
  rintro ⟨x, s₁⟩ w₁ ⟨hTakes, hReader⟩
  cases x with
  | ok r =>
      have hNever : Follows (fun _ => False) [s] [o] ws w
          [r.session] [] ws w₁ := by
        rw [hReader r rfl]
        refine .inHand hTidy (hTakes.steps.mono ?_)
        rintro i ⟨-, -, f, hFail⟩
        cases hFail
      refine (keepReader_follows (fun _ => False) [] [] w₁ hTidy
        h r).bind ?_
      intro _ ws' w' hKept
      exact (hNever.trans hKept).mono fun _ h => h.elim
  | error f =>
      refine (hGiveBack s₁ w₁).bind ?_
      rintro _ ws' w' ⟨hGiven, hOnly⟩
      refine .trans (.inHand hTidy (hTakes.steps.mono ?_))
        (hGiven _)
      rintro i ⟨hI, hLink, -⟩
      refine ⟨hI.trans hTakes.id, ⟨f, rfl⟩, ?_⟩
      intro s' hSession
      rw [hOnly s' hSession]
      exact hLink

/- The session goes back to its name. -/
theorem setSession_gives
    (hTidy : ws.Tidy)
    {name : String}
    (hAbsent : name ∉ keys ws.sessions)
    (s : Session)
    (w : World) :
    Act.Ends (setSession name s) ws w fun _ ws' w' =>
      (∀ may, Follows may [s] [] ws w [] [] ws' w') ∧
        ∀ s', ws'.session? name = some s' → s' = s := by
  refine ⟨fun may => putSession_follows s hTidy hAbsent, ?_⟩
  intro s' hSession
  exact Option.some.inj (hSession.symm.trans (session?_put name s))

/- A session that has lost its connection in a failure. -/
def Spoils
    (s : Session)
    (r : Except Failure Result)
    (s' : Session)
    (i : Nat) : Prop :=
  i = s.id ∧ s'.link = .closed ∧ ∃ f, r = .error f

/- A result is wrapped up, and a failure stays what it is. -/
theorem wrapped_ends
    {α : Type}
    {act : Session.Try α}
    {s : Session}
    {os : List Operation}
    (wrap : α → Result)
    (h : Try.Ends act s w fun r s' w' =>
      s'.id = s.id ∧
        Scene.Steps (Session.Lost s' r) ⟨[s], os, w.ledger⟩
          ⟨[s'], [], w'.ledger⟩) :
    Try.Ends (do return wrap (← act)) s w fun r s' w' =>
      Scene.Steps (Spoils s r s') ⟨[s], os, w.ledger⟩
        ⟨[s'], [], w'.ledger⟩ := by
  rw [Try.ends_bind]
  refine h.mono ?_
  rintro r s' w' ⟨hId, hSteps⟩
  cases r with
  | ok a =>
      refine hSteps.mono ?_
      rintro i ⟨-, -, f, hFail⟩
      cases hFail
  | error f =>
      refine hSteps.mono ?_
      rintro i ⟨hI, hLink, -⟩
      exact ⟨hI.trans hId, hLink, f, rfl⟩

/-
  A session ends its operation under its name, and what came
  of it is wrapped up.
-/
theorem onSession_loses
    {α : Type}
    {act : Session.Try α}
    (q : Request)
    (os : List Operation)
    (hTidy : ws.Tidy)
    {name : String}
    (hName : q.completing? = some name)
    (wrap : α → Result)
    (hAct : ∀ s, Try.Ends act s w fun r s' w' =>
      s'.id = s.id ∧
        Scene.Steps (Session.Lost s' r) ⟨[s], os, w.ledger⟩
          ⟨[s'], [], w'.ledger⟩) :
    Act.Ends (onSession name do return wrap (← act)) ws w
      fun a ws' w' =>
        (ws.session? name = none ∧ ws' = ws ∧ w' = w) ∨
        Follows (q.Loses ws a ws') [] os ws w [] [] ws' w' := by
  refine (onSession_follows Spoils os [] hTidy name _
    fun s _ => wrapped_ends wrap (hAct s)).mono ?_
  rintro a ws' w' (⟨-, hNone, hSame⟩ |
    ⟨s, s', r, hSession, rfl, hSession', hFollows⟩)
  · exact .inl ⟨hNone, hSame⟩
  · refine .inr (hFollows.mono ?_)
    rintro i ⟨rfl, hLink, f, rfl⟩
    refine ⟨name, s, hName, hSession, rfl, ⟨f, rfl⟩, ?_⟩
    intro s₁ hSession₁
    cases hSession'.symm.trans hSession₁
    exact hLink

/- The reader's session is lost with its operation. -/
theorem openReader_loses
    (q : Request)
    {name : String}
    {s s₀ : Session}
    {o : Operation}
    {h : Holder}
    {giveBack : Session → Act Unit}
    {ws₀ : Workspace}
    (hTidy : ws.Tidy)
    (hName : q.completing? = some name)
    (hSession : ws₀.session? name = some s₀)
    (hId : s.id = s₀.id)
    (hGiveBack : ∀ s₁ w₁,
      Act.Ends (giveBack s₁) ws w₁ fun _ ws' w' =>
        (∀ may, Follows may [s₁] [] ws w₁ [] [] ws' w') ∧
          ∀ s', ws'.session? name = some s' → s' = s₁) :
    Act.Ends (openReader s o h giveBack) ws w fun a ws' w' =>
      Follows (q.Loses ws₀ a ws') [s] [o] ws w [] [] ws' w' := by
  refine (openReader_follows name s o h giveBack hTidy
    hGiveBack).mono ?_
  intro a ws' w' hFollows
  refine hFollows.mono ?_
  rintro i ⟨rfl, hFail, hClosed⟩
  exact ⟨name, s₀, hName, hSession, hId.symm, hFail, hClosed⟩

theorem complete_follows
    (hTidy : ws.Tidy)
    (session operation : String)
    (t : Target) :
    Act.Ends (complete session operation t) ws w fun a ws' w' =>
      Follows
        (Request.Loses (.complete session operation t) ws a ws')
        [] [] ws w [] [] ws' w' := by
  unfold complete
  rw [Act.ends_bind, Act.ends_get]
  cases hSession : ws.session? session with
  | none => exact .refl hTidy
  | some s =>
  cases hOperation : ws.operation? operation with
  | none => exact .refl hTidy
  | some o =>
  simp only
  rw [Act.ends_bind]
  unfold removeOperation
  rw [Act.ends_modify]
  let ws₁ :=
    { ws with operations := without operation ws.operations }
  have hTaken (may : Nat → Prop) :
      Follows may [] [] ws w [] [o] ws₁ w :=
    takeOperation_follows hTidy hOperation
  have hTidy₁ : ws₁.Tidy := (hTaken fun _ => False).tidy
  cases o.kind with
  | nonQuery =>
      refine (onSession_loses (.complete session operation t) [o]
        hTidy₁ rfl _ ?_).mono ?_
      · exact fun s₁ => (Session.completeNonQuery_ends s₁ w o).mono
          fun _ _ _ h => ⟨h.id, h.steps⟩
      · rintro a ws' w' (⟨hNone, -⟩ | hFollows)
        · cases hNone.symm.trans hSession
        · exact (hTaken _).trans hFollows
  | scalar =>
      refine (onSession_loses (.complete session operation t) [o]
        hTidy₁ rfl _ ?_).mono ?_
      · exact fun s₁ => (Session.completeScalar_ends s₁ w o t).mono
          fun _ _ _ h => ⟨h.id, h.steps⟩
      · rintro a ws' w' (⟨hNone, -⟩ | hFollows)
        · cases hNone.symm.trans hSession
        · exact (hTaken _).trans hFollows
  | reader =>
      simp only
      rw [Act.ends_bind]
      unfold removeSession
      rw [Act.ends_modify]
      let ws₂ :=
        { ws₁ with sessions := without session ws₁.sessions }
      have hBoth (may : Nat → Prop) :
          Follows may [] [o] ws₁ w [s] [o] ws₂ w :=
        takeSession_follows hTidy₁ hSession
      have hTidy₂ : ws₂.Tidy := (hBoth fun _ => False).tidy
      refine (openReader_loses (.complete session operation t)
        hTidy₂ rfl hSession rfl (setSession_gives hTidy₂
          (absent_without session ws₁.sessions))).mono ?_
      intro a ws' w' hFollows
      exact ((hTaken _).trans (hBoth _)).trans hFollows

theorem dropped_gives
    (hTidy : ws.Tidy)
    {name : String}
    (hAbsent : name ∉ keys ws.sessions)
    (s : Session)
    (w : World) :
    Act.Ends (liftM s.drop : Act Unit) ws w fun _ ws' w' =>
      (∀ may, Follows may [s] [] ws w [] [] ws' w') ∧
        ∀ s', ws'.session? name = some s' → s' = s := by
  refine ⟨fun may => ?_, fun s' hSession => ?_⟩
  · exact .inHand hTidy (Session.drop_steps may s w)
  · exact absurd (mem_keys (mem_of_lookup hSession)) hAbsent

theorem completeOwned_follows
    (hTidy : ws.Tidy)
    (session operation reader : String) :
    Act.Ends (completeOwned session operation reader) ws w
      fun a ws' w' =>
        Follows
          (Request.Loses
            (.completeOwned session operation reader) ws a ws')
          [] [] ws w [] [] ws' w' := by
  unfold completeOwned
  rw [Act.ends_bind, Act.ends_get]
  cases hSession : ws.session? session with
  | none => exact .refl hTidy
  | some s =>
  cases hOperation : ws.operation? operation with
  | none => exact .refl hTidy
  | some o =>
  simp only
  split
  · rw [Act.ends_bind]
    unfold removeOperation
    rw [Act.ends_modify, Act.ends_bind]
    unfold removeSession
    rw [Act.ends_modify]
    let ws₁ :=
      { ws with operations := without operation ws.operations }
    let ws₂ :=
      { ws₁ with sessions := without session ws₁.sessions }
    have hTaken (may : Nat → Prop) :
        Follows may [] [] ws w [] [o] ws₁ w :=
      takeOperation_follows hTidy hOperation
    have hBoth (may : Nat → Prop) :
        Follows may [] [] ws w [s] [o] ws₂ w :=
      (hTaken may).trans
        (takeSession_follows (hTaken may).tidy hSession)
    have hTidy₂ : ws₂.Tidy := (hBoth fun _ => False).tidy
    refine (openReader_loses
      (.completeOwned session operation reader) hTidy₂ rfl
      hSession rfl (dropped_gives hTidy₂
        (absent_without session ws₁.sessions))).mono ?_
    intro a ws' w' hFollows
    exact (hBoth _).trans hFollows
  · exact .refl hTidy

theorem execute_follows
    (hTidy : ws.Tidy)
    (session : String)
    (kind : Operation.Kind)
    (t : Target) :
    Act.Ends (execute session kind t) ws w fun a ws' w' =>
      Follows
        (Request.Loses (.execute session kind t) ws a ws')
        [] [] ws w [] [] ws' w' := by
  cases kind with
  | nonQuery =>
      refine (onSession_loses (.execute session .nonQuery t) []
        hTidy rfl _ ?_).mono ?_
      · exact fun s => (DataAccess.runs_nonQuery s w).mono
          fun _ _ _ h => ⟨h.1, h.2.2⟩
      · rintro a ws' w' (⟨-, rfl, rfl⟩ | hFollows)
        · exact .refl hTidy
        · exact hFollows
  | scalar =>
      refine (onSession_loses (.execute session .scalar t) []
        hTidy rfl _ ?_).mono ?_
      · exact fun s => (DataAccess.runs_scalar t s w).mono
          fun _ _ _ h => ⟨h.1, h.2.2⟩
      · rintro a ws' w' (⟨-, rfl, rfl⟩ | hFollows)
        · exact .refl hTidy
        · exact hFollows
  | reader =>
      unfold execute
      simp only
      rw [Act.ends_bind, Act.ends_get]
      cases hSession : ws.session? session with
      | none => exact .refl hTidy
      | some s =>
          simp only
          rw [Act.ends_bind]
          unfold removeSession
          rw [Act.ends_modify, Act.ends_bind, Act.ends_lift,
            Act.ends_run, Try.ends_run]
          let ws₁ :=
            { ws with sessions := without session ws.sessions }
          have hTaken (may : Nat → Prop) :
              Follows may [] [] ws w [s] [] ws₁ w :=
            takeSession_follows hTidy hSession
          have hTidy₁ : ws₁.Tidy := (hTaken fun _ => False).tidy
          have hAbsent : session ∉ keys ws₁.sessions :=
            absent_without session ws.sessions
          refine (Session.start_ends (fun _ => False) s w
            .reader).mono ?_
          rintro x s₁ w₁ (⟨o, rfl, -, -, rfl, -, hStarted⟩ |
            ⟨f, rfl, hGoes, -⟩)
          · have hWork (may : Nat → Prop) :
                Follows may [s] [] ws₁ w
                  [{ s with link := .busy }] [o] ws₁ w₁ :=
              .inHand hTidy₁ (hStarted.mono fun _ h => h.elim)
            have hId : { s with link := .busy }.id = s.id := rfl
            refine (openReader_loses (.execute session .reader t)
              hTidy₁ rfl hSession hId
              (setSession_gives hTidy₁ hAbsent)).mono ?_
            intro a ws' w' hFollows
            exact ((hTaken _).trans (hWork _)).trans hFollows
          · simp only
            rw [Act.ends_bind]
            refine (setSession_gives hTidy₁ hAbsent s₁ w₁).mono ?_
            rintro _ ws' w' ⟨hGiven, -⟩
            refine (hTaken _).trans (.trans (.inHand hTidy₁ ?_)
              (hGiven _))
            exact hGoes.steps.mono fun _ h => h.elim

theorem startAs_follows
    (may : Nat → Prop)
    (hTidy : ws.Tidy)
    (session : String)
    (kind : Operation.Kind)
    (operation : String) :
    Act.Ends (startAs session kind operation) ws w
      fun _ ws' w' => Follows may [] [] ws w [] [] ws' w' := by
  unfold startAs
  rw [Act.ends_bind, Act.ends_get]
  cases hSession : ws.session? session with
  | none => exact .refl hTidy
  | some s =>
      simp only
      rw [Act.ends_bind, Act.ends_lift, Act.ends_run, Try.ends_run]
      let ws₁ :=
        { ws with sessions := without session ws.sessions }
      have hTaken : Follows may [] [] ws w [s] [] ws₁ w :=
        takeSession_follows hTidy hSession
      have hAbsent : session ∉ keys ws₁.sessions :=
        absent_without session ws.sessions
      have hSame : without session ws₁.sessions = ws₁.sessions :=
        without_absent hAbsent
      have hPut (s₁ : Session) (os : List Operation) (w₁ : World) :
          Follows may [s₁] os ws₁ w₁ [] os
            { ws with
              sessions :=
                without session ws.sessions ++
                  [(session, s₁)] } w₁ := by
        have h : Follows may [s₁] os ws₁ w₁ [] os _ w₁ :=
          putSession_follows s₁ hTaken.tidy hAbsent
        rw [hSame] at h
        exact h
      refine (Session.start_ends may s w kind).mono ?_
      rintro x s₁ w₁ (⟨o, rfl, -, -, -, -, hStarted⟩ |
        ⟨f, rfl, hGoes, -⟩)
      · have hWork : Follows may [] [] ws w [s₁] [o] ws₁ w₁ :=
          hTaken.trans (.inHand hTaken.tidy hStarted)
        have hBack := hWork.trans (hPut s₁ [o] w₁)
        rw [Act.ends_bind]
        unfold setSession
        rw [Act.ends_modify]
        refine (keepOperation_follows may [] [] w₁ hBack.tidy
          operation o).bind ?_
        intro _ ws' w' hKept
        exact hBack.trans hKept
      · have hWork : Follows may [] [] ws w [s₁] [] ws₁ w₁ :=
          hTaken.trans (.inHand hTaken.tidy hGoes.steps)
        exact hWork.trans (hPut s₁ [] w₁)

------------------------------------------------------------
-- New sessions
------------------------------------------------------------

open Cluster (leftOf)
open Scene (Makes)

/- A session that was made is kept under a name. -/
theorem keepMade_follows
    (hTidy : ws.Tidy)
    (name : String)
    {make : Effect (Except Failure Session)}
    (hMakes : Makes make (leftOf fun s => [s])) :
    Act.Ends (do keepMade name (← liftM make) : Act Answer) ws w
      fun _ ws' w' =>
        Follows (w.sessions ≤ ·) [] [] ws w [] [] ws' w' := by
  rw [Act.ends_bind, Act.ends_lift]
  refine (hMakes w w.sessions (Nat.le_refl _)).mono ?_
  intro x w₁ hSteps
  have hMade := Follows.inHand hTidy hSteps
  cases x with
  | error f => exact hMade
  | ok s =>
      unfold keepMade
      refine (keepSession_follows (w.sessions ≤ ·) [] [] w₁ hTidy
        name s).bind ?_
      rintro _ ws' w' ⟨hKept, -⟩
      exact hMade.trans hKept

theorem makeBound_makes
    (d : DataAccess)
    (repository : String)
    (command : Option Command) :
    Makes (makeBound d repository command)
      (leftOf fun s => [s]) := by
  intro w base hBase
  unfold makeBound
  cases d.repository repository with
  | error f => exact .refl
  | ok r =>
      refine (DataAccess.make_steps r 30 w).bind ?_
      rintro s w₁ ⟨-, hLink, hMade⟩
      cases command with
      | none => exact hMade _
      | some c =>
          simp only
          rw [Effect.ends_bind, Act.ends_run, Try.ends_run]
          refine (Session.setCommand_goes (base ≤ ·) s w₁ c).mono
            ?_
          rintro x s₁ w₂ ⟨hGoes, ⟨command, bound, hSame⟩, -⟩
          have hSteps := (hMade (base ≤ ·)).trans hGoes.steps
          cases x with
          | ok _ => exact hSteps
          | error f =>
              refine hSteps.tail (.left ?_)
              intro c hOpened
              rw [hSame] at hOpened
              cases hLink.symm.trans hOpened

/- The reader of a command on a cluster is kept. -/
theorem runReader_follows
    (hTidy : ws.Tidy)
    (cluster : String)
    (c : Command)
    (name : String) :
    Act.Ends (runReader cluster c name) ws w fun _ ws' w' =>
      Follows (w.sessions ≤ ·) [] [] ws w [] [] ws' w' := by
  unfold runReader
  rw [Act.ends_bind, Act.ends_get, Act.ends_bind, Act.ends_lift]
  refine (DataAccess.executeReader_makes ws.access cluster c w
    w.sessions (Nat.le_refl _)).mono ?_
  rintro ⟨x, c'⟩ w₁ hSteps
  have hMade := Follows.inHand hTidy hSteps
  cases x with
  | error f => exact hMade
  | ok r =>
      refine (keepReader_follows (w.sessions ≤ ·) [] [] w₁ hTidy
        (.named name) r).bind ?_
      intro _ ws' w' hKept
      exact hMade.trans hKept

------------------------------------------------------------
-- Requests
------------------------------------------------------------

theorem ifThere_follows
    {may : Nat → Prop}
    (hTidy : ws.Tidy)
    (isThere : Bool)
    {act : Act Unit}
    (h : Act.Ends act ws w fun _ ws' w' =>
      Follows may [] [] ws w [] [] ws' w') :
    Act.Ends (ifThere isThere act) ws w fun _ ws' w' =>
      Follows may [] [] ws w [] [] ws' w' := by
  unfold ifThere
  split
  · exact h
  · exact .refl hTidy

/-
  An act of a session without its operations is a step of the
  scene.
-/
theorem onSession_quiet
    (may : Session → Nat → Prop)
    (hTidy : ws.Tidy)
    (name : String)
    (act : Session.Try Result)
    (hAct : ∀ s, Try.Ends act s w fun _ s' w' =>
      Session.Goes (may s) s w s' w') :
    Act.Ends (onSession name act) ws w fun _ ws' w' =>
      Follows (fun i => ∃ s, ws.session? name = some s ∧ may s i)
        [] [] ws w [] [] ws' w' := by
  refine (onSession_follows (fun s _ _ => may s) [] [] hTidy name
    act ?_).mono ?_
  · intro s _
    exact (hAct s).mono fun _ _ _ h => h.steps
  · rintro a ws' w' (⟨-, -, rfl, rfl⟩ |
      ⟨s, s', r, hSession, -, -, hFollows⟩)
    · exact .refl hTidy
    · exact hFollows.mono fun i h => ⟨s, hSession, h⟩

theorem quietly_goes
    {may : Nat → Prop}
    {act : Session.Try Unit}
    {s : Session}
    (h : Try.Ends act s w fun _ s' w' =>
      Session.Goes may s w s' w') :
    Try.Ends (quietly act) s w fun _ s' w' =>
      Session.Goes may s w s' w' := by
  unfold quietly
  exact h.bind (fun _ _ _ h => h) (fun _ _ _ h => h)

/- The transaction of the session may end by the request. -/
theorem ending_follows
    (q : Request)
    (hTidy : ws.Tidy)
    {name : String}
    (hName : q.ending? = some name)
    {act : Session.Try Unit}
    (hAct : ∀ s, Try.Ends act s w fun _ s' w' =>
      Session.Goes (· = s.id) s w s' w') :
    Act.Ends (onSession name (quietly act)) ws w fun a ws' w' =>
      Follows (q.MayEnd ws w a ws') [] [] ws w [] [] ws' w' := by
  refine (onSession_quiet (fun s i => i = s.id) hTidy name _
    fun s => quietly_goes (hAct s)).mono ?_
  intro a ws' w' hFollows
  refine hFollows.mono ?_
  rintro i ⟨s, hSession, rfl⟩
  exact .inl ⟨name, s, hName, hSession, rfl⟩

/- A request that ends no transaction is a step of the scene. -/
theorem quiet_follows
    (q : Request)
    (hTidy : ws.Tidy)
    (name : String)
    {act : Session.Try Result}
    (hAct : ∀ s, Try.Ends act s w fun _ s' w' =>
      Session.Goes (fun _ => False) s w s' w') :
    Act.Ends (onSession name act) ws w fun a ws' w' =>
      Follows (q.MayEnd ws w a ws') [] [] ws w [] [] ws' w' := by
  refine (onSession_quiet (fun _ _ => False) hTidy name act
    hAct).mono ?_
  intro a ws' w' hFollows
  exact hFollows.mono fun i ⟨_, _, h⟩ => h.elim

/- An operation on a cluster leaves the workspace alone. -/
theorem made_follows
    {α : Type}
    (hTidy : ws.Tidy)
    {e : Effect α}
    (hMakes : Makes e fun _ => [])
    (after : α → Answer) :
    Act.Ends (do return after (← liftM e) : Act Answer) ws w
      fun _ ws' w' =>
        Follows (w.sessions ≤ ·) [] [] ws w [] [] ws' w' := by
  rw [Act.ends_bind, Act.ends_lift]
  refine (hMakes w w.sessions (Nat.le_refl _)).mono ?_
  intro x w' hSteps
  exact .inHand hTidy hSteps

/- What is answered to an item that was pulled. -/
def pulled : Option (Except Failure Unit) → Act Answer
  | none => return .gave (.ok (.moved false))
  | some (.ok ()) => return .gave (.ok (.moved true))
  | some (.error f) => return .gave (.error f)

theorem answer_follows
    (hTidy : ws.Tidy)
    (q : Request) :
    Act.Ends (answer q) ws w fun a ws' w' =>
      Follows (q.MayEnd ws w a ws') [] [] ws w [] [] ws' w' := by
  have hNew {e : Act Answer}
      (h : Act.Ends e ws w fun _ ws' w' =>
        Follows (w.sessions ≤ ·) [] [] ws w [] [] ws' w') :
      Act.Ends e ws w fun a ws' w' =>
        Follows (q.MayEnd ws w a ws') [] [] ws w [] [] ws' w' :=
    h.mono fun _ _ _ h => h.mono fun _ hNew => .inr (.inr hNew)
  have hLoses {e : Act Answer}
      (h : Act.Ends e ws w fun a ws' w' =>
        Follows (q.Loses ws a ws') [] [] ws w [] [] ws' w') :
      Act.Ends e ws w fun a ws' w' =>
        Follows (q.MayEnd ws w a ws') [] [] ws w [] [] ws' w' :=
    h.mono fun _ _ _ h => h.mono fun _ hLost => .inr (.inl hLost)
  have hStill {e : Act Answer}
      (h : Act.Ends e ws w fun _ ws' w' =>
        Follows (fun _ => False) [] [] ws w [] [] ws' w') :
      Act.Ends e ws w fun a ws' w' =>
        Follows (q.MayEnd ws w a ws') [] [] ws w [] [] ws' w' :=
    h.mono fun _ _ _ h => h.mono fun _ hFalse => hFalse.elim
  unfold answer
  rw [Act.ends_bind, Act.ends_get]
  cases q with
  | openSession cluster name =>
      exact hNew (keepMade_follows hTidy name
        (ws.access.openSession_makes cluster))
  | openRepositorySession repository name =>
      exact hNew (keepMade_follows hTidy name
        (ws.access.openRepositorySession_makes repository))
  | bindSession repository name command =>
      exact hNew (keepMade_follows hTidy name
        (makeBound_makes ws.access repository command))
  | setCommand name c =>
      refine quiet_follows _ hTidy name fun s => quietly_goes ?_
      exact (Session.setCommand_goes _ s w c).mono
        fun _ _ _ h => h.1
  | takeCommand name =>
      refine quiet_follows _ hTidy name fun s => ?_
      exact (Session.takeCommand_goes _ s w).1
  | connect name =>
      refine quiet_follows _ hTidy name fun s => quietly_goes ?_
      exact (Session.connect_goes _ s w).mono fun _ _ _ h => h.1
  | begin name =>
      refine ending_follows _ hTidy rfl fun s => ?_
      exact (Session.begin_ends (· = s.id) s w fun _ => rfl).mono
        fun _ _ _ h => h.1
  | commit name =>
      refine ending_follows _ hTidy rfl fun s => ?_
      exact (Session.endTransaction_ends (· = s.id) s w .commit
        fun _ => rfl).mono fun _ _ _ h => h.1
  | rollback name =>
      refine ending_follows _ hTidy rfl fun s => ?_
      exact (Session.endTransaction_ends (· = s.id) s w .rollback
        fun _ => rfl).mono fun _ _ _ h => h.1
  | dispose name =>
      refine ending_follows _ hTidy rfl fun s => ?_
      exact Session.dispose_goes _ s w fun _ => rfl
  | dropSession name =>
      refine hStill (ifThere_follows hTidy _ ?_)
      exact (dropSession_follows _ [] [] w hTidy name).mono
        fun _ _ _ h => h.1
  | execute name kind t =>
      exact hLoses (execute_follows hTidy name kind t)
  | start name kind operation =>
      exact hStill
        (startAs_follows _ hTidy name kind operation)
  | complete name operation t =>
      exact hLoses (complete_follows hTidy name operation t)
  | completeOwned name operation reader =>
      exact hLoses
        (completeOwned_follows hTidy name operation reader)
  | dropOperation operation =>
      refine hStill (ifThere_follows hTidy _ ?_)
      exact (dropOperation_follows _ [] [] w hTidy
        operation).mono fun _ _ _ h => h.1
  | scalar cluster c t =>
      exact hNew (made_follows hTidy (ws.access.execute_makes
        cluster c (DataAccess.runs_scalar t))
        fun x => .ran (x.1.map (.value t)) x.2)
  | nonQuery cluster c =>
      exact hNew (made_follows hTidy (ws.access.execute_makes
        cluster c DataAccess.runs_nonQuery)
        fun x => .ran (x.1.map .count) x.2)
  | reader cluster c name =>
      exact hNew (runReader_follows hTidy cluster c name)
  | read h =>
      exact hStill (onReader_follows _ hTidy h
        (Result.moved <$> Reader.read) (fun x => return .gave (.ok x))
        (fun r => Reader.move_goes r w _ _)
        fun _ _ _ => ⟨rfl, rfl⟩)
  | nextResult h =>
      exact hStill (onReader_follows _ hTidy h
        (Result.moved <$> Reader.nextResult)
        (fun x => return .gave (.ok x))
        (fun r => Reader.move_goes r w _ _)
        fun _ _ _ => ⟨rfl, rfl⟩)
  | release h =>
      exact hStill (onReader_follows _ hTidy h
        ((fun _ => Result.nothing) <$> Reader.release)
        (fun x => return .gave (.ok x))
        (fun r => Reader.release_goes r w)
        fun _ _ _ => ⟨rfl, rfl⟩)
  | pull h test =>
      refine hStill (onReader_follows _ hTidy h
        (Reader.pull test) pulled
        (fun r => Reader.pull_goes r w _) ?_)
      intro item ws w
      rcases item with _ | ⟨f | _⟩ <;> exact ⟨rfl, rfl⟩
  | dropReader h =>
      refine hStill (ifThere_follows hTidy _ ?_)
      exact (dropReader_follows _ [] [] w hTidy h).mono
        fun _ _ _ h => h.1
  | renameReader h name =>
      exact hStill (ifThere_follows hTidy _
        (renameReader_follows _ hTidy h name))
  | wait millis =>
      refine hStill ?_
      rw [Act.ends_bind, Act.ends_lift]
      refine (World.pass_steps millis w).mono ?_
      intro _ w' hSteps
      exact .inHand hTidy (.around hSteps)
  | shutDown =>
      exact hNew (made_follows hTidy ws.access.shutDown_makes
        fun _ => .gave (.ok .nothing))

/- The background goes on after the answer. -/
theorem perform_follows
    (hTidy : ws.Tidy)
    (q : Request) :
    Act.Ends (perform q) ws w fun a ws' w' =>
      Follows (q.MayEnd ws w a ws') [] [] ws w [] [] ws' w' := by
  unfold perform
  refine (answer_follows hTidy q).bind ?_
  intro a ws₁ w₁ hAnswered
  rw [Act.ends_bind, Act.ends_lift]
  refine (World.runJobs_steps w₁).mono ?_
  rintro _ w' ⟨-, -, hSteps⟩
  exact hAnswered.trans (.inHand hAnswered.tidy (.around hSteps))

/- The induction is on the requests that are left. -/
theorem run_follows
    (qs : List Request)
    (ws : Workspace)
    (w : World)
    (hTidy : ws.Tidy) :
    Act.Ends (run qs) ws w fun _ ws' w' =>
      Follows (fun _ => True) [] [] ws w [] [] ws' w' := by
  unfold run
  induction qs generalizing ws w with
  | nil => exact .refl hTidy
  | cons q qs ih =>
      rw [List.mapM_cons]
      refine (perform_follows hTidy q).bind ?_
      intro a ws₁ w₁ hFirst
      refine (ih ws₁ w₁ hFirst.tidy).bind ?_
      intro _ ws' w' hRest
      exact (hFirst.mono fun _ _ => trivial).trans hRest

end Workspace

end Failover
