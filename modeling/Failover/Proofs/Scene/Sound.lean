import Failover.Proofs.Scene.Number
import Failover.Proofs.Transaction.Custody

/-
  What holds in every scene that sessions and operations come
  to: a session whose operation somebody has is busy, and a
  task that waits for what never comes has sent a statement.

  Key definitions include:
    * `Scene.Paired`
    * `Scene.Answered`
    * `Scene.Sound`

  Main statements:
    * `Scene.Sound.steps`
-/

namespace Failover

namespace Scene

variable {may : Nat → Prop} {σ σ' : Scene}

------------------------------------------------------------
-- Sessions and their operations
------------------------------------------------------------

/-
  A session has one operation at most, and is busy with it in
  the transaction that it was started in.
-/
structure Paired (σ : Scene) : Prop where
  sole : (σ.operations.map (·.session)).Nodup
  known : ∀ o ∈ σ.operations, o.session < σ.ledger.sessions
  busy : ∀ o ∈ σ.operations, ∀ s ∈ σ.sessions,
    o.session = s.id →
      s.link = .busy ∧ o.context.inTransaction = s.inTransaction

/- Fewer sessions and operations. -/
theorem Paired.less
    (h : Paired σ)
    (hSessions : ∀ s ∈ σ'.sessions, s ∈ σ.sessions)
    (hOperations : σ'.operations.Sublist σ.operations)
    (hMade : σ'.ledger.sessions = σ.ledger.sessions) :
    Paired σ' where
  sole := h.sole.sublist (hOperations.map (·.session))
  known := fun o hO => hMade ▸ h.known o (hOperations.subset hO)
  busy := fun o hO s hS =>
    h.busy o (hOperations.subset hO) s (hSessions s hS)

/- A session changes, but not while it is busy. -/
theorem Paired.change
    {s s' : Session}
    {ss : List Session}
    {os : List Operation}
    {l l' : Ledger}
    (h : Paired ⟨s :: ss, os, l⟩)
    (hId : s'.id = s.id)
    (hBusy : s.link = .busy →
      s'.link = .busy ∧ s'.inTransaction = s.inTransaction)
    (hMade : l'.sessions = l.sessions) :
    Paired ⟨s' :: ss, os, l'⟩ where
  sole := h.sole
  known := fun o hO => hMade ▸ h.known o hO
  busy := by
    intro o hO x hX hSame
    rcases List.mem_cons.mp hX with rfl | hX
    · have hOld := h.busy o hO s (List.mem_cons_self ..)
        (hSame.trans hId)
      rcases hBusy hOld.1 with ⟨hLink, hMark⟩
      exact ⟨hLink, hOld.2.trans hMark.symm⟩
    · exact h.busy o hO x (List.mem_cons_of_mem _ hX) hSame

/- A session that is not busy has no operation. -/
theorem Paired.free
    {s : Session}
    {ss : List Session}
    {os : List Operation}
    {l : Ledger}
    (h : Paired ⟨s :: ss, os, l⟩)
    (hLink : s.link ≠ .busy) :
    ∀ o ∈ os, o.session ≠ s.id :=
  fun o hO hSame =>
    hLink (h.busy o hO s (List.mem_cons_self ..) hSame).1

/- A session is done with its operation. -/
theorem Paired.complete
    {s s' : Session}
    {ss : List Session}
    {o : Operation}
    {os : List Operation}
    {l l' : Ledger}
    (h : Paired ⟨s :: ss, o :: os, l⟩)
    (hSession : o.session = s.id)
    (hId : s'.id = s.id)
    (hMade : l'.sessions = l.sessions) :
    Paired ⟨s' :: ss, os, l'⟩ where
  sole := (List.nodup_cons.mp h.sole).2
  known := fun x hX =>
    hMade ▸ h.known x (List.mem_cons_of_mem _ hX)
  busy := by
    intro x hX y hY hSame
    rcases List.mem_cons.mp hY with rfl | hY
    · have hTwice : o.session ∈ os.map (·.session) :=
        List.mem_map.mpr
          ⟨x, hX, (hSame.trans hId).trans hSession.symm⟩
      exact absurd hTwice (List.nodup_cons.mp h.sole).1
    · exact h.busy x (List.mem_cons_of_mem _ hX) y
        (List.mem_cons_of_mem _ hY) hSame

/- A session that is free is busy with a new operation. -/
theorem Paired.start
    {s s' : Session}
    {ss : List Session}
    {o : Operation}
    {os : List Operation}
    {l l' : Ledger}
    (hNumbered : Numbered ⟨s :: ss, os, l⟩)
    (h : Paired ⟨s :: ss, os, l⟩)
    (hLink : s.link ≠ .busy)
    (hSession : o.session = s.id)
    (hId : s'.id = s.id)
    (hBusy : s'.link = .busy)
    (hMark : o.context.inTransaction = s'.inTransaction)
    (hMade : l'.sessions = l.sessions) :
    Paired ⟨s' :: ss, o :: os, l'⟩ where
  sole := by
    refine List.nodup_cons.mpr ⟨fun hMem => ?_, h.sole⟩
    rcases List.mem_map.mp hMem with ⟨x, hX, hSame⟩
    exact h.free hLink x hX (hSame.trans hSession)
  known := by
    intro x hX
    rcases List.mem_cons.mp hX with rfl | hX
    · rw [hSession]
      exact hMade ▸ hNumbered.made s.id (List.mem_cons_self ..)
    · exact hMade ▸ h.known x hX
  busy := by
    intro x hX y hY hSame
    rcases List.mem_cons.mp hX with rfl | hOld
    · rcases List.mem_cons.mp hY with rfl | hOther
      · exact ⟨hBusy, hMark⟩
      · have hTwice : s.id ∈ ss.map (·.id) :=
          List.mem_map.mpr
            ⟨y, hOther, hSame.symm.trans hSession⟩
        exact absurd hTwice
          (List.nodup_cons.mp hNumbered.sessions).1
    · rcases List.mem_cons.mp hY with rfl | hOther
      · exact absurd (hSame.trans hId) (h.free hLink x hOld)
      · exact h.busy x hOld y (List.mem_cons_of_mem _ hOther)
          hSame

theorem Paired.step
    (hNumbered : Numbered σ)
    (hPaired : Paired σ)
    (h : Step may σ σ') :
    Paired σ' := by
  cases h with
  | @rearranged ss ss' os os' l hS hO =>
      rcases hPaired with ⟨hSole, hKnown, hBusy⟩
      refine ⟨(hO.map (·.session)).nodup_iff.mp hSole, ?_, ?_⟩
      · exact fun o hMem => hKnown o (hO.mem_iff.mpr hMem)
      · exact fun o hMem s hS' => hBusy o (hO.mem_iff.mpr hMem)
          s (hS.mem_iff.mpr hS')
  | around h =>
      exact hPaired.less (fun _ hS => hS) (.refl _) h.sessions_eq
  | made r n =>
      rcases hPaired with ⟨hSole, hKnown, hBusy⟩
      refine ⟨hSole, ?_, ?_⟩
      · exact fun o hO => Nat.lt_succ_of_lt (hKnown o hO)
      · intro o hO s hS hSame
        rcases List.mem_cons.mp hS with rfl | hS
        · exact absurd hSame (Nat.ne_of_lt (hKnown o hO))
        · exact hBusy o hO s hS hSame
  | changed command bound disposed =>
      exact hPaired.change rfl (fun hLink => ⟨hLink, rfl⟩) rfl
  | opened hLink =>
      exact hPaired.change rfl (by simp [hLink]) rfl
  | closed ok hLink =>
      exact hPaired.change rfl (by simp [hLink]) rfl
  | discarded hLink =>
      exact hPaired.change rfl (by simp [hLink]) rfl
  | began hLink =>
      exact hPaired.change rfl (by simp [hLink]) rfl
  | refused => exact ⟨hPaired.1, hPaired.2, hPaired.3⟩
  | ended e ok hLink =>
      exact hPaired.change rfl (by simp [hLink]) rfl
  | cleared hLink =>
      exact hPaired.change rfl (by simp [hLink]) rfl
  | started kind context limit deadline time hLink hBound hMark =>
      exact hPaired.start hNumbered (by simp [hLink]) rfl rfl rfl
        hMark rfl
  | returned hSession =>
      exact hPaired.complete hSession rfl rfl
  | lost hSession =>
      exact hPaired.complete hSession rfl rfl
  | dropped o =>
      exact hPaired.less (fun _ hS => hS)
        (List.sublist_cons_self ..) rfl
  | left =>
      exact hPaired.less (fun _ hS => List.mem_cons_of_mem _ hS)
        (.refl _) rfl
  | leftOpen =>
      exact hPaired.less (fun _ hS => List.mem_cons_of_mem _ hS)
        (.refl _) rfl
  | leftInTransaction =>
      exact hPaired.less (fun _ hS => List.mem_cons_of_mem _ hS)
        (.refl _) rfl

end Scene

------------------------------------------------------------
-- Statements and their replies
------------------------------------------------------------

namespace Ledger

/-
  The statements are counted, and where none but silence is
  to come one was sent.
-/
structure Answered (l : Ledger) : Prop where
  counted : ∀ r, l.asked r = l.log.countP (·.asks r)
  awaited : ∀ t ∈ l.tasks, ∀ time p,
    t.state = .waiting time p none →
      IsSilent l.backend t.connection l.log

/-
  Statements are answered still when tasks end and no
  statement is sent.
-/
theorem Answered.less
    {l l' : Ledger}
    (h : l.Answered)
    (es : List Event)
    (hBackend : l'.backend = l.backend)
    (hAsked : l'.asked = l.asked)
    (hLog : l'.log = l.log ++ es)
    (hAsks : Unasked es)
    (hTasks : ∀ t ∈ l'.tasks,
      t.isWaiting = true → t ∈ l.tasks) :
    l'.Answered where
  counted := by
    intro r
    have hNone : es.countP (·.asks r) = 0 :=
      List.countP_eq_zero.mpr fun e hE => by simp [hAsks e hE r]
    rw [hAsked, hLog, List.countP_append, hNone, Nat.add_zero]
    exact h.counted r
  awaited := by
    intro t hT time p hState
    have hWaiting : t.isWaiting = true := by
      simp [Task.isWaiting, Task.due?, hState]
    rw [hBackend, hLog]
    exact (h.awaited t (hTasks t hT hWaiting) time p hState).append
      es

/- A statement is sent. -/
theorem Answered.ask
    {l : Ledger}
    (h : l.Answered)
    (c : Connection)
    (s : Statement) : (l.ask c s).Answered where
  counted := by
    intro r
    have hOld := h.counted r
    by_cases hHere : r = c.repository
    · subst hHere
      simp [Ledger.ask, World.update, Event.asks, hOld]
    · simp [Ledger.ask, World.update, Event.asks, hOld, hHere,
        Ne.symm hHere]
  awaited := fun t hT time p hState =>
    (h.awaited t hT time p hState).append _

/-
  A statement that is known to have no reply leaves its
  connection silent.
-/
theorem Answered.silent
    {l : Ledger}
    (h : l.Answered)
    {c : Connection}
    {s : Statement}
    (hNone : l.reply? c s = none) :
    IsSilent l.backend c (l.ask c s).log := by
  refine ⟨s, ?_⟩
  rw [Ledger.ask, exchanges_concat, ← h.counted c.repository]
  refine List.mem_append_right _ ?_
  have hReply : ((l.backend c.repository).fetch
      (l.asked c.repository) s).reply = none := hNone
  simp [Event.exchange?, hReply]

/- A statement is sent, and a task waits for the reply. -/
theorem Answered.wait
    {l : Ledger}
    {tasks : List Task}
    {t : Task}
    {s : Statement}
    (h : l.Answered)
    (hState : ∀ time p, t.state = .waiting time p none →
      l.reply? t.connection s = none)
    (hTasks : ∀ x ∈ tasks, x = t ∨ x ∈ l.tasks) :
    ((l.ask t.connection s).withTasks tasks).Answered where
  counted := (h.ask t.connection s).counted
  awaited := by
    intro x hX time p hWaiting
    rcases hTasks x hX with rfl | hOld
    · exact h.silent (hState time p hWaiting)
    · exact (h.ask t.connection s).awaited x hOld time p hWaiting

/- A task ends, and waits no more. -/
theorem Answered.inState
    {l l' : Ledger}
    {a b : List Task}
    {t : Task}
    {state : Task.State}
    (h : l.Answered)
    (es : List Event)
    (hBackend : l'.backend = l.backend)
    (hAsked : l'.asked = l.asked)
    (hLog : l'.log = l.log ++ es)
    (hAsks : Unasked es)
    (hTasks : l.tasks = a ++ t :: b)
    (hOther : l'.tasks = a ++ t.inState state :: b)
    (hEnded : (t.inState state).isWaiting = false) :
    l'.Answered := by
  refine h.less es hBackend hAsked hLog hAsks ?_
  intro x hX hWaiting
  rw [hOther] at hX
  rw [hTasks]
  rcases List.mem_append.mp hX with hX | hX
  · exact List.mem_append_left _ hX
  · rcases List.mem_cons.mp hX with rfl | hX
    · rw [hEnded] at hWaiting
      cases hWaiting
    · exact List.mem_append_right _ (List.mem_cons_of_mem _ hX)

theorem Answered.forget
    {l : Ledger}
    (h : l.Answered)
    (id : Nat) : (l.forget id).Answered :=
  h.less [] rfl rfl (List.append_nil _).symm .nil
    fun _ hT _ => List.mem_of_mem_filter hT

end Ledger

theorem Event.asks_aside
    {e : Event}
    (h : e.isAside = true)
    (r : String) : e.asks r = false := by
  cases e <;> first | rfl | cases h

theorem Released.asks
    {c : Connection}
    {inTransaction : Bool}
    {es : List Event}
    (h : Released c inTransaction es) :
    Unasked es := by
  cases h <;> simp [Unasked, Event.asks]

theorem Ledger.Answered.around
    {l l' : Ledger}
    (hAnswered : l.Answered)
    (h : l.Step l') : l'.Answered := by
  cases h with
  | noted e hAside =>
      refine hAnswered.less [e] rfl rfl rfl ?_ fun _ hT _ => hT
      intro x hX
      rw [List.mem_singleton.mp hX]
      exact Event.asks_aside hAside
  | @continued a b t time p q reply later hTasks =>
      let t' := t.inState (.waiting later q
        (l.reply? t.connection q.statement))
      refine hAnswered.wait (t := t') ?_ ?_
      · intro time' p' hState
        exact (Task.State.waiting.inj hState).2.2
      · intro x hX
        rw [hTasks]
        rcases List.mem_append.mp hX with hX | hX
        · exact .inr (List.mem_append_left _ hX)
        · rcases List.mem_cons.mp hX with rfl | hX
          · exact .inl rfl
          · exact .inr (List.mem_append_right _
              (List.mem_cons_of_mem _ hX))
  | concluded hTasks =>
      exact hAnswered.inState [] rfl rfl (List.append_nil _).symm
        .nil hTasks rfl rfl
  | died hTasks =>
      exact hAnswered.inState [] rfl rfl (List.append_nil _).symm
        .nil hTasks rfl rfl
  | timedOut hTasks =>
      exact hAnswered.inState [_] rfl rfl rfl
        (by simp [Unasked, Event.asks]) hTasks rfl rfl
  | committed hJobs hEvents =>
      exact hAnswered.less _ rfl rfl rfl hEvents.asks
        fun _ hT _ => hT
  | @released a b id inTransaction t c result es hJobs hTask hS hE =>
      exact (hAnswered.forget id).less _ rfl rfl rfl hE.asks
        fun _ hT _ => hT
  | @forgotten a b id =>
      exact (hAnswered.forget id).less [] rfl rfl
        (List.append_nil _).symm .nil fun _ hT _ => hT
  | void =>
      exact hAnswered.less [] rfl rfl (List.append_nil _).symm
        .nil fun _ hT _ => hT

namespace Scene

variable {may : Nat → Prop} {σ σ' : Scene}

/- Calls other than statements are not counted. -/
theorem answered_noted
    {l l' : Ledger}
    (h : l.Answered)
    (es : List Event)
    (hBackend : l'.backend = l.backend)
    (hAsked : l'.asked = l.asked)
    (hLog : l'.log = l.log ++ es)
    (hTasks : l'.tasks = l.tasks)
    (hAsks : Unasked es) :
    l'.Answered :=
  h.less es hBackend hAsked hLog hAsks
    fun _ hT _ => hTasks ▸ hT

theorem answered_step
    (hAnswered : σ.ledger.Answered)
    (h : Step may σ σ') : σ'.ledger.Answered := by
  cases h with
  | rearranged => exact hAnswered
  | around h => exact hAnswered.around h
  | made =>
      exact answered_noted hAnswered [] rfl rfl
        (List.append_nil _).symm rfl .nil
  | changed => exact hAnswered
  | @opened ss os l s =>
      exact answered_noted hAnswered [_, _] rfl rfl
        (List.append_assoc ..) rfl (by simp [Unasked, Event.asks])
  | closed =>
      exact answered_noted hAnswered [_, _] rfl rfl
        (List.append_assoc ..) rfl (by simp [Unasked, Event.asks])
  | discarded =>
      exact answered_noted hAnswered [_, _] rfl rfl
        (List.append_assoc ..) rfl (by simp [Unasked, Event.asks])
  | began =>
      exact answered_noted hAnswered [_] rfl rfl rfl rfl
        (by simp [Unasked, Event.asks])
  | refused =>
      exact answered_noted hAnswered [_] rfl rfl rfl rfl
        (by simp [Unasked, Event.asks])
  | ended =>
      exact answered_noted hAnswered [_] rfl rfl rfl rfl
        (by simp [Unasked, Event.asks])
  | cleared => exact hAnswered
  | @started ss os l s c b kind context limit deadline time =>
      let s₀ := (Progress.start b).statement
      let t : Task := ⟨l.started, c, limit, deadline,
        .waiting time (.start b) (l.reply? c s₀)⟩
      have hWait : ((l.ask t.connection s₀).withTasks
          (l.tasks ++ [t])).Answered := by
        refine hAnswered.wait ?_ fun x hX => ?_
        · intro time' p' hState
          exact (Task.State.waiting.inj hState).2.2
        · rcases List.mem_append.mp hX with hX | hX
          · exact .inr hX
          · exact .inl (List.mem_singleton.mp hX)
      exact ⟨hWait.counted, hWait.awaited⟩
  | returned => exact hAnswered.forget _
  | lost =>
      exact answered_noted (hAnswered.forget _) [_] rfl rfl rfl rfl
        (by simp [Unasked, Event.asks])
  | dropped =>
      exact answered_noted hAnswered [] rfl rfl
        (List.append_nil _).symm rfl .nil
  | left => exact hAnswered
  | leftOpen =>
      exact answered_noted hAnswered [_] rfl rfl rfl rfl
        (by simp [Unasked, Event.asks])
  | leftInTransaction =>
      exact answered_noted hAnswered [] rfl rfl
        (List.append_nil _).symm rfl .nil

------------------------------------------------------------
-- All together
------------------------------------------------------------

structure Sound (σ : Scene) : Prop where
  numbered : Numbered σ
  claimed : Claimed σ
  paired : Paired σ
  answered : σ.ledger.Answered

theorem Sound.step
    (hSound : Sound σ)
    (h : Step may σ σ') : Sound σ' where
  numbered := hSound.numbered.step h
  claimed := hSound.claimed.step hSound.numbered h
  paired := hSound.paired.step hSound.numbered h
  answered := answered_step hSound.answered h

theorem Sound.steps
    (hSound : Sound σ)
    (h : Steps may σ σ') : Sound σ' := by
  induction h with
  | refl => exact hSound
  | tail _ hStep ih => exact ih.step hStep

/- A scene in which nothing has happened yet is sound. -/
theorem Sound.initial
    (backend : String → Backend) :
    Sound ⟨[], [], (World.initial backend).ledger⟩ where
  numbered := ⟨List.nodup_nil, nofun, List.nodup_nil, nofun⟩
  claimed := List.Perm.nil
  paired := ⟨List.nodup_nil, nofun, nofun⟩
  answered := ⟨fun _ => rfl, nofun⟩

end Scene

end Failover
