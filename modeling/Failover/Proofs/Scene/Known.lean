import Failover.Proofs.Transaction.Holding

/-
  All that is known of the scenes that sessions and operations
  come to: no task has the connection of a session, and
  statements are sent on none before it is opened.

  Key definitions include:
    * `Scene.Fresh`
    * `Scene.Known`

  Main statements:
    * `Scene.own?_ne_link`
    * `Scene.Known.steps`
-/

namespace Failover

variable {may : Nat → Prop} {σ σ' : Scene}

------------------------------------------------------------
-- Holders
------------------------------------------------------------

namespace Scene

/- The connection of a task is held. -/
theorem held_of_own
    {t : Task}
    {c : Connection}
    (hSound : Sound σ)
    (hTask : σ.ledger.task? t.id = some t)
    (hOwn : t.own? = some c) :
    ∃ mark xs, σ.holdings.Perm ((c, mark) ::
      (σ.sessions.filterMap (·.holding?) ++
        (σ.ledger.holdings xs ++
          σ.ledger.jobs.filterMap Job.holding?))) := by
  have hMem : t.id ∈ σ.ledger.taskIds :=
    List.mem_map.mpr ⟨t, List.mem_of_find?_eq_some hTask, rfl⟩
  rcases hSound.claimed.split hMem with ⟨mark, xs, hPerm⟩
  have hThis : σ.ledger.own? t.id = some c := by
    rw [Ledger.own?, hTask]
    exact hOwn
  have hClaims : (σ.ledger.holdings σ.claims).Perm
      ((c, mark) :: σ.ledger.holdings xs) := by
    rw [← Ledger.holdings_cons_some mark xs hThis]
    exact hPerm.filterMap _
  refine ⟨mark, xs, ?_⟩
  refine ((hClaims.append_right _).append_left _).trans ?_
  exact List.perm_middle

/- The connection of a session is no task's. -/
theorem own?_ne_link
    {s : Session}
    {c : Connection}
    (hSound : Sound σ)
    (hSole : Custody.Sole σ.custody)
    (hMem : s ∈ σ.sessions)
    (hLink : s.link = .opened c)
    (id : Nat) : σ.ledger.own? id ≠ some c := by
  intro hOwn
  rcases Option.bind_eq_some_iff.mp hOwn with ⟨t, hTask, hHas⟩
  cases Ledger.task?_eq_some hTask
  rcases held_of_own hSound hTask hHas with ⟨mark, xs, hHeld⟩
  have hOnce := (hHeld.map (·.1)).nodup_iff.mp hSole.nodup
  refine (List.nodup_cons.mp hOnce).1 ?_
  refine List.mem_map.mpr ⟨(c, s.inTransaction), ?_, rfl⟩
  refine List.mem_append_left _ (List.mem_filterMap.mpr ?_)
  exact ⟨s, hMem, by simp [Session.holding?, hLink]⟩

------------------------------------------------------------
-- What is known of scenes
------------------------------------------------------------

/- Nothing was sent on connections that are not there yet. -/
def Fresh (l : Ledger) : Prop :=
  ∀ c s, .fetched c s ∈ l.log → c.id < l.connections

theorem Fresh.less
    {l l' : Ledger}
    (h : Fresh l)
    (es : List Event)
    (hLog : l'.log = l.log ++ es)
    (hAsks : Unasked es)
    (hMore : l.connections ≤ l'.connections) : Fresh l' := by
  intro c s hMem
  rw [hLog] at hMem
  rcases List.mem_append.mp hMem with hOld | hNew
  · exact Nat.lt_of_lt_of_le (h c s hOld) hMore
  · have hNot := hAsks _ hNew c.repository
    simp [Event.asks] at hNot

theorem Fresh.ask
    {l : Ledger}
    {c : Connection}
    (h : Fresh l)
    (s : Statement)
    (hThere : c.id < l.connections) : Fresh (l.ask c s) := by
  intro c' s' hMem
  rcases List.mem_append.mp hMem with hOld | hNew
  · exact h c' s' hOld
  · cases List.mem_singleton.mp hNew
    exact hThere

/- Nothing was sent on a connection that is not there yet. -/
theorem Fresh.exchanges_next
    {l : Ledger}
    {c : Connection}
    (h : Fresh l)
    (backend : String → Backend)
    (hNext : l.connections ≤ c.id) :
    exchanges backend c l.log = [] :=
  exchanges_eq_nil fun s hMem =>
    absurd (h c s hMem) (Nat.not_lt_of_le hNext)

end Scene

open Scene (Sound)

/- A task that waits is at its place among the tasks. -/
theorem Ledger.task?_of_split
    {l : Ledger}
    {ss : List Session}
    {os : List Operation}
    {a b : List Task}
    {t : Task}
    (hSound : Sound ⟨ss, os, l⟩)
    (hTasks : l.tasks = a ++ t :: b) : l.task? t.id = some t :=
  Ledger.task?_this hSound.numbered.tasks hTasks

namespace Scene

/- The connection of a task that waits was opened. -/
theorem opened_of_waiting
    {ss : List Session}
    {os : List Operation}
    {l : Ledger}
    {a b : List Task}
    {t : Task}
    {time : Nat}
    {p : Progress}
    {reply : Option Reply}
    (hSound : Sound ⟨ss, os, l⟩)
    (hSole : Custody.Sole (custody ⟨ss, os, l⟩))
    (hTasks : l.tasks = a ++ t :: b)
    (hState : t.state = .waiting time p reply) :
    t.connection.id < l.connections := by
  have hOwn : t.own? = some t.connection := by
    simp [Task.own?, hState]
  rcases held_of_own hSound (Ledger.task?_of_split hSound hTasks)
    hOwn with ⟨mark, xs, hHeld⟩
  exact hSole.numbered _
    (hHeld.mem_iff.mpr (List.mem_cons_self ..))

theorem fresh_around
    {ss : List Session}
    {os : List Operation}
    {l l' : Ledger}
    (hSound : Sound ⟨ss, os, l⟩)
    (hSole : Custody.Sole (custody ⟨ss, os, l⟩))
    (hFresh : Fresh l)
    (h : l.Step l') : Fresh l' := by
  cases h with
  | noted e hAside =>
      refine hFresh.less [e] rfl ?_ (Nat.le_refl _)
      intro x hX
      rw [List.mem_singleton.mp hX]
      exact Event.asks_aside hAside
  | continued later hTasks hState =>
      exact hFresh.ask _
        (opened_of_waiting hSound hSole hTasks hState)
  | concluded => exact hFresh
  | died => exact hFresh
  | timedOut =>
      exact hFresh.less [_] rfl (by simp [Unasked, Event.asks])
        (Nat.le_refl _)
  | committed hJobs hEvents =>
      exact hFresh.less _ rfl hEvents.asks (Nat.le_refl _)
  | released hJobs hTask hState hEvents =>
      exact hFresh.less _ rfl hEvents.asks (Nat.le_refl _)
  | forgotten => exact hFresh
  | void => exact hFresh

theorem fresh_step
    (hSound : Sound σ)
    (hSole : Custody.Sole σ.custody)
    (hFresh : Fresh σ.ledger)
    (h : Step may σ σ') : Fresh σ'.ledger := by
  cases h with
  | around h => exact fresh_around hSound hSole hFresh h
  | opened =>
      exact hFresh.less [_, _] (List.append_assoc ..)
        (by simp [Unasked, Event.asks]) (Nat.le_succ _)
  | closed =>
      exact hFresh.less [_, _] (List.append_assoc ..)
        (by simp [Unasked, Event.asks]) (Nat.le_refl _)
  | discarded =>
      exact hFresh.less [_, _] (List.append_assoc ..)
        (by simp [Unasked, Event.asks]) (Nat.le_refl _)
  | began =>
      exact hFresh.less [_] rfl (by simp [Unasked, Event.asks])
        (Nat.le_refl _)
  | refused =>
      exact hFresh.less [_] rfl (by simp [Unasked, Event.asks])
        (Nat.le_refl _)
  | ended =>
      exact hFresh.less [_] rfl (by simp [Unasked, Event.asks])
        (Nat.le_refl _)
  | @started ss os l s c b kind context limit deadline time hLink =>
      have hHeld : (c, s.inTransaction) ∈
          holdings ⟨s :: ss, os, l⟩ := by
        rw [holdings_opened hLink]
        exact List.mem_cons_self ..
      exact hFresh.ask _ (hSole.numbered _ hHeld)
  | lost =>
      exact hFresh.less [_] rfl (by simp [Unasked, Event.asks])
        (Nat.le_refl _)
  | leftOpen =>
      exact hFresh.less [_] rfl (by simp [Unasked, Event.asks])
        (Nat.le_refl _)
  | _ => exact hFresh

/- What holds in all scenes that are reached. -/
structure Known (σ : Scene) : Prop where
  sound : Sound σ
  clean : Custody.Clean σ.custody
  fresh : Fresh σ.ledger

theorem Known.step
    (hKnown : Known σ)
    (h : Step may σ σ') : Known σ' where
  sound := hKnown.sound.step h
  clean := hKnown.clean.steps (h.custody hKnown.sound)
  fresh := fresh_step hKnown.sound hKnown.clean.sole hKnown.fresh h

theorem Known.steps
    (hKnown : Known σ)
    (h : Steps may σ σ') : Known σ' := by
  induction h with
  | refl => exact hKnown
  | tail _ hStep ih => exact ih.step hStep

theorem Known.initial
    (backend : String → Backend) :
    Known ⟨[], [], (World.initial backend).ledger⟩ where
  sound := Sound.initial backend
  clean := Custody.Clean.initial
  fresh := nofun

end Scene

end Failover
