import Failover.Proofs.Connection.Count
import Failover.Proofs.Session.Proper

/-
  Connections go back at most once: each is closed or
  discarded, or lost with the work that it was on, and before
  that it is counted.

  Key definitions include:
    * `releases`
    * `Custody.Once`
    * `Scene.Traced`, `Scene.AtRest`
    * `Scene.Balanced`

  Main statements:
    * `Custody.Once.steps`
    * `Scene.Traced.partings`
    * `Scene.Booked.balanced`
-/

namespace Failover

------------------------------------------------------------
-- Releases
------------------------------------------------------------

/- A connection is closed or discarded. -/
def Event.releases
    (c : Connection) : Event → Bool
  | .called .close c' _ => decide (c' = c)
  | .discarded c' => decide (c' = c)
  | _ => false

/- How often a connection was closed or discarded. -/
def releases
    (c : Connection)
    (log : List Event) : Nat :=
  log.countP (·.releases c)

theorem releases_concat
    (c : Connection)
    (log : List Event)
    (e : Event) :
    releases c (log ++ [e]) =
      releases c log + if e.releases c then 1 else 0 := by
  simp [releases, List.countP_append, List.countP_cons]

/- An event that concerns another connection, or none. -/
theorem releases_still
    {c : Connection}
    {e : Event}
    (log : List Event)
    (h : e.releases c = false) :
    releases c (log ++ [e]) = releases c log := by
  rw [releases_concat, h]
  rfl

theorem Event.releases_quiet
    {e : Event}
    (h : e.isQuiet = true)
    (c : Connection) : e.releases c = false := by
  unfold Event.releases
  split <;> simp_all [Event.isQuiet]

theorem releases_pos
    {c : Connection}
    {e : Event}
    {log : List Event}
    (hMem : e ∈ log)
    (hReleases : e.releases c = true) : 0 < releases c log :=
  List.countP_pos_iff.mpr ⟨e, hMem, hReleases⟩

namespace Custody

variable {backend : String → Backend} {κ κ' : Custody}

/-
  A connection that is held was not released, nor was one that
  is not opened yet, and none was released twice.
-/
structure Once (κ : Custody) : Prop where
  held : ∀ x ∈ κ.held, releases x.1 κ.log = 0
  fresh : ∀ c, κ.opened ≤ c.id → releases c κ.log = 0
  most : ∀ c, releases c κ.log ≤ 1

/- No connection was released before any was opened. -/
theorem Once.initial : Once ⟨[], 0, []⟩ :=
  ⟨nofun, fun _ _ => rfl, fun _ => Nat.zero_le 1⟩

/- Fewer are held, or the same with other marks. -/
theorem Once.less
    {held held' : List (Connection × Bool)}
    {n : Nat}
    {log : List Event}
    (h : Once ⟨held, n, log⟩)
    (hLess : ∀ x ∈ held', ∃ b, (x.1, b) ∈ held) :
    Once ⟨held', n, log⟩ := by
  refine ⟨fun x hX => ?_, h.fresh, h.most⟩
  rcases hLess x hX with ⟨b, hMem⟩
  exact h.held (x.1, b) hMem

/-
  An event that releases nothing keeps every release the only
  one.
-/
theorem Once.still
    {held : List (Connection × Bool)}
    {n : Nat}
    {log : List Event}
    {e : Event}
    (h : Once ⟨held, n, log⟩)
    (hStill : ∀ c, e.releases c = false) :
    Once ⟨held, n, log ++ [e]⟩ := by
  have hSame (c : Connection) :
      releases c (log ++ [e]) = releases c log :=
    releases_still log (hStill c)
  refine ⟨fun x hX => ?_, fun c hC => ?_, fun c => ?_⟩
  · exact (hSame x.1).trans (h.held x hX)
  · exact (hSame c).trans (h.fresh c hC)
  · exact Nat.le_trans (Nat.le_of_eq (hSame c)) (h.most c)

/-
  A connection that nobody else holds is released for the
  first time.
-/
theorem Once.release
    {held : List (Connection × Bool)}
    {n : Nat}
    {log : List Event}
    {e : Event}
    {c : Connection}
    {b : Bool}
    (hSole : Sole ⟨(c, b) :: held, n, log⟩)
    (h : Once ⟨(c, b) :: held, n, log⟩)
    (hThis : ∀ c', e.releases c' = decide (c = c')) :
    Once ⟨held, n, log ++ [e]⟩ := by
  have hOther {c' : Connection} (hNe : c ≠ c') :
      releases c' (log ++ [e]) = releases c' log :=
    releases_still log ((hThis c').trans (decide_eq_false hNe))
  refine ⟨fun x hX => ?_, fun c' hC => ?_, fun c' => ?_⟩
  · refine (hOther (hSole.ne x hX)).trans ?_
    exact h.held x (List.mem_cons_of_mem _ hX)
  · have hLess : c.id < n :=
      hSole.numbered (c, b) (List.mem_cons_self ..)
    refine (hOther fun hSame => ?_).trans (h.fresh c' hC)
    rw [hSame] at hLess
    exact Nat.not_le_of_lt hLess hC
  · by_cases hSame : c = c'
    · have hNone : releases c log = 0 :=
        h.held (c, b) (List.mem_cons_self ..)
      simp [← hSame, releases_concat, hNone, hThis]
    · exact Nat.le_trans (Nat.le_of_eq (hOther hSame))
        (h.most c')

theorem Once.step
    (hSole : Sole κ)
    (hOnce : Once κ)
    (h : Step backend κ κ') : Once κ' := by
  cases h with
  | arranged hPerm =>
      exact hOnce.less fun x hX => ⟨x.2, hPerm.mem_iff.mpr hX⟩
  | noted e hQuiet =>
      exact hOnce.still (Event.releases_quiet hQuiet)
  | @opened held n log repository inTransaction =>
      let e : Event := .opened repository (some ⟨n, repository⟩)
      have hStill : Once ⟨held, n, log ++ [e]⟩ :=
        hOnce.still fun _ => rfl
      refine ⟨fun x hX => ?_, fun c hC => ?_, hStill.most⟩
      · rcases List.mem_cons.mp hX with hThis | hX
        · rw [hThis]
          exact hStill.fresh _ (Nat.le_refl n)
        · exact hStill.held x hX
      · exact hStill.fresh c (Nat.le_of_succ_le hC)
  | @began held n log c =>
      refine Once.still (hOnce.less fun x hX => ?_) fun _ => rfl
      rcases List.mem_cons.mp hX with rfl | hX
      · exact ⟨false, List.mem_cons_self ..⟩
      · exact ⟨x.2, List.mem_cons_of_mem _ hX⟩
  | @ended held n log c e ok =>
      refine Once.still (hOnce.less fun x hX => ?_) fun _ => ?_
      · rcases List.mem_cons.mp hX with rfl | hX
        · exact ⟨true, List.mem_cons_self ..⟩
        · exact ⟨x.2, List.mem_cons_of_mem _ hX⟩
      · cases e <;> rfl
  | closed => exact hOnce.release hSole fun _ => rfl
  | discarded => exact hOnce.release hSole fun _ => rfl
  | lost =>
      exact hOnce.less
        fun x hX => ⟨x.2, List.mem_cons_of_mem _ hX⟩

theorem Once.steps
    (hSole : Sole κ)
    (hOnce : Once κ)
    (h : Steps backend κ κ') : Once κ' := by
  have hBoth : Sole κ' ∧ Once κ' := by
    induction h with
    | refl => exact ⟨hSole, hOnce⟩
    | tail _ hStep ih =>
        exact ⟨ih.1.step hStep, ih.2.step ih.1 hStep⟩
  exact hBoth.2

end Custody

namespace Scene

variable {cut : Connection → Prop} {n : Nat} {σ σ' : Scene}

------------------------------------------------------------
-- Traces
------------------------------------------------------------

/-
  Every connection that was opened can be traced, but for
  those that are lost where work is stopped.
-/
structure Traced
    (cut : Connection → Prop)
    (σ : Scene) : Prop where
  clean : Custody.Clean σ.custody
  once : Custody.Once σ.custody
  fate : ∀ r c, .opened r (some c) ∈ σ.ledger.log →
    Custody.Fate σ.ledger.backend σ.custody c ∨ cut c

theorem Traced.parting
    (hSound : Sound σ)
    (hTraced : Traced cut σ)
    (h : Parting cut σ σ') : Traced cut σ' := by
  rcases hTraced with ⟨hClean, hOnce, hFate⟩
  rcases h.custody hSound with hSteps | ⟨c, b, hCut, hSteps⟩
  · refine ⟨hClean.steps hSteps, hOnce.steps hClean.sole hSteps,
      fun r c hMem => ?_⟩
    rw [h.backend_eq]
    rcases hSteps.opened_before hMem with hOld | hNew
    · exact (hFate r c hOld).imp_left (·.steps hSteps)
    · exact .inl hNew
  · have hLeft : Custody.Once σ'.custody :=
      (hOnce.steps hClean.sole hSteps).less
        fun x hX => ⟨x.2, List.mem_cons_of_mem _ hX⟩
    refine ⟨(hClean.steps hSteps).tail, hLeft, fun r c' hMem => ?_⟩
    by_cases hSame : c' = c
    · rw [hSame]
      exact .inr hCut
    · have hBehind {backend : String → Backend}
          (hFate : Custody.Fate backend
            ⟨(c, b) :: σ'.holdings, σ'.ledger.connections,
              σ'.ledger.log⟩ c') :
          Custody.Fate backend σ'.custody c' := by
        cases hFate with
        | held b' hMem =>
            refine .held b' ((List.mem_cons.mp hMem).resolve_left ?_)
            exact fun hThis => hSame (congrArg (·.1) hThis)
        | closed ok hMem => exact .closed ok hMem
        | discarded hMem => exact .discarded hMem
        | lost hSilent => exact .lost hSilent
      rw [h.backend_eq]
      rcases hSteps.opened_before hMem with hOld | hNew
      · exact (hFate r c' hOld).imp_left
          fun hFate => hBehind (hFate.steps hSteps)
      · exact .inl (hBehind hNew)

theorem Traced.partings
    (hSound : Sound σ)
    (hTraced : Traced cut σ)
    (h : Partings cut σ σ') : Traced cut σ' := by
  have hBoth : Sound σ' ∧ Traced cut σ' := by
    induction h with
    | refl => exact ⟨hSound, hTraced⟩
    | tail _ hParting ih =>
        exact ⟨ih.1.parting hParting, ih.2.parting ih.1 hParting⟩
  exact hBoth.2

/- More connections may be lost. -/
theorem Traced.mono
    {cut' : Connection → Prop}
    (h : Traced cut σ)
    (hImp : ∀ c, cut c → cut' c) : Traced cut' σ :=
  ⟨h.clean, h.once,
    fun r c hMem => (h.fate r c hMem).imp_right (hImp c)⟩

/- A connection that is held is counted. -/
theorem mem_outstanding
    {c : Connection}
    {b : Bool}
    (hReturns : σ.ledger.Returns)
    (hMem : (c, b) ∈ σ.holdings) : c ∈ σ.outstanding := by
  rcases List.mem_append.mp hMem with hSession | hRest
  · rcases List.mem_filterMap.mp hSession with ⟨s, hS, hHolds⟩
    refine List.mem_append_left _
      (List.mem_filterMap.mpr ⟨s, hS, ?_⟩)
    unfold Session.holding? at hHolds
    split at hHolds
    · next hLink =>
      cases hHolds
      simp [Session.connection?, hLink]
    · cases hHolds
  refine List.mem_append_right _ ?_
  rcases List.mem_append.mp hRest with hClaim | hJob
  · rcases List.mem_filterMap.mp hClaim with ⟨x, -, hHolds⟩
    rcases Option.map_eq_some_iff.mp hHolds with ⟨c', hOwn, hSame⟩
    cases hSame
    rcases Option.bind_eq_some_iff.mp hOwn with ⟨t, hTask, hHas⟩
    have hT := List.mem_of_find?_eq_some hTask
    refine List.mem_append_left _
      (List.mem_map.mpr ⟨t, hT, ?_⟩)
    unfold Task.own? at hHas
    split at hHas
    · exact Option.some.inj hHas
    · next hState =>
      cases hHas
      exact (hReturns t hT _ _ hState).symm
    · cases hHas
    · cases hHas
  · rcases List.mem_filterMap.mp hJob with ⟨j, hJ, hHolds⟩
    refine List.mem_append_right _
      (List.mem_filterMap.mpr ⟨j, hJ, ?_⟩)
    cases j with
    | commit =>
        cases hHolds
        rfl
    | afterTask => cases hHolds

------------------------------------------------------------
-- Balance
------------------------------------------------------------

/-
  Sessions are given up or have no connection, operations are
  completed or dropped, and the background is done.
-/
structure AtRest (σ : Scene) : Prop where
  sessions : ∀ s ∈ σ.sessions, s.disposed = true ∨ s.link = .closed
  operations : σ.operations = []
  jobs : σ.ledger.jobs = []

/- A connection was released once, or lost with its work. -/
def Gone
    (cut : Connection → Prop)
    (σ : Scene)
    (c : Connection) : Prop :=
  releases c σ.ledger.log = 1 ∨
  releases c σ.ledger.log = 0 ∧
    (IsSilent σ.ledger.backend c σ.ledger.log ∨ cut c)

/-
  The number of active connections is that of those that were
  opened and whose release is not counted, above a number from
  the start.  None is released twice, all others are gone, and
  at rest all are.
-/
structure Balanced
    (n : Nat)
    (cut : Connection → Prop)
    (σ : Scene) : Prop where
  counted : σ.ledger.active = n + σ.outstanding.length
  distinct : σ.outstanding.Nodup
  opened : ∀ c ∈ σ.outstanding, ∃ r,
    .opened r (some c) ∈ σ.ledger.log
  once : ∀ c, releases c σ.ledger.log ≤ 1
  gone : ∀ r c, .opened r (some c) ∈ σ.ledger.log →
    c ∈ σ.outstanding ∨ σ.Gone cut c
  rest : σ.AtRest → σ.ledger.active = n ∧
    ∀ r c, .opened r (some c) ∈ σ.ledger.log → σ.Gone cut c

/- No connection is to be given back at rest. -/
theorem AtRest.outstanding
    (hClaimed : Claimed σ)
    (hProper : Proper σ)
    (h : AtRest σ) : σ.outstanding = [] := by
  have hSessions :
      σ.sessions.filterMap (·.connection?) = [] := by
    refine List.filterMap_eq_nil_iff.mpr fun s hS => ?_
    have hLink : s.link = .closed :=
      (h.sessions s hS).elim (hProper s hS).disposed id
    simp [Session.connection?, hLink]
  have hTasks : σ.ledger.tasks = [] := by
    have hNone : σ.claims = [] := by
      simp [claims, h.operations, h.jobs]
    rw [Claimed, hNone] at hClaimed
    exact List.map_eq_nil_iff.mp hClaimed.nil_eq.symm
  simp [Scene.outstanding, Ledger.outstanding, hSessions, hTasks,
    h.jobs]

theorem Booked.balanced
    (hBooked : Booked n σ)
    (hTraced : Traced cut σ)
    (hProper : Proper σ) : Balanced n cut σ := by
  have hMost := hTraced.once.most
  have hGone : ∀ r c, .opened r (some c) ∈ σ.ledger.log →
      c ∈ σ.outstanding ∨ σ.Gone cut c := by
    intro r c hMem
    have hOnce {e : Event} (hE : e ∈ σ.ledger.log)
        (hReleases : e.releases c = true) : σ.Gone cut c :=
      .inl (Nat.le_antisymm (hMost c) (releases_pos hE hReleases))
    have hLost (hCause : IsSilent σ.ledger.backend c σ.ledger.log ∨
        cut c) : σ.Gone cut c := by
      rcases Nat.le_one_iff_eq_zero_or_eq_one.mp (hMost c) with
        hNone | hOne
      · exact .inr ⟨hNone, hCause⟩
      · exact .inl hOne
    rcases hTraced.fate r c hMem with hFate | hCut
    · cases hFate with
      | held b hHeld =>
          exact .inl (mem_outstanding hBooked.returns hHeld)
      | closed ok hE => exact .inr (hOnce hE (decide_eq_true rfl))
      | discarded hE => exact .inr (hOnce hE (decide_eq_true rfl))
      | lost hSilent => exact .inr (hLost (.inl hSilent))
    · exact .inr (hLost (.inr hCut))
  refine ⟨hBooked.counted.active, hBooked.counted.nodup,
    hBooked.opened, hMost, hGone, fun hRest => ?_⟩
  have hNone := hRest.outstanding hBooked.sound.claimed hProper
  refine ⟨?_, fun r c hMem => ?_⟩
  · rw [hBooked.counted.active, hNone]
    rfl
  · refine (hGone r c hMem).resolve_left fun hC => ?_
    rw [hNone] at hC
    exact absurd hC List.not_mem_nil

end Scene

end Failover
