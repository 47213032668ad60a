import Failover.Proofs.Connection.Repository
import Failover.Proofs.Connection.Schedule
import Failover.Proofs.Transaction.Release

/-
  What is told of connections.  Of each that is opened this is
  told at once.  That it has gone is told by the session that
  had it, if this goes on; of those that are left behind with
  a session or an operation, nothing is told.

  Key definitions include:
    * `Notice`, `notices`
    * `Turn`
    * `Scene.LeftBehind`
    * `Scene.Change`, `Scene.Course`
    * `Scene.Told`

  Main statements:
    * `Scene.Booked.change`
    * `Scene.Course.told`
    * `Workspace.closings_are_told`
-/

namespace Failover

------------------------------------------------------------
-- Notices
------------------------------------------------------------

/- A connection is made, or it is told of one. -/
inductive Notice where
  | made (c : Connection)
  | opened (info : ConnectionInfo)
  | closed (info : ConnectionInfo)

def Event.notice? : Event → Option Notice
  | .opened _ c => c.map .made
  | .connectionOpened info => some (.opened info)
  | .connectionClosed info => some (.closed info)
  | _ => none

def notices (log : List Event) : List Notice :=
  log.filterMap (·.notice?)

theorem notices_append (log es : List Event) :
    notices (log ++ es) = notices log ++ notices es :=
  List.filterMap_append

/- Other events make no difference. -/
theorem notices_still
    {es : List Event}
    (log : List Event)
    (h : notices es = []) :
    notices (log ++ es) = notices log := by
  rw [notices_append, h, List.append_nil]

theorem notices_aside
    {e : Event}
    (h : e.isAside = true) : notices [e] = [] := by
  cases e with
  | opened r c =>
      cases c with
      | none => rfl
      | some c => cases h
  | connectionOpened => cases h
  | connectionClosed => cases h
  | _ => rfl

/-
  A connection that is released in the background is not told
  as closed.
-/
theorem notices_released
    {c : Connection}
    {inTransaction : Bool}
    {es : List Event}
    (h : Released c inTransaction es) : notices es = [] := by
  cases h <;> rfl

def Event.tellsOpened : Event → Bool
  | .connectionOpened _ => true
  | _ => false

def Event.tellsClosed : Event → Bool
  | .connectionClosed _ => true
  | _ => false

/- How often it was told that a connection was opened. -/
def openingsTold (log : List Event) : Nat :=
  log.countP (·.tellsOpened)

/- How often it was told that a connection has gone. -/
def closingsTold (log : List Event) : Nat :=
  log.countP (·.tellsClosed)

def Notice.isOpened : Notice → Bool
  | .opened _ => true
  | _ => false

def Notice.isClosed : Notice → Bool
  | .closed _ => true
  | _ => false

theorem countP_notices
    {f : Event → Bool}
    {g : Notice → Bool}
    (h : ∀ e, f e = (e.notice?.map g).getD false)
    (log : List Event) :
    log.countP f = (notices log).countP g := by
  unfold notices
  rw [List.countP_filterMap]
  apply List.countP_congr
  intro e hE
  rw [h e]

theorem openingsTold_eq (log : List Event) :
    openingsTold log = (notices log).countP (·.isOpened) := by
  apply countP_notices
  intro e
  cases e with
  | opened r c => cases c <;> rfl
  | _ => rfl

theorem closingsTold_eq (log : List Event) :
    closingsTold log = (notices log).countP (·.isClosed) := by
  apply countP_notices
  intro e
  cases e with
  | opened r c => cases c <;> rfl
  | _ => rfl

------------------------------------------------------------
-- Turns
------------------------------------------------------------

/-
  A connection is opened, or goes, as is told; or it goes and
  nothing is told.
-/
inductive Turn where
  | opened (c : Connection) (info : ConnectionInfo)
  | told (c : Connection) (info : ConnectionInfo)
  | untold (c : Connection)

namespace Turn

def notices : Turn → List Notice
  | .opened c info => [.made c, .opened info]
  | .told _ info => [.closed info]
  | .untold _ => []

def opened? : Turn → Option Connection
  | .opened c _ => some c
  | _ => none

def told? : Turn → Option Connection
  | .told c _ => some c
  | _ => none

def untold? : Turn → Option Connection
  | .untold c => some c
  | _ => none

/- What is told names the repository of the connection. -/
def IsNamed : Turn → Prop
  | .opened c info => info.repository = c.repository
  | .told c info => info.repository = c.repository
  | .untold _ => True

end Turn

namespace Scene

/-
  A connection goes without a session that could tell it: with
  the session that had it, with the operation that was at work
  on it, or in the background, where it was left.
-/
inductive LeftBehind (c : Connection) : Scene → Scene → Prop where
  | session
      {s : Session}
      {ss : List Session}
      {os : List Operation}
      {l l' : Ledger}
      (hLink : s.link = .opened c) :
      LeftBehind c ⟨s :: ss, os, l⟩ ⟨ss, os, l'⟩
  | operation
      {ss : List Session}
      {o : Operation}
      {os : List Operation}
      {l l' : Ledger}
      {t : Task}
      (hTask : l.task? o.task = some t)
      (hHas : t.connection = c) :
      LeftBehind c ⟨ss, o :: os, l⟩ ⟨ss, os, l'⟩
  | commit
      {ss : List Session}
      {os : List Operation}
      {l l' : Ledger}
      {a b : List Job}
      (hJobs : l.jobs = a ++ .commit c :: b)
      (hDone : l'.jobs = a ++ b) :
      LeftBehind c ⟨ss, os, l⟩ ⟨ss, os, l'⟩
  | afterTask
      {ss : List Session}
      {os : List Operation}
      {l l' : Ledger}
      {a b : List Job}
      {id : Nat}
      {inTransaction : Bool}
      {t : Task}
      (hJobs : l.jobs = a ++ .afterTask id inTransaction :: b)
      (hTask : l.task? id = some t)
      (hHas : t.connection = c)
      (hDone : l'.jobs = a ++ b) :
      LeftBehind c ⟨ss, os, l⟩ ⟨ss, os, l'⟩

/- A session has a connection, or its operation is at work on it. -/
def Has
    (σ : Scene)
    (s : Session)
    (c : Connection) : Prop :=
  s.link = .opened c ∨
  ∃ o ∈ σ.operations, o.session = s.id ∧
    ∃ t, σ.ledger.task? o.task = some t ∧ t.connection = c

/- A connection that a session has is one of its repository. -/
theorem AtHome.has
    {σ : Scene}
    {s : Session}
    {c : Connection}
    (h : AtHome σ)
    (hMem : s ∈ σ.sessions)
    (hHas : σ.Has s c) : c.repository = s.repository.name := by
  rcases hHas with hLink | ⟨o, hO, hSession, t, hTask, hThis⟩
  · exact h.sessions s hMem c hLink
  · rw [← hThis]
    exact h.operations o hO s hMem hSession t hTask

/-
  A session that was closed opens a connection, a session lets
  its connection go and goes on, a connection is left behind,
  or none of these: with what is told of it.
-/
inductive Change : Scene → Option Turn → Scene → Prop where
  | quiet
      {σ σ' : Scene}
      (hPerm : σ.outstanding.Perm σ'.outstanding)
      (hNotices : notices σ'.ledger.log = notices σ.ledger.log)
      (hNext : σ'.ledger.connections = σ.ledger.connections) :
      Change σ none σ'
  | opened
      {σ σ' : Scene}
      {s : Session}
      {c : Connection}
      {info : ConnectionInfo}
      (hMem : s ∈ σ.sessions)
      (hLink : s.link = .closed)
      (hGoesOn : { s with link := .opened c } ∈ σ'.sessions)
      (hNew : c = σ.ledger.nextConnection s.repository)
      (hInfo : info =
        World.connectionInfo s.repository σ'.ledger.active)
      (hPerm : (c :: σ.outstanding).Perm σ'.outstanding)
      (hNotices : notices σ'.ledger.log =
        notices σ.ledger.log ++ [.made c, .opened info])
      (hNext :
        σ'.ledger.connections = σ.ledger.connections + 1) :
      Change σ (some (.opened c info)) σ'
  | told
      {σ σ' : Scene}
      {s s' : Session}
      {c : Connection}
      {info : ConnectionInfo}
      (hMem : s ∈ σ.sessions)
      (hHas : σ.Has s c)
      (hGoesOn : s' ∈ σ'.sessions)
      (hSame : s'.id = s.id)
      (hClosed : s'.link = .closed)
      (hHome : c.repository = s.repository.name)
      (hInfo : info =
        World.connectionInfo s.repository σ'.ledger.active)
      (hPerm : σ.outstanding.Perm (c :: σ'.outstanding))
      (hNotices : notices σ'.ledger.log =
        notices σ.ledger.log ++ [.closed info])
      (hNext : σ'.ledger.connections = σ.ledger.connections) :
      Change σ (some (.told c info)) σ'
  | untold
      {σ σ' : Scene}
      {c : Connection}
      (hLeft : LeftBehind c σ σ')
      (hPerm : σ.outstanding.Perm (c :: σ'.outstanding))
      (hNotices : notices σ'.ledger.log = notices σ.ledger.log)
      (hNext : σ'.ledger.connections = σ.ledger.connections) :
      Change σ (some (.untold c)) σ'

variable {n : Nat} {may : Nat → Prop} {σ σ' : Scene}
variable {cut : Connection → Prop}

/- While the count stays as it is, no connection comes or goes. -/
theorem Turnover.quiet
    (h : Turnover σ σ')
    (hActive : σ'.ledger.active = σ.ledger.active)
    (hNext : σ'.ledger.connections = σ.ledger.connections)
    (hNotices : notices σ'.ledger.log = notices σ.ledger.log) :
    ∃ t, Change σ t σ' := by
  cases h with
  | kept hPerm => exact ⟨none, .quiet hPerm hNotices hNext⟩
  | opened r hPerm hMore => omega
  | counted c hPerm hLess => omega

/- The background tells nothing of what it releases. -/
theorem change_around
    {ss : List Session}
    {os : List Operation}
    {l l' : Ledger}
    (hBooked : Booked n ⟨ss, os, l⟩)
    (h : l.Step l') :
    ∃ t, Change ⟨ss, os, l⟩ t ⟨ss, os, l'⟩ := by
  have hNodup := hBooked.sound.numbered.tasks
  have hTurnover := turnover_around hBooked h
  cases h with
  | noted e hAside =>
      exact hTurnover.quiet rfl rfl
        (notices_still _ (notices_aside hAside))
  | continued => exact hTurnover.quiet rfl rfl (notices_still _ rfl)
  | concluded => exact hTurnover.quiet rfl rfl rfl
  | died => exact hTurnover.quiet rfl rfl rfl
  | timedOut => exact hTurnover.quiet rfl rfl (notices_still _ rfl)
  | committed hJobs hEvents =>
      refine ⟨_, .untold (.commit hJobs rfl) (outstanding_less ?_)
        (notices_still _ (notices_released hEvents)) rfl⟩
      exact Ledger.outstanding_committed hJobs rfl rfl
  | released hJobs hTask hState hEvents =>
      refine ⟨_, .untold (.afterTask hJobs hTask rfl rfl)
        (outstanding_less ?_)
        (notices_still _ (notices_released hEvents)) rfl⟩
      exact Ledger.outstanding_ended hNodup hTask hJobs rfl rfl
  | forgotten hJobs hTask =>
      refine ⟨_, .untold (.afterTask hJobs hTask rfl rfl)
        (outstanding_less ?_) rfl rfl⟩
      exact Ledger.outstanding_ended hNodup hTask hJobs rfl rfl
  | void => exact hTurnover.quiet rfl rfl rfl

/- A session has its connection, as is told. -/
theorem notices_link
    (l : Ledger)
    (r : Repository) :
    notices ((l.opening r).link r).log =
      notices l.log ++ [.made (l.nextConnection r),
        .opened (World.connectionInfo r (l.active + 1))] := by
  simp [Ledger.opening, Ledger.link, notices, Event.notice?]

/- A session lets its connection go, as is told, and goes on. -/
theorem change_unlink
    {s s' : Session}
    {ss : List Session}
    {os os' : List Operation}
    {l l' : Ledger}
    {c : Connection}
    (hHome : AtHome ⟨s :: ss, os, l⟩)
    (hHas : Has ⟨s :: ss, os, l⟩ s c)
    (hSame : s'.id = s.id)
    (hClosed : s'.link = .closed)
    (hPerm : (outstanding ⟨s :: ss, os, l⟩).Perm
      (c :: outstanding ⟨ss, os, l'⟩))
    (hNotices : notices l'.log = notices l.log)
    (hNext : l'.connections = l.connections) :
    ∃ t, Change ⟨s :: ss, os, l⟩ t
      ⟨s' :: ss, os', l'.unlink s.repository⟩ := by
  have hMem : s ∈ s :: ss := List.mem_cons_self ..
  refine ⟨_, .told hMem hHas (List.mem_cons_self ..) hSame hClosed
    (hHome.has hMem hHas) rfl ?_ ?_ hNext⟩
  · rw [outstanding_closed hClosed]
    exact hPerm
  · change notices (l'.log ++ [_]) = _
    rw [notices_append, hNotices]
    rfl

/-
  Each step of a scene changes connections in one of these
  ways, with its notices.
-/
theorem change_step
    (hBooked : Booked n σ)
    (hHome : AtHome σ)
    (h : Step may σ σ') : ∃ t, Change σ t σ' := by
  have hTurnover := turnover_step hBooked h
  cases h with
  | rearranged => exact hTurnover.quiet rfl rfl rfl
  | around h => exact change_around hBooked h
  | made => exact hTurnover.quiet rfl rfl rfl
  | changed => exact hTurnover.quiet rfl rfl rfl
  | @opened ss os l s hLink =>
      refine ⟨_, .opened (List.mem_cons_self ..) hLink
        (List.mem_cons_self ..) rfl rfl ?_ ?_ rfl⟩
      · rw [outstanding_closed hLink]
        exact .of_eq (outstanding_opened rfl).symm
      · exact notices_link l s.repository
  | @closed ss os l s c ok hLink =>
      apply change_unlink hHome (.inl hLink)
      · rfl
      · rfl
      · exact .of_eq (outstanding_opened hLink)
      · exact notices_still _ rfl
      · rfl
  | @discarded ss os l s c hLink =>
      apply change_unlink hHome (.inl hLink)
      · rfl
      · rfl
      · exact .of_eq (outstanding_opened hLink)
      · exact notices_still _ rfl
      · rfl
  | began => exact hTurnover.quiet rfl rfl (notices_still _ rfl)
  | refused => exact hTurnover.quiet rfl rfl (notices_still _ rfl)
  | ended => exact hTurnover.quiet rfl rfl (notices_still _ rfl)
  | cleared => exact hTurnover.quiet rfl rfl rfl
  | started => exact hTurnover.quiet rfl rfl (notices_still _ rfl)
  | returned => exact hTurnover.quiet rfl rfl rfl
  | @lost ss os l s o hSession =>
      have hFirst : o ∈ o :: os := List.mem_cons_self ..
      have hBusy := (hBooked.sound.paired.busy o hFirst s
        (List.mem_cons_self ..) hSession).1
      obtain ⟨t, hTask⟩ :=
        hBooked.sound.claimed.operation_task hFirst
      apply change_unlink hHome
        (.inr ⟨o, hFirst, hSession, t, hTask, rfl⟩)
      · rfl
      · rfl
      · rw [outstanding_busy hBusy]
        exact outstanding_less (Ledger.outstanding_forget
          hBooked.sound.numbered.tasks hTask)
      · rfl
      · rfl
  | dropped => exact hTurnover.quiet rfl rfl rfl
  | left => exact hTurnover.quiet rfl rfl rfl
  | leftOpen ok hLink =>
      refine ⟨_, .untold (.session hLink) ?_ (notices_still _ rfl)
        rfl⟩
      exact .of_eq (outstanding_opened hLink)
  | leftInTransaction => exact hTurnover.quiet rfl rfl rfl

/- Abroad all that is left goes with its connections. -/
theorem Booked.change
    (hBooked : Booked n σ)
    (hHome : AtHome σ)
    (h : Parting cut σ σ') : ∃ t, Change σ t σ' := by
  cases h with
  | stepped h => exact change_step hBooked hHome h
  | @discarded ss os l s c hLink =>
      refine ⟨_, .untold (.session hLink) ?_ (notices_still _ rfl)
        rfl⟩
      exact .of_eq (outstanding_opened hLink)
  | stopped o =>
      obtain ⟨t, hTask⟩ := hBooked.sound.claimed.operation_task
        (List.mem_cons_self ..)
      refine ⟨_, .untold (.operation hTask rfl)
        (outstanding_less ?_) rfl rfl⟩
      exact Ledger.outstanding_forget
        hBooked.sound.numbered.tasks hTask

------------------------------------------------------------
-- Courses
------------------------------------------------------------

/- All that happened to connections, from a start on. -/
inductive Course
    (cut : Connection → Prop)
    (σ₀ : Scene) : List Turn → Scene → Prop where
  | start : Course cut σ₀ [] σ₀
  | next
      {ts : List Turn}
      {t : Option Turn}
      {σ σ' : Scene}
      (hCourse : Course cut σ₀ ts σ)
      (hParting : Parting cut σ σ')
      (hChange : Change σ t σ') :
      Course cut σ₀ (ts ++ t.toList) σ'

theorem Booked.course
    (hBooked : Booked n σ)
    (hHome : AtHome σ)
    (h : Partings cut σ σ') : ∃ ts, Course cut σ ts σ' := by
  have hAll : Booked n σ' ∧ AtHome σ' ∧
      ∃ ts, Course cut σ ts σ' := by
    induction h with
    | refl => exact ⟨hBooked, hHome, [], .start⟩
    | tail _ hParting ih =>
        obtain ⟨hThen, hThere, ts, hCourse⟩ := ih
        obtain ⟨t, hChange⟩ := hThen.change hThere hParting
        exact ⟨(hThen.parting hParting).2,
          hThere.parting hThen.sound hThen.returns hParting,
          _, hCourse.next hParting hChange⟩
  exact hAll.2.2

/-
  All that is told of connections is told in the turns, and
  what was opened is outstanding or has gone, and that was told
  or not.
-/
structure Told
    (ts : List Turn)
    (σ : Scene) : Prop where
  notices : notices σ.ledger.log = ts.flatMap (·.notices)
  named : ∀ t ∈ ts, t.IsNamed
  connections : (ts.filterMap (·.opened?)).Perm
    (σ.outstanding ++ ts.filterMap (·.told?) ++
      ts.filterMap (·.untold?))
  distinct : (ts.filterMap (·.opened?)).Nodup
  numbered : ∀ c ∈ ts.filterMap (·.opened?),
    c.id < σ.ledger.connections

/- The count of notices is exact before anything is opened. -/
theorem Told.initial
    {l : Ledger}
    (hLog : l.log = [])
    (hTasks : l.tasks = [])
    (hJobs : l.jobs = []) : Told [] ⟨[], [], l⟩ := by
  constructor
  · change Failover.notices l.log = _
    rw [hLog]
    rfl
  · intro t hT
    cases hT
  · simp [outstanding, Ledger.outstanding, hTasks, hJobs]
  · exact List.nodup_nil
  · intro c hC
    cases hC

/- A connection goes, which was outstanding. -/
theorem Told.gone
    {ts : List Turn}
    {t : Turn}
    {c : Connection}
    (hTold : Told ts σ)
    (hGoes : t.told?.toList ++ t.untold?.toList = [c])
    (hOpens : t.opened? = none)
    (hNamed : t.IsNamed)
    (hPerm : σ.outstanding.Perm (c :: σ'.outstanding))
    (hNotices : Failover.notices σ'.ledger.log =
      Failover.notices σ.ledger.log ++ t.notices)
    (hNext : σ'.ledger.connections = σ.ledger.connections) :
    Told (ts ++ [t]) σ' := by
  have hSame : (ts ++ [t]).filterMap (·.opened?) =
      ts.filterMap (·.opened?) := by
    simp [hOpens]
  constructor
  · rw [hNotices, hTold.notices, List.flatMap_append,
      List.flatMap_singleton]
  · rw [List.forall_mem_append, List.forall_mem_singleton]
    exact ⟨hTold.named, hNamed⟩
  · rw [hSame, List.perm_iff_count]
    intro x
    have hBefore := hTold.connections.count_eq x
    have hLess := hPerm.count_eq x
    have hOne := congrArg (List.count x) hGoes
    simp only [List.count_append, List.filterMap_append,
      List.count_cons, List.count_nil] at hBefore hLess hOne ⊢
    have hSaid : [t].filterMap (·.told?) = t.told?.toList := by
      cases t <;> rfl
    have hUnsaid : [t].filterMap (·.untold?) =
        t.untold?.toList := by
      cases t <;> rfl
    rw [hSaid, hUnsaid]
    omega
  · rw [hSame]
    exact hTold.distinct
  · rw [hSame, hNext]
    exact hTold.numbered

/- The next connection is opened. -/
theorem Told.opened
    {ts : List Turn}
    {c : Connection}
    {info : ConnectionInfo}
    (hTold : Told ts σ)
    (hId : c.id = σ.ledger.connections)
    (hNamed : info.repository = c.repository)
    (hPerm : (c :: σ.outstanding).Perm σ'.outstanding)
    (hNotices : Failover.notices σ'.ledger.log =
      Failover.notices σ.ledger.log ++ [.made c, .opened info])
    (hNext : σ'.ledger.connections = σ.ledger.connections + 1) :
    Told (ts ++ [.opened c info]) σ' := by
  have hMore : (ts ++ [Turn.opened c info]).filterMap (·.opened?) =
      ts.filterMap (·.opened?) ++ [c] := by
    simp [Turn.opened?]
  constructor
  · rw [hNotices, hTold.notices, List.flatMap_append,
      List.flatMap_singleton]
    rfl
  · rw [List.forall_mem_append, List.forall_mem_singleton]
    exact ⟨hTold.named, hNamed⟩
  · rw [hMore, List.perm_iff_count]
    intro x
    have hBefore := hTold.connections.count_eq x
    have hOne := hPerm.count_eq x
    simp only [List.count_append, List.filterMap_append,
      List.count_cons, List.count_nil] at hBefore hOne ⊢
    have hSaid : [Turn.opened c info].filterMap (·.told?) = [] :=
      rfl
    have hUnsaid : [Turn.opened c info].filterMap (·.untold?) = [] :=
      rfl
    rw [hSaid, hUnsaid, List.count_nil]
    omega
  · rw [hMore, List.nodup_append_comm]
    apply List.nodup_cons.mpr
    constructor
    · intro hOld
      have hLess := hTold.numbered c hOld
      omega
    · exact hTold.distinct
  · intro c' hC
    rw [hNext]
    rw [hMore] at hC
    rcases List.mem_append.mp hC with hOld | hThis
    · have hLess := hTold.numbered c' hOld
      omega
    · rw [List.mem_singleton.mp hThis]
      omega

/- Every change of a connection is one turn, if it is any. -/
theorem Told.change
    {ts : List Turn}
    {t : Option Turn}
    (hTold : Told ts σ)
    (h : Change σ t σ') : Told (ts ++ t.toList) σ' := by
  cases h with
  | quiet hPerm hNotices hNext =>
      rw [Option.toList_none, List.append_nil]
      constructor
      · exact hNotices.trans hTold.notices
      · exact hTold.named
      · exact hTold.connections.trans
          ((hPerm.append_right _).append_right _)
      · exact hTold.distinct
      · rw [hNext]
        exact hTold.numbered
  | opened hMem hLink hGoesOn hNew hInfo hPerm hNotices hNext =>
      apply hTold.opened
      · rw [hNew]
        rfl
      · rw [hNew, hInfo]
        rfl
      · exact hPerm
      · exact hNotices
      · exact hNext
  | told hMem hHas hGoesOn hSame hClosed hHome hInfo hPerm
      hNotices hNext =>
      apply hTold.gone
      · rfl
      · rfl
      · rw [Turn.IsNamed, hInfo, hHome]
        rfl
      · exact hPerm
      · exact hNotices
      · exact hNext
  | untold hLeft hPerm hNotices hNext =>
      apply hTold.gone
      · rfl
      · rfl
      · trivial
      · exact hPerm
      · rw [hNotices]
        exact (List.append_nil _).symm
      · exact hNext

theorem Course.told
    {σ₀ : Scene}
    {ts : List Turn}
    (h : Course cut σ₀ ts σ)
    (hStart : Told [] σ₀) : Told ts σ := by
  induction h with
  | start => exact hStart
  | next hCourse hParting hChange ih => exact ih.change hChange

------------------------------------------------------------
-- Numbers
------------------------------------------------------------

/- Each opening and each closing is told once. -/
theorem Told.counts
    {ts : List Turn}
    (hTold : Told ts σ) :
    openingsTold σ.ledger.log = (ts.filterMap (·.opened?)).length ∧
      closingsTold σ.ledger.log =
        (ts.filterMap (·.told?)).length := by
  rw [openingsTold_eq, closingsTold_eq, hTold.notices]
  clear hTold
  induction ts with
  | nil => exact ⟨rfl, rfl⟩
  | cons t ts ih =>
      obtain ⟨hOpened, hClosed⟩ := ih
      rw [List.flatMap_cons, List.countP_append, List.countP_append,
        hOpened, hClosed]
      cases t <;>
        simp [Turn.notices, Turn.opened?, Turn.told?,
          Notice.isOpened, Notice.isClosed, Nat.add_comm]

/-
  All that happened to connections since a start, and what was
  told of it.  At rest, all that were opened have gone, and so
  many closings are missing as connections were left behind.
-/
structure Recounted
    (cut : Connection → Prop)
    (σ₀ : Scene)
    (ts : List Turn)
    (σ : Scene) : Prop where
  course : Course cut σ₀ ts σ
  told : Told ts σ
  rest : σ.AtRest →
    (ts.filterMap (·.opened?)).Perm
      (ts.filterMap (·.told?) ++ ts.filterMap (·.untold?)) ∧
    openingsTold σ.ledger.log =
      closingsTold σ.ledger.log +
        (ts.filterMap (·.untold?)).length

theorem Booked.recounted
    {σ₀ : Scene}
    (hStart : Booked n σ₀)
    (hHome : AtHome σ₀)
    (hNothing : Told [] σ₀)
    (hPartings : Partings cut σ₀ σ)
    (hProper : Proper σ) :
    ∃ ts, Recounted cut σ₀ ts σ := by
  obtain ⟨ts, hCourse⟩ := hStart.course hHome hPartings
  have hTold := hCourse.told hNothing
  have hBooked := (hStart.partings hPartings).2
  refine ⟨ts, hCourse, hTold, ?_⟩
  intro hRest
  have hNone := hRest.outstanding hBooked.sound.claimed hProper
  have hAll := hTold.connections
  rw [hNone, List.nil_append] at hAll
  refine ⟨hAll, ?_⟩
  rw [hTold.counts.1, hTold.counts.2, hAll.length_eq,
    List.length_append]

end Scene

namespace Workspace

/-
  In whatever order requests are answered and the background
  goes on, and if then all is dropped where nothing goes on:
  each connection that is opened is told of once, and so is
  each that a session lets go, while of those that are left
  behind with sessions and operations nothing is told.
-/
theorem closings_are_told
    (d : DataAccess)
    (backend : String → Backend)
    (n : Nat)
    (ms : List Move) :
    Act.Ends (plays ms) (ofAccess d) (World.countedFrom backend n)
      fun _ ws w =>
        (∃ ts, Scene.Recounted (fun _ => False)
          ⟨[], [], (World.countedFrom backend n).ledger⟩ ts
          (ws.scene w [] [])) ∧
        Effect.Ends ws.abandon w fun _ w' =>
          ∃ ts, Scene.Recounted (ws.AtWork w)
            ⟨[], [], (World.countedFrom backend n).ledger⟩ ts
            ⟨[], [], w'.ledger⟩ := by
  refine (plays_follows ms (ofAccess d) _
    (tidy_ofAccess d)).mono ?_
  intro _ ws w hFollows
  have hStart := Scene.Booked.initial backend n
  have hHome : Scene.AtHome
      ⟨[], [], (World.countedFrom backend n).ledger⟩ := .initial _
  have hNothing : Scene.Told []
      ⟨[], [], (World.countedFrom backend n).ledger⟩ :=
    .initial rfl rfl rfl
  have hProper : (ws.scene w [] []).Proper :=
    (Scene.Proper.initial _).steps hStart.sound hFollows.steps
  constructor
  · exact hStart.recounted hHome hNothing
      hFollows.steps.partings hProper
  · refine (abandon_partings ws w).mono ?_
    intro _ w' hLeft
    exact hStart.recounted hHome hNothing
      (hFollows.steps.partings.trans hLeft) (.initial _)

/- A session that is dropped while its connection is open. -/
def connectAndDrop : List Move :=
  [.request (.openRepositorySession "a" "s"),
    .request (.connect "s"), .request (.dropSession "s"),
    .background]

theorem connectAndDrop_tells :
    Act.Ends (plays connectAndDrop) (ofAccess oneRepository)
      (World.initial fun _ => .willing) fun _ ws w =>
        ((ws.scene w [] []).sessions.isEmpty ∧
          (ws.scene w [] []).operations.isEmpty ∧
          w.jobs.isEmpty) ∧
        closingsTold w.log = 0 ∧ openingsTold w.log = 1 := by
  unfold Act.Ends Effect.Ends
  decide +kernel

/-
  A run at rest in which a connection was opened and has gone,
  and the latter was not told.
-/
theorem drop_is_not_told :
    ¬ ∀ (d : DataAccess) (backend : String → Backend)
      (ms : List Move),
      Act.Ends (plays ms) (ofAccess d) (World.initial backend)
        fun _ ws w =>
          (ws.scene w [] []).AtRest →
            closingsTold w.log = openingsTold w.log := by
  intro h
  have hRun := h oneRepository (fun _ => .willing) connectAndDrop
  have hFalse : Act.Ends (plays connectAndDrop)
      (ofAccess oneRepository) (World.initial fun _ => .willing)
      fun _ _ _ => False := by
    apply (hRun.and connectAndDrop_tells).mono
    intro _ ws w hBoth
    obtain ⟨hSame, hRest, hClosed, hOpened⟩ := hBoth
    obtain ⟨hSessions, hOperations, hJobs⟩ := hRest
    have hAtRest : (ws.scene w [] []).AtRest := by
      constructor
      · intro s hS
        rw [List.isEmpty_iff.mp hSessions] at hS
        cases hS
      · exact List.isEmpty_iff.mp hOperations
      · exact List.isEmpty_iff.mp hJobs
    have hEqual := hSame hAtRest
    rw [hClosed, hOpened] at hEqual
    cases hEqual
  exact hFalse

end Workspace

end Failover
