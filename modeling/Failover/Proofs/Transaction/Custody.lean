import Failover.Proofs.Scene.Exchange
import Failover.Session.Lifecycle
import Mathlib.Data.List.Nodup
import Mathlib.Data.List.Perm.Basic
import Mathlib.Logic.Relation

/-
  Connections in custody: each that is open is held once, with
  a mark of whether it is inside a transaction, until it is
  closed or discarded or no reply comes on it any more.

  Key definitions include:
    * `isActive`
    * `Custody`, `Custody.Step`
    * `Custody.Sole`, `Custody.Told`
    * `Custody.Orderly`, `Custody.Accounted`

  Main statements:
    * `Custody.Clean.steps`
    * `Custody.Accounted.steps`
-/

namespace Failover

------------------------------------------------------------
-- Transactions in the log
------------------------------------------------------------

/- What an event says of a transaction on a connection. -/
def Event.standing?
    (c : Connection) : Event → Option Bool
  | .called .begin c' true => if c' = c then some true else none
  | .called .commit c' _ => if c' = c then some false else none
  | .called .rollback c' _ => if c' = c then some false else none
  | _ => none

/-
  A transaction was begun on a connection, and nothing was
  done since then to end it.
-/
def isActive
    (c : Connection)
    (log : List Event) : Bool :=
  log.foldl (fun active e => (e.standing? c).getD active) false

/- The last event that concerns a connection decides. -/
theorem isActive_concat
    (c : Connection)
    (log : List Event)
    (e : Event) :
    isActive c (log ++ [e]) =
      (e.standing? c).getD (isActive c log) := by
  simp [isActive]

/- An event that says nothing changes nothing. -/
theorem isActive_still
    {c : Connection}
    {e : Event}
    (log : List Event)
    (h : e.standing? c = none) :
    isActive c (log ++ [e]) = isActive c log := by
  rw [isActive_concat, h, Option.getD_none]

/- A transaction is over with either end, done or refused. -/
theorem Event.standing?_ending
    (e : Session.Ending)
    (c : Connection)
    (ok : Bool) :
    (Event.called e.call c ok).standing? c = some false := by
  cases e <;> simp [Session.Ending.call, standing?]

/-
  An event after which no transaction is active is a call that
  ends it.
-/
theorem Event.eq_ending
    {c : Connection}
    {e : Event}
    (h : e.standing? c = some false) :
    ∃ (ending : Session.Ending) (ok : Bool),
      e = .called ending.call c ok := by
  unfold Event.standing? at h
  split at h
  · split at h <;> cases h
  · split at h
    · subst c
      exact ⟨.commit, _, rfl⟩
    · cases h
  · split at h
    · subst c
      exact ⟨.rollback, _, rfl⟩
    · cases h
  · cases h

/-
  A transaction that is not active any more was ended by a
  call.
-/
theorem exists_ending
    {c : Connection}
    {es : List Event}
    (h : es.foldl (fun active e =>
      (e.standing? c).getD active) true = false) :
    ∃ (ending : Session.Ending) (ok : Bool),
      .called ending.call c ok ∈ es := by
  induction es with
  | nil => cases h
  | cons e es ih =>
      rw [List.foldl_cons] at h
      by_cases hEnds : e.standing? c = some false
      · rcases Event.eq_ending hEnds with ⟨ending, ok, rfl⟩
        exact ⟨ending, ok, List.mem_cons_self ..⟩
      · have hStill : (e.standing? c).getD true = true := by
          rcases hStands : e.standing? c with _ | b
          · rfl
          · cases b
            · exact absurd hStands hEnds
            · rfl
        rw [hStill] at h
        rcases ih h with ⟨ending, ok, hMem⟩
        exact ⟨ending, ok, List.mem_cons_of_mem _ hMem⟩

/-
  A transaction that began and is not active was ended by a
  later call.
-/
theorem ending_of_not_isActive
    {c : Connection}
    {earlier later : List Event}
    (h : isActive c
      (earlier ++ .called .begin c true :: later) = false) :
    ∃ (ending : Session.Ending) (ok : Bool),
      .called ending.call c ok ∈ later := by
  rw [isActive, List.foldl_append, List.foldl_cons] at h
  exact exists_ending (by simpa [Event.standing?] using h)

------------------------------------------------------------
-- Custody
------------------------------------------------------------

/- Events that are not about who has which connection. -/
def Event.isQuiet : Event → Bool
  | .opened _ c => c.isNone
  | .called .begin _ ok => !ok
  | .called _ _ _ => false
  | .discarded _ => false
  | _ => true

/- Quiet events say nothing of transactions. -/
theorem Event.standing?_quiet
    {e : Event}
    (h : e.isQuiet = true)
    (c : Connection) : e.standing? c = none := by
  unfold Event.standing?
  split <;> simp_all [Event.isQuiet]

/- The connections that are held, and how many there were. -/
structure Custody where
  held : List (Connection × Bool)
  opened : Nat
  log : List Event

namespace Custody

inductive Step (backend : String → Backend) :
    Custody → Custody → Prop where
  | arranged
      {held held' : List (Connection × Bool)}
      {n : Nat}
      {log : List Event}
      (h : held.Perm held') :
      Step backend ⟨held, n, log⟩ ⟨held', n, log⟩
  | noted
      {held : List (Connection × Bool)}
      {n : Nat}
      {log : List Event}
      (e : Event)
      (hQuiet : e.isQuiet = true) :
      Step backend ⟨held, n, log⟩ ⟨held, n, log ++ [e]⟩
  | opened
      {held : List (Connection × Bool)}
      {n : Nat}
      {log : List Event}
      (repository : String)
      (inTransaction : Bool) :
      Step backend ⟨held, n, log⟩
        ⟨(⟨n, repository⟩, inTransaction) :: held, n + 1,
          log ++ [.opened repository (some ⟨n, repository⟩)]⟩
  | began
      {held : List (Connection × Bool)}
      {n : Nat}
      {log : List Event}
      (c : Connection) :
      Step backend ⟨(c, false) :: held, n, log⟩
        ⟨(c, true) :: held, n, log ++ [.called .begin c true]⟩
  | ended
      {held : List (Connection × Bool)}
      {n : Nat}
      {log : List Event}
      (c : Connection)
      (e : Session.Ending)
      (ok : Bool) :
      Step backend ⟨(c, true) :: held, n, log⟩
        ⟨(c, false) :: held, n, log ++ [.called e.call c ok]⟩
  | closed
      {held : List (Connection × Bool)}
      {n : Nat}
      {log : List Event}
      (c : Connection)
      (ok : Bool) :
      Step backend ⟨(c, false) :: held, n, log⟩
        ⟨held, n, log ++ [.called .close c ok]⟩
  | discarded
      {held : List (Connection × Bool)}
      {n : Nat}
      {log : List Event}
      (c : Connection)
      (inTransaction : Bool) :
      Step backend ⟨(c, inTransaction) :: held, n, log⟩
        ⟨held, n, log ++ [.discarded c]⟩
  | lost
      {held : List (Connection × Bool)}
      {n : Nat}
      {log : List Event}
      (c : Connection)
      (inTransaction : Bool)
      (hSilent : IsSilent backend c log) :
      Step backend ⟨(c, inTransaction) :: held, n, log⟩
        ⟨held, n, log⟩

abbrev Steps (backend : String → Backend) :=
  Relation.ReflTransGen (Step backend)

variable {backend : String → Backend} {κ κ' : Custody}

------------------------------------------------------------
-- One holder
------------------------------------------------------------

/- No connection is held twice, and the next one by nobody. -/
structure Sole (κ : Custody) : Prop where
  nodup : (κ.held.map (·.1)).Nodup
  numbered : ∀ x ∈ κ.held, x.1.id < κ.opened

/-
  Letting a connection go leaves each other one with one
  holder.
-/
theorem Sole.tail
    {x : Connection × Bool}
    {held : List (Connection × Bool)}
    {n : Nat}
    {log log' : List Event}
    (h : Sole ⟨x :: held, n, log⟩) :
    Sole ⟨held, n, log'⟩ where
  nodup := (List.nodup_cons.mp h.nodup).2
  numbered := fun y hY =>
    h.numbered y (List.mem_cons_of_mem _ hY)

/- The mark of a connection does not matter. -/
theorem Sole.mark
    {c : Connection}
    {b : Bool}
    {held : List (Connection × Bool)}
    {n : Nat}
    {log log' : List Event}
    (b' : Bool)
    (h : Sole ⟨(c, b) :: held, n, log⟩) :
    Sole ⟨(c, b') :: held, n, log'⟩ where
  nodup := h.nodup
  numbered := by
    intro x hX
    rcases List.mem_cons.mp hX with rfl | hX
    · exact h.numbered (c, b) (List.mem_cons_self ..)
    · exact h.numbered x (List.mem_cons_of_mem _ hX)

/- The order in which connections are held is no matter. -/
theorem Sole.perm
    {held held' : List (Connection × Bool)}
    {n : Nat}
    {log : List Event}
    (h : Sole ⟨held, n, log⟩)
    (hPerm : held.Perm held') : Sole ⟨held', n, log⟩ where
  nodup := (hPerm.map (·.1)).nodup_iff.mp h.nodup
  numbered := fun x hX => h.numbered x (hPerm.mem_iff.mpr hX)

/- A step leaves each connection with one holder. -/
theorem Sole.step
    (hSole : Sole κ)
    (h : Step backend κ κ') : Sole κ' := by
  cases h with
  | arranged hPerm => exact hSole.perm hPerm
  | noted => exact ⟨hSole.nodup, hSole.numbered⟩
  | @opened held n log repository inTransaction =>
      rcases hSole with ⟨hNodup, hNumbered⟩
      refine ⟨List.nodup_cons.mpr ⟨fun hMem => ?_, hNodup⟩, ?_⟩
      · rcases List.mem_map.mp hMem with ⟨x, hX, hFirst⟩
        have hLess : x.1.id < n := hNumbered x hX
        rw [hFirst] at hLess
        exact Nat.lt_irrefl _ hLess
      · intro x hX
        rcases List.mem_cons.mp hX with rfl | hX
        · exact Nat.lt_succ_self _
        · exact Nat.lt_succ_of_lt (hNumbered x hX)
  | began => exact hSole.mark true
  | ended => exact hSole.mark false
  | closed => exact hSole.tail
  | discarded => exact hSole.tail
  | lost => exact hSole.tail

/- The connection in front is not held behind. -/
theorem Sole.ne
    {c : Connection}
    {b : Bool}
    {held : List (Connection × Bool)}
    {n : Nat}
    {log : List Event}
    (h : Sole ⟨(c, b) :: held, n, log⟩) :
    ∀ x ∈ held, c ≠ x.1 := by
  intro x hX hEq
  have hNot := (List.nodup_cons.mp h.nodup).1
  exact hNot (List.mem_map.mpr ⟨x, hX, hEq.symm⟩)

------------------------------------------------------------
-- Marks
------------------------------------------------------------

/-
  On a connection without a mark no transaction is active, and
  on none that is not opened yet.
-/
structure Told (κ : Custody) : Prop where
  held : ∀ x ∈ κ.held, x.2 = false → isActive x.1 κ.log = false
  fresh : ∀ c, κ.opened ≤ c.id → isActive c κ.log = false

/- An event that says nothing of what is still held. -/
theorem Told.still
    {held held' : List (Connection × Bool)}
    {n : Nat}
    {log : List Event}
    {e : Event}
    (h : Told ⟨held, n, log⟩)
    (hLess : ∀ x ∈ held', x ∈ held)
    (hStill : ∀ c, e.standing? c ≠ some true) :
    Told ⟨held', n, log ++ [e]⟩ := by
  have hKeeps : ∀ c, isActive c log = false →
      isActive c (log ++ [e]) = false := by
    intro c hNot
    rw [isActive_concat, hNot]
    have hNever := hStill c
    rcases hStands : e.standing? c with _ | b
    · rfl
    · cases b
      · rfl
      · exact absurd hStands hNever
  refine ⟨?_, fun c hC => hKeeps c (h.fresh c hC)⟩
  exact fun x hX hMark => hKeeps _ (h.held x (hLess x hX) hMark)

/- The order is no matter to the marks either. -/
theorem Told.perm
    {held held' : List (Connection × Bool)}
    {n : Nat}
    {log : List Event}
    (h : Told ⟨held, n, log⟩)
    (hPerm : held.Perm held') : Told ⟨held', n, log⟩ where
  held := fun x hX => h.held x (hPerm.mem_iff.mpr hX)
  fresh := h.fresh

/-
  A mark says whether a transaction is open, after each
  step.
-/
theorem Told.step
    (hSole : Sole κ)
    (hTold : Told κ)
    (h : Step backend κ κ') : Told κ' := by
  cases h with
  | arranged hPerm => exact hTold.perm hPerm
  | noted e hQuiet =>
      refine hTold.still (fun _ hX => hX) fun c => ?_
      rw [Event.standing?_quiet hQuiet c]
      exact nofun
  | @opened held n log repository inTransaction =>
      have hStill : ∀ c, (Event.opened repository
          (some ⟨n, repository⟩)).standing? c ≠ some true :=
        fun c => nofun
      have hOld := hTold.still (fun _ hX => hX) hStill
      refine ⟨?_, fun c hC => hOld.fresh c (Nat.le_of_succ_le hC)⟩
      intro x hX hMark
      rcases List.mem_cons.mp hX with rfl | hX
      · exact hOld.fresh _ (Nat.le_refl n)
      · exact hOld.held x hX hMark
  | @began held n log c =>
      have hOther : ∀ c', c ≠ c' → isActive c'
          (log ++ [.called .begin c true]) = isActive c' log := by
        intro c' hNe
        exact isActive_still log (by simp [Event.standing?, hNe])
      refine ⟨?_, ?_⟩
      · intro x hX hMark
        rcases List.mem_cons.mp hX with rfl | hX
        · cases hMark
        · show isActive x.1 (log ++ [.called .begin c true]) = false
          rw [hOther x.1 (hSole.ne x hX)]
          exact hTold.held x (List.mem_cons_of_mem _ hX) hMark
      · intro c' hC
        have hLess : c.id < n :=
          hSole.numbered (c, false) (List.mem_cons_self ..)
        have hNe : c ≠ c' := by
          rintro rfl
          exact Nat.not_le_of_lt hLess hC
        show isActive c' (log ++ [.called .begin c true]) = false
        rw [hOther c' hNe]
        exact hTold.fresh c' hC
  | @ended held n log c e ok =>
      have hStill : ∀ c',
          (Event.called e.call c ok).standing? c' ≠ some true := by
        intro c'
        cases e <;> simp [Session.Ending.call, Event.standing?]
      have hLess : ∀ x ∈ held, x ∈ (c, true) :: held :=
        fun _ hX => List.mem_cons_of_mem _ hX
      have hOld := hTold.still hLess hStill
      refine ⟨?_, hOld.fresh⟩
      intro x hX hMark
      rcases List.mem_cons.mp hX with rfl | hX
      · show isActive c (log ++ [.called e.call c ok]) = false
        rw [isActive_concat, Event.standing?_ending]
        rfl
      · exact hOld.held x hX hMark
  | closed c ok =>
      exact hTold.still (fun _ hX => List.mem_cons_of_mem _ hX)
        fun _ => nofun
  | discarded c inTransaction =>
      exact hTold.still (fun _ hX => List.mem_cons_of_mem _ hX)
        fun _ => nofun
  | lost =>
      refine ⟨?_, hTold.fresh⟩
      exact fun x hX => hTold.held x (List.mem_cons_of_mem _ hX)

------------------------------------------------------------
-- Closing
------------------------------------------------------------

/- No connection is closed on which a transaction is active. -/
def Orderly (log : List Event) : Prop :=
  ∀ (earlier later : List Event) (c : Connection) (ok : Bool),
    log = earlier ++ .called .close c ok :: later →
      isActive c earlier = false

/- An event more is in order if it closes no transaction. -/
theorem Orderly.concat
    {log : List Event}
    {e : Event}
    (h : Orderly log)
    (hLast : ∀ c ok, e = .called .close c ok →
      isActive c log = false) :
    Orderly (log ++ [e]) := by
  intro earlier later c ok hEq
  rcases List.eq_nil_or_concat later with rfl | ⟨xs, x, rfl⟩
  · rcases List.append_inj' hEq rfl with ⟨rfl, hSame⟩
    exact hLast c ok (List.singleton_inj.mp hSame)
  · rw [List.concat_eq_append, ← List.cons_append,
      ← List.append_assoc] at hEq
    exact h earlier xs c ok (List.append_inj' hEq rfl).1

/- A step keeps the log in order. -/
theorem Orderly.step
    (hTold : Told κ)
    (hOrderly : Orderly κ.log)
    (h : Step backend κ κ') : Orderly κ'.log := by
  cases h with
  | arranged => exact hOrderly
  | noted e hQuiet =>
      refine hOrderly.concat fun c ok hEq => ?_
      subst hEq
      cases hQuiet
  | opened => exact hOrderly.concat nofun
  | began => exact hOrderly.concat nofun
  | ended c e ok =>
      refine hOrderly.concat fun c' ok' hEq => ?_
      cases e <;> cases hEq
  | @closed held n log c ok =>
      refine hOrderly.concat fun c' ok' hEq => ?_
      cases hEq
      exact hTold.held (c, false) (List.mem_cons_self ..) rfl
  | discarded => exact hOrderly.concat nofun
  | lost => exact hOrderly

/- Nothing is closed that should not be, nor will be. -/
structure Clean (κ : Custody) : Prop where
  sole : Sole κ
  told : Told κ
  orderly : Orderly κ.log

/-
  One step keeps a run clean: nothing is closed that should
  not be, nor will be.
-/
theorem Clean.step
    (hClean : Clean κ)
    (h : Step backend κ κ') : Clean κ' where
  sole := hClean.sole.step h
  told := hClean.told.step hClean.sole h
  orderly := hClean.orderly.step hClean.told h

/- Any number of steps keeps a run clean. -/
theorem Clean.steps
    (hClean : Clean κ)
    (h : Steps backend κ κ') : Clean κ' := by
  induction h with
  | refl => exact hClean
  | tail _ hStep ih => exact ih.step hStep

/- A connection may be held no more for no reason. -/
theorem Clean.tail
    {x : Connection × Bool}
    {held : List (Connection × Bool)}
    {n : Nat}
    {log : List Event}
    (h : Clean ⟨x :: held, n, log⟩) : Clean ⟨held, n, log⟩ where
  sole := h.sole.tail
  told := ⟨fun y hY => h.told.held y (List.mem_cons_of_mem _ hY),
    h.told.fresh⟩
  orderly := h.orderly

/- A run is clean before anything is opened. -/
theorem Clean.initial : Clean ⟨[], 0, []⟩ where
  sole := ⟨List.nodup_nil, nofun⟩
  told := ⟨nofun, fun _ _ => rfl⟩
  orderly := by
    intro earlier later c ok hEq
    simp at hEq

------------------------------------------------------------
-- Accounts
------------------------------------------------------------

/- What became of a connection that was opened. -/
inductive Fate
    (backend : String → Backend)
    (κ : Custody)
    (c : Connection) : Prop where
  | held (inTransaction : Bool) (h : (c, inTransaction) ∈ κ.held)
  | closed (ok : Bool) (h : .called .close c ok ∈ κ.log)
  | discarded (h : .discarded c ∈ κ.log)
  | lost (h : IsSilent backend c κ.log)

def Accounted
    (backend : String → Backend)
    (κ : Custody) : Prop :=
  ∀ r c, .opened r (some c) ∈ κ.log → Fate backend κ c

/-
  The fate of a connection stays as connections that are held
  stay held.
-/
theorem Fate.mono
    {held held' : List (Connection × Bool)}
    {n n' : Nat}
    {log : List Event}
    {c : Connection}
    (es : List Event)
    (hFate : Fate backend ⟨held, n, log⟩ c)
    (hHeld : ∀ b, (c, b) ∈ held → ∃ b', (c, b') ∈ held') :
    Fate backend ⟨held', n', log ++ es⟩ c := by
  cases hFate with
  | held b h =>
      rcases hHeld b h with ⟨b', h'⟩
      exact .held b' h'
  | closed ok h => exact .closed ok (List.mem_append_left _ h)
  | discarded h => exact .discarded (List.mem_append_left _ h)
  | lost h => exact .lost (h.append es)

/-
  A connection that is let go has a fate of its own, and the
  others keep theirs.
-/
theorem Fate.drop
    {held : List (Connection × Bool)}
    {n : Nat}
    {log : List Event}
    {c c' : Connection}
    {b : Bool}
    (es : List Event)
    (hFate : Fate backend ⟨(c', b) :: held, n, log⟩ c)
    (hThis : Fate backend ⟨held, n, log ++ es⟩ c') :
    Fate backend ⟨held, n, log ++ es⟩ c := by
  by_cases hEq : c = c'
  · rw [hEq]
    exact hThis
  · refine hFate.mono es fun b' hMem => ⟨b', ?_⟩
    rcases List.mem_cons.mp hMem with hThat | hMem
    · exact absurd (congrArg (·.1) hThat) hEq
    · exact hMem

/- Marks may change. -/
theorem Fate.mark
    {held : List (Connection × Bool)}
    {n : Nat}
    {log : List Event}
    {c c' : Connection}
    {b : Bool}
    (b' : Bool)
    (es : List Event)
    (hFate : Fate backend ⟨(c', b) :: held, n, log⟩ c) :
    Fate backend ⟨(c', b') :: held, n, log ++ es⟩ c := by
  refine hFate.mono es fun b'' hMem => ?_
  rcases List.mem_cons.mp hMem with hThat | hMem
  · cases hThat
    exact ⟨b', List.mem_cons_self ..⟩
  · exact ⟨b'', List.mem_cons_of_mem _ hMem⟩

/- An account that there is stays one. -/
theorem Fate.step
    {c : Connection}
    (hFate : Fate backend κ c)
    (h : Step backend κ κ') : Fate backend κ' c := by
  cases h with
  | @arranged held held' n log hPerm =>
      have hSame : Fate backend ⟨held', n, log ++ []⟩ c :=
        hFate.mono [] fun b hB => ⟨b, hPerm.mem_iff.mp hB⟩
      rw [List.append_nil] at hSame
      exact hSame
  | noted e hQuiet => exact hFate.mono [e] fun b hB => ⟨b, hB⟩
  | opened =>
      exact hFate.mono _
        fun b hB => ⟨b, List.mem_cons_of_mem _ hB⟩
  | began => exact hFate.mark true _
  | ended => exact hFate.mark false _
  | closed c' ok =>
      refine hFate.drop _ (.closed ok ?_)
      exact List.mem_append_right _ (List.mem_singleton_self _)
  | discarded c' inTransaction =>
      refine hFate.drop _ (.discarded ?_)
      exact List.mem_append_right _ (List.mem_singleton_self _)
  | @lost held n log c' inTransaction hSilent =>
      have hSame := hFate.drop [] (.lost (hSilent.append []))
      rw [List.append_nil] at hSame
      exact hSame

/- A connection has a fate after any steps, once it has one. -/
theorem Fate.steps
    {c : Connection}
    (hFate : Fate backend κ c)
    (h : Steps backend κ κ') : Fate backend κ' c := by
  induction h with
  | refl => exact hFate
  | tail _ hStep ih => exact ih.step hStep

/- A connection that a step opens has a fate after it. -/
theorem Step.opened_before
    {r : String}
    {c : Connection}
    (h : Step backend κ κ')
    (hMem : .opened r (some c) ∈ κ'.log) :
    .opened r (some c) ∈ κ.log ∨ Fate backend κ' c := by
  cases h with
  | arranged => exact .inl hMem
  | lost => exact .inl hMem
  | noted e hQuiet =>
      refine (List.mem_append.mp hMem).imp_right fun hNew => ?_
      rw [← List.mem_singleton.mp hNew] at hQuiet
      cases hQuiet
  | opened repository inTransaction =>
      refine (List.mem_append.mp hMem).imp_right fun hNew => ?_
      cases List.mem_singleton.mp hNew
      exact .held inTransaction (List.mem_cons_self ..)
  | _ =>
      refine (List.mem_append.mp hMem).imp_right fun hNew => ?_
      cases List.mem_singleton.mp hNew

/- A connection was opened before, or has a fate by now. -/
theorem Steps.opened_before
    {r : String}
    {c : Connection}
    (h : Steps backend κ κ')
    (hMem : .opened r (some c) ∈ κ'.log) :
    .opened r (some c) ∈ κ.log ∨ Fate backend κ' c := by
  induction h with
  | refl => exact .inl hMem
  | tail _ hStep ih =>
      rcases hStep.opened_before hMem with hOld | hNew
      · exact (ih hOld).imp_right (·.step hStep)
      · exact .inr hNew

/- Every connection is accounted for before anything is opened. -/
theorem Accounted.initial : Accounted backend ⟨[], 0, []⟩ := by
  intro r c hMem
  cases hMem

/-
  Every connection that was opened is accounted for after any
  steps.
-/
theorem Accounted.steps
    (hAccounted : Accounted backend κ)
    (h : Steps backend κ κ') : Accounted backend κ' := by
  intro r c hMem
  rcases h.opened_before hMem with hOld | hNew
  · exact (hAccounted r c hOld).steps h
  · exact hNew

end Custody

end Failover
