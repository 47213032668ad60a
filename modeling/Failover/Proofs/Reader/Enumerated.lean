import Failover.Proofs.Common
import Failover.Proofs.Operation.Spend
import Failover.Proofs.Reader.Reporting

/-
  The rows of a reader, mapped one after the other.  What is
  pulled are the results of the first set up to the first
  error, and nothing after that.  However many are pulled, the
  operation is over once: with the end, with an error, or when
  the reader is dropped.

  Key definitions include:
    * `Reader.pullMany`
    * `Reader.atPlace`, `Reader.mapped`
    * `Reader.untilError`
    * `Reader.IsOver`, `Reader.Fails`
    * `Reader.Enumerated`

  Main statements:
    * `Reader.pull_mapped`, `Reader.pull_unmapped`
    * `Reader.pull_end`
    * `Reader.pullMany_enumerates`
    * `Reader.enumerates_first_set`
-/

namespace Failover

namespace Reader

variable {α : Type}

------------------------------------------------------------
-- Results of rows
------------------------------------------------------------

/- A number of rows is pulled. -/
def pullMany
    (map : Reader → Except Failure α) :
    Nat → Act (List (Option (Except Failure α)))
  | 0 => return []
  | n + 1 => do
      let item ← pull map
      return item :: (← pullMany map n)

/- The reader at a row of its set. -/
def atPlace
    (a : Reader)
    (i : Nat) : Reader :=
  { a with cursor := { a.cursor with place := some i } }

/- What the rows of a set are mapped to. -/
def mapped
    (a : Reader)
    (map : Reader → Except Failure α)
    (s : ResultSet) : List (Except Failure α) :=
  (List.range s.rows.length).map fun i => map (a.atPlace i)

/- Results up to the first error, and with it. -/
def untilError :
    List (Except Failure α) → List (Except Failure α)
  | [] => []
  | .ok x :: rest => .ok x :: untilError rest
  | .error f :: _ => [.error f]

/- A row could not be mapped, or there was none. -/
def IsOver (items : List (Option (Except Failure α))) : Prop :=
  ∃ item ∈ items, ∀ x, item ≠ some (.ok x)

/-
  A row could not be mapped.  Or all rows were, and the end of
  the set was met with its failure.
-/
def Fails
    (s : ResultSet)
    (results : List (Except Failure α))
    (items : List (Option (Except Failure α))) : Prop :=
  (∃ f, some (.error f) ∈ items) ∨
    ((∀ x ∈ results, x.isOk = true) ∧ none ∈ items ∧
      s.failure.isSome = true)

section
variable {s : ResultSet} {results : List (Except Failure α)}
variable {items : List (Option (Except Failure α))}

theorem IsOver.of_mem
    {item : Option (Except Failure α)}
    (hMem : item ∈ items)
    (hOther : ∀ x, item ≠ some (.ok x)) : IsOver items :=
  ⟨item, hMem, hOther⟩

theorem not_isOver_nil :
    ¬ IsOver ([] : List (Option (Except Failure α))) := by
  rintro ⟨item, hMem, -⟩
  cases hMem

theorem isOver_cons_ok
    (x : α) :
    IsOver (some (.ok x) :: items) ↔ IsOver items := by
  constructor
  · rintro ⟨item, hMem, hOther⟩
    rcases List.mem_cons.mp hMem with rfl | hRest
    · exact absurd rfl (hOther x)
    · exact ⟨item, hRest, hOther⟩
  · rintro ⟨item, hMem, hOther⟩
    exact ⟨item, List.mem_cons_of_mem _ hMem, hOther⟩

theorem fails_cons_ok
    (x : α) :
    Fails s (.ok x :: results) (some (.ok x) :: items) ↔
      Fails s results items := by
  unfold Fails
  simp [Except.isOk, Except.toBool]

/-
  Rows that are pulled until a failure is met are over: one of
  the items is no row.
-/
theorem Fails.isOver
    (h : Fails s results items) : IsOver items := by
  rcases h with ⟨f, hMem⟩ | ⟨-, hMem, -⟩
  · exact .of_mem hMem (by simp)
  · exact .of_mem hMem (by simp)

end

------------------------------------------------------------
-- Pulling one row
------------------------------------------------------------

section
variable {a : Reader} {s : ResultSet} (w : World)
variable (map : Reader → Except Failure α)

/- The set at which a reader is, or one without rows. -/
def set (a : Reader) : ResultSet :=
  a.cursor.set?.getD .empty

theorem set?_of_row
    (hRow : a.cursor.next < a.set.rows.length) :
    a.cursor.set? = some a.set := by
  unfold set at hRow ⊢
  cases hSet : a.cursor.set? with
  | none =>
      rw [hSet] at hRow
      exact absurd hRow (Nat.not_lt_zero _)
  | some s => rfl

theorem atNext_of_row
    (hRow : a.cursor.next < a.set.rows.length) :
    a.cursor.read.hasMore = true ∧
      a.atNext = a.atPlace a.cursor.next := by
  have hRead := Cursor.read_row (set?_of_row hRow) hRow
  exact ⟨congrArg Cursor.Moved.hasMore hRead,
    congrArg (fun m => { a with cursor := m.cursor }) hRead⟩

/-
  Pulling from a reader that was released gives nothing and
  changes nothing.
-/
theorem pull_released
    (hReleased : a.released = true) :
    Act.Leads (pull map) a w none a w := by
  unfold pull
  rw [Act.leads_iff, Act.ends_bind, Act.ends_get,
    if_pos hReleased]
  exact ⟨rfl, rfl, rfl⟩

theorem pullMany_released
    (n : Nat)
    (hReleased : a.released = true) :
    Act.Leads (pullMany map n) a w (List.replicate n none) a
      w := by
  induction n with
  | zero => rfl
  | succ n ih =>
      exact .bind (pull_released w map hReleased) (.bind ih rfl)

/-
  The next row is pulled with what it is mapped to, if this is
  no error.  The operation goes on.
-/
theorem pull_mapped
    {x : α}
    (hHeld : a.released = false)
    (hRow : a.cursor.next < a.set.rows.length)
    (hMap : map (a.atPlace a.cursor.next) = .ok x) :
    Act.Leads (pull map) a w (some (.ok x))
      (a.atPlace a.cursor.next) w := by
  rcases atNext_of_row hRow with ⟨hMore, hNext⟩
  have hRead := read_row w hHeld hMore
  rw [hNext] at hRead
  unfold pull
  rw [Act.leads_iff, Act.ends_bind, Act.ends_get, hHeld]
  simp only [Bool.false_eq_true, if_false]
  rw [Act.ends_bind, hRead.ends_iff, if_pos rfl, Act.ends_bind,
    Act.ends_get, hMap]
  exact ⟨rfl, rfl, rfl⟩

/-
  A row that cannot be mapped is pulled with its error, and
  the operation is settled as a failed conversion.
-/
theorem pull_unmapped
    {f : Failure}
    (hHeld : a.released = false)
    (hNone : a.cursor.failure = none)
    (hRow : a.cursor.next < a.set.rows.length)
    (hMap : map (a.atPlace a.cursor.next) = .error f) :
    Act.Ends (pull map) a w fun item a' w' =>
      item = some (.error f) ∧ a'.released = true ∧
        Settled a w
          (some (.resultConversion a.session.repository.name
            f.message)) a'.session w' := by
  rcases atNext_of_row hRow with ⟨hMore, hNext⟩
  have hRead := read_row w hHeld hMore
  rw [hNext] at hRead
  unfold pull
  rw [Act.ends_bind, Act.ends_get, hHeld]
  simp only [Bool.false_eq_true, if_false]
  rw [Act.ends_bind, hRead.ends_iff, if_pos rfl, Act.ends_bind,
    Act.ends_get, hMap]
  simp only
  rw [Act.ends_bind, Act.ends_modify]
  let a₁ := (a.atPlace a.cursor.next).failWith f.message
  have hFailure : a₁.cursor.failure =
      some (.resultConversion a.session.repository.name
        f.message) := by
    change (a.cursor.failure <|> _) = _
    rw [hNone]
    rfl
  refine (release_settles w (a := a₁) hHeld).bind ?_
  rintro _ a' w' ⟨hReleased, hSession, hTells⟩
  rw [hFailure] at hTells
  exact ⟨rfl, hReleased, hSession, hTells⟩

/-
  Behind the last row nothing is pulled.  The reader is
  released, and the operation is settled with the failure of
  the set, or as a success if it has none.
-/
theorem pull_end
    (hHeld : a.released = false)
    (hNone : a.cursor.failure = none)
    (hEnd : ¬ a.cursor.next < a.set.rows.length) :
    Act.Ends (pull map) a w fun item a' w' =>
      item = none ∧ a'.released = true ∧
        Settled a w a.set.failure a'.session w' := by
  have hMoved : a.cursor.read.hasMore = false ∧
      a.cursor.read.cursor.failure = a.set.failure := by
    unfold set at hEnd ⊢
    rw [Cursor.failure_read, hNone]
    cases hSet : a.cursor.set? with
    | none =>
        rw [Cursor.read_none hSet]
        exact ⟨rfl, rfl⟩
    | some s =>
        rw [hSet] at hEnd
        rw [Cursor.read_end hSet hEnd]
        refine ⟨rfl, ?_⟩
        simp
  unfold pull
  rw [Act.ends_bind, Act.ends_get, hHeld]
  simp only [Bool.false_eq_true, if_false]
  rw [Act.ends_bind]
  refine (act_unreleased w .read hHeld).mono ?_
  rintro more _ w₁ ⟨rfl, rfl, hRead⟩
  rw [show (Move.read.how a.cursor).hasMore = false from
    hMoved.1]
  refine (release_settles w₁ (a := { a with
    cursor := a.cursor.read.cursor }) hHeld).bind ?_
  rintro _ a' w' ⟨hReleased, hSession, hTells⟩
  rw [hMoved.2] at hTells
  exact ⟨rfl, hReleased, hSession, .after hRead hTells⟩

end

------------------------------------------------------------
-- Pulling many rows
------------------------------------------------------------

/-
  What comes of a reader from which some items were pulled.
  Its operation is over, or it holds everything as it was.
-/
inductive Enumerated
    (a : Reader)
    (w : World)
    (results : List (Except Failure α))
    (items : List (Option (Except Failure α)))
    (a' : Reader) : World → Prop where
  | ended {w' : World} (cause : Option Failure)
      (hOver : IsOver items)
      (hReleased : a'.released = true)
      (hSettled : Settled a w cause a'.session w')
      (hCause : cause.isSome = true ↔ Fails a.set results items) :
      Enumerated a w results items a' w'
  | going
      (hGoing : ¬ IsOver items)
      (hHeld : a'.released = false)
      (hSession : a'.session = a.session)
      (hContext : a'.context = a.context)
      (hNone : a'.cursor.failure = none) :
      Enumerated a w results items a' w

/- A first row that was mapped makes no difference to it. -/
theorem Enumerated.cons_ok
    {a a' : Reader}
    {w w' : World}
    {i : Nat}
    {x : α}
    {results : List (Except Failure α)}
    {items : List (Option (Except Failure α))}
    (h : Enumerated (a.atPlace i) w results items a' w') :
    Enumerated a w (.ok x :: results) (some (.ok x) :: items) a'
      w' := by
  cases h with
  | ended cause hOver hReleased hSettled hCause =>
      refine .ended cause ((isOver_cons_ok x).mpr hOver)
        hReleased ⟨hSettled.session, hSettled.tells⟩ ?_
      exact hCause.trans (fails_cons_ok x).symm
  | going hGoing hHeld hSession hContext hNone =>
      exact .going ((isOver_cons_ok x).not.mpr hGoing) hHeld
        hSession hContext hNone

theorem pullMany_enumerates
    {a : Reader}
    (w : World)
    (map : Reader → Except Failure α)
    (n : Nat)
    (hHeld : a.released = false)
    (hNone : a.cursor.failure = none) :
    Act.Ends (pullMany map n) a w fun items a' w' =>
      let results := (a.mapped map a.set).drop a.cursor.next
      items = (List.range n).map ((untilError results)[·]?) ∧
        Enumerated a w results items a' w' := by
  induction n generalizing a with
  | zero =>
      exact ⟨rfl, .going not_isOver_nil hHeld rfl rfl hNone⟩
  | succ n ih =>
  unfold pullMany
  rw [Act.ends_bind]
  by_cases hRow : a.cursor.next < a.set.rows.length
  · have hMapped : a.cursor.next < (a.mapped map a.set).length := by
      simpa [mapped] using hRow
    have hThis : (a.mapped map a.set)[a.cursor.next] =
        map (a.atPlace a.cursor.next) := by
      simp [mapped]
    simp only [List.drop_eq_getElem_cons hMapped, hThis]
    cases hMap : map (a.atPlace a.cursor.next) with
    | ok x =>
        rw [(pull_mapped w map hHeld hRow hMap).ends_iff,
          Act.ends_bind]
        refine (ih (a := a.atPlace a.cursor.next) hHeld
          hNone).mono ?_
        rintro items a' w' ⟨hItems, hRest⟩
        rw [Act.ends_pure]
        refine ⟨?_, hRest.cons_ok⟩
        rw [untilError, range_getElem?_cons]
        exact congrArg (some (.ok x) :: ·) hItems
    | error f =>
        refine (pull_unmapped w map hHeld hNone hRow hMap).mono ?_
        rintro _ a' w' ⟨rfl, hReleased, hSettled⟩
        rw [Act.ends_bind,
          (pullMany_released w' map n hReleased).ends_iff,
          Act.ends_pure]
        refine ⟨?_, .ended _ ?_ hReleased hSettled ?_⟩
        · rw [untilError, range_getElem?_cons,
            range_getElem?_nil]
        · exact .of_mem List.mem_cons_self (by simp)
        · exact ⟨fun _ => .inl ⟨f, List.mem_cons_self⟩,
            fun _ => rfl⟩
  · have hNothing :
        (a.mapped map a.set).drop a.cursor.next = [] := by
      simpa [mapped] using hRow
    simp only [hNothing]
    refine (pull_end w map hHeld hNone hRow).mono ?_
    rintro _ a' w' ⟨rfl, hReleased, hSettled⟩
    rw [Act.ends_bind,
      (pullMany_released w' map n hReleased).ends_iff,
      Act.ends_pure]
    refine ⟨?_, .ended _ ?_ hReleased hSettled ?_⟩
    · rw [untilError, range_getElem?_nil]
      rfl
    · exact .of_mem List.mem_cons_self (by simp)
    · simp [Fails]

/- A reader that is dropped has its operation over at last. -/
theorem Enumerated.release
    {a a₁ : Reader}
    {w w₁ : World}
    {results : List (Except Failure α)}
    {items : List (Option (Except Failure α))}
    (h : Enumerated a w results items a₁ w₁) :
    Act.Ends Reader.release a₁ w₁ fun _ a' w' =>
      a'.released = true ∧
        (a₁.released = true → a' = a₁ ∧ w' = w₁) ∧
        ∃ cause, Settled a w cause a'.session w' ∧
          (cause.isSome = true ↔ Fails a.set results items) := by
  cases h with
  | ended cause hOver hReleased hSettled hCause =>
      refine (use_released w₁ .release hReleased).mono ?_
      rintro _ _ _ ⟨rfl, rfl⟩
      exact ⟨hReleased, fun _ => ⟨rfl, rfl⟩, cause, hSettled,
        hCause⟩
  | going hGoing hHeld hSession hContext hNone =>
      refine (release_settles w hHeld).mono ?_
      rintro _ a' w' ⟨hReleased, hRested, hTells⟩
      rw [hSession] at hRested hTells
      rw [hContext] at hRested hTells
      rw [hNone] at hTells
      refine ⟨hReleased, fun h => ?_, none, ⟨hRested, hTells⟩, ?_⟩
      · rw [hHeld] at h
        cases h
      · exact ⟨nofun, fun hFails => absurd hFails.isOver hGoing⟩

/-
  Whatever rows are mapped to and however many are pulled: the
  items are the results of the first set's rows, in order, up
  to the first error and with it, and then none.  Up to there
  nothing happens.  The operation is over once, with the end,
  with the error, or when the reader is dropped.  It counts as
  a failure if a row could not be mapped, or if all were and
  the failure of the set was met behind them.
-/
theorem enumerates_first_set
    (map : Reader → Except Failure α)
    (n : Nat)
    (s : Session)
    (context : Operation.Context)
    (o : Outcome)
    (w : World) :
    let a := s.reader context o
    let first := o.sets.headD .empty
    let results := a.mapped map first
    (∀ i row, first.rows[i]? = some row →
      (a.atPlace i).cursor.columns = first.columns ∧
        (a.atPlace i).cursor.row? = some row) ∧
    Act.Ends (pullMany map n) a w fun items a₁ w₁ =>
      items = (List.range n).map ((untilError results)[·]?) ∧
      (a₁.released = true ↔ IsOver items) ∧
      (a₁.released = false → a₁.session = s ∧ w₁ = w) ∧
      Act.Ends release a₁ w₁ fun _ a' w' =>
        a'.released = true ∧
        (a₁.released = true → a' = a₁ ∧ w' = w₁) ∧
        ∃ cause, Settled a w cause a'.session w' ∧
          (cause.isSome = true ↔ Fails first results items) := by
  intro a first results
  have hSet : a.set = first := by
    change (o.sets[0]?).getD .empty = o.sets.headD .empty
    cases o.sets <;> rfl
  constructor
  · intro i row hRow
    have hSome : a.cursor.next < a.set.rows.length := by
      rw [hSet]
      exact Nat.zero_lt_of_lt (List.getElem?_eq_some_iff.mp hRow).1
    have hFirst : a.cursor.set? = some first :=
      hSet ▸ set?_of_row hSome
    have hThis : (a.atPlace i).cursor.set? = some first := hFirst
    simp only [Cursor.columns, Cursor.row?, hThis]
    exact ⟨rfl, hRow⟩
  · refine (pullMany_enumerates w map n (a := a) rfl rfl).mono ?_
    rintro items a₁ w₁ ⟨hItems, h⟩
    rw [hSet] at hItems h
    have hDropped := h.release
    rw [hSet] at hDropped
    refine ⟨hItems, ?_, ?_, hDropped⟩
    · cases h with
      | ended cause hOver hReleased => simp [hOver, hReleased]
      | going hGoing hHeld => simp [hGoing, hHeld]
    · intro hHeld
      cases h with
      | ended cause hOver hReleased =>
          rw [hReleased] at hHeld
          cases hHeld
      | going hGoing _ hSession => exact ⟨hSession, rfl⟩

end Reader

end Failover
