import Failover.Proofs.Operation.Spend
import Failover.Proofs.Outcome.Stream
import Failover.Proofs.Reader.Cursor

/-
  How a reader goes on when a failure has shown.  One that the
  next set is refused with is the end of all data.  One that
  is met behind the rows of a set is the end of this set only,
  and the sets behind it can still be reached.

  Key definitions include:
    * `Cursor.IsReadOut`, `Cursor.IsDone`
    * `Cursor.after`, `Cursor.answers`
    * `Cursor.FailsLate`
    * `Reader.play`
    * `Reader.Exhausted`, `Reader.EndsAtFailure`

  Main statements:
    * `Cursor.IsDone.answers`
    * `Cursor.FailsLate.isDone_after`
    * `Cursor.exists_stalls`
    * `Reader.endsAtFailure_iff`
-/

namespace Failover

namespace Cursor

open Reader (Move)

variable {c : Cursor} {s : ResultSet} {f : Failure}

------------------------------------------------------------
-- Sets without anything left
------------------------------------------------------------

/- The set has neither a row left nor a failure. -/
structure IsReadOutOf
    (c : Cursor)
    (s : ResultSet) : Prop where
  set : c.set? = some s
  failure : s.failure = none
  rows : s.rows.length ≤ c.next

def IsReadOut (c : Cursor) : Prop :=
  ∃ s, c.IsReadOutOf s

/-
  The set at the cursor is read out and no other set is behind
  it, or the cursor is behind the last set.
-/
def IsDone (c : Cursor) : Prop :=
  ∀ s, c.set? = some s →
    c.IsReadOutOf s ∧ c.sets.length ≤ c.set + 1

/- Behind the last set a cursor is done. -/
theorem isDone_of_set?_none
    (h : c.set? = none) : c.IsDone := by
  intro s hSet
  rw [h] at hSet
  cases hSet

/- A cursor that has read out the last set is done. -/
theorem IsReadOut.isDone
    (h : c.IsReadOut)
    (hLast : c.sets.length ≤ c.set + 1) : c.IsDone := by
  rcases h with ⟨s, hOut⟩
  intro t hSet
  rw [hOut.set] at hSet
  cases hSet
  exact ⟨hOut, hLast⟩

/- A set that is read out has no more rows. -/
theorem IsReadOutOf.read
    (h : c.IsReadOutOf s) :
    c.read = ⟨false, none, { c with place := some s.rows.length }⟩ := by
  rw [read_end h.set (Nat.not_lt.mpr h.rows), h.failure, atEnd,
    h.failure]

/- The next set is there, or none is. -/
theorem IsReadOutOf.nextResult
    (h : c.IsReadOutOf s) :
    c.nextResult =
      ⟨decide (c.set + 1 < c.sets.length), none,
        { c with set := c.set + 1, place := none }⟩ := by
  unfold Cursor.nextResult
  rw [h.set]
  simp only [h.failure]

/- A set that is read out stays so when reading goes on. -/
theorem IsReadOutOf.read_again
    (h : c.IsReadOutOf s) : c.read.cursor.IsReadOutOf s := by
  rw [h.read]
  exact ⟨h.set, h.failure, Nat.le_succ _⟩

/-
  A cursor that is done finds nothing by any move and stays
  done.
-/
theorem IsDone.move
    (h : c.IsDone)
    (m : Move) :
    (m.how c).hasMore = false ∧ (m.how c).shown = none ∧
      (m.how c).cursor.IsDone := by
  cases hSet : c.set? with
  | none =>
      cases m with
      | read =>
          rw [Move.how, read_none hSet]
          exact ⟨rfl, rfl, h⟩
      | nextResult =>
          rw [Move.how, nextResult_none hSet]
          exact ⟨rfl, rfl, h⟩
  | some s =>
      rcases h s hSet with ⟨hOut, hLast⟩
      cases m with
      | read =>
          have hStill := hOut.read_again
          rw [Move.how]
          rw [hOut.read] at hStill ⊢
          exact ⟨rfl, rfl, IsReadOut.isDone ⟨s, hStill⟩ hLast⟩
      | nextResult =>
          rw [Move.how, hOut.nextResult]
          refine ⟨decide_eq_false (Nat.not_lt.mpr hLast), rfl, ?_⟩
          exact isDone_of_set?_none
            (List.getElem?_eq_none hLast)

------------------------------------------------------------
-- Several moves
------------------------------------------------------------

/- The cursor after some moves. -/
def after (ms : List Move) (c : Cursor) : Cursor :=
  ms.foldl (fun c m => (m.how c).cursor) c

/- What each of some moves finds. -/
def answers : List Move → Cursor → List Bool
  | [], _ => []
  | m :: ms, c =>
      (m.how c).hasMore :: answers ms (m.how c).cursor

theorem after_cons
    (m : Move)
    (ms : List Move)
    (c : Cursor) :
    after (m :: ms) c = after ms (m.how c).cursor := rfl

/- Moves follow one another. -/
theorem after_append
    (ms ns : List Move)
    (c : Cursor) :
    after (ms ++ ns) c = after ns (after ms c) :=
  List.foldl_append

/- A cursor that is done says so to every move. -/
theorem IsDone.answers
    (h : c.IsDone)
    (ms : List Move) : ∀ more ∈ answers ms c, more = false := by
  induction ms generalizing c with
  | nil => exact fun more hMem => absurd hMem List.not_mem_nil
  | cons m ms ih =>
      rcases h.move m with ⟨hMore, -, hDone⟩
      exact List.forall_mem_cons.mpr ⟨hMore, ih hDone⟩

/-
  Reading on in a set that is read out finds nothing, however
  often.
-/
theorem IsReadOutOf.reads
    (h : c.IsReadOutOf s)
    (n : Nat) :
    (∀ more ∈ Cursor.answers (List.replicate n .read) c,
        more = false) ∧
      (after (List.replicate n .read) c).IsReadOutOf s ∧
      (after (List.replicate n .read) c).set = c.set ∧
      (after (List.replicate n .read) c).sets = c.sets := by
  induction n generalizing c with
  | zero =>
      exact ⟨fun more hMem => absurd hMem List.not_mem_nil, h,
        rfl, rfl⟩
  | succ n ih =>
      have hAgain := h.read_again
      have hRead := h.read
      rcases ih hAgain with ⟨hNone, hOut, hSet, hSets⟩
      refine ⟨List.forall_mem_cons.mpr ⟨?_, hNone⟩, hOut, ?_, ?_⟩
      · exact congrArg Moved.hasMore hRead
      · exact hSet.trans (congrArg (·.cursor.set) hRead)
      · exact hSets.trans (congrArg (·.cursor.sets) hRead)

/-
  A move changes the sets only by taking a failure from the
  set at the cursor.
-/
theorem sets_move
    (m : Move)
    (c : Cursor) :
    (m.how c).cursor.sets = c.sets ∨
      ∃ s : ResultSet, (m.how c).cursor.sets =
        c.sets.set c.set { s with failure := none } := by
  cases hSet : c.set? with
  | none =>
      cases m with
      | read => exact .inl (by rw [Move.how, read_none hSet])
      | nextResult =>
          exact .inl (by rw [Move.how, nextResult_none hSet])
  | some s =>
      cases m with
      | read =>
          rw [Move.how]
          by_cases hRow : c.next < s.rows.length
          · exact .inl (by rw [read_row hSet hRow])
          · rw [read_end hSet hRow, atEnd]
            cases s.failure with
            | none => exact .inl rfl
            | some f => exact .inr ⟨s, rfl⟩
      | nextResult =>
          rw [Move.how, nextResult, hSet]
          simp only
          cases s.failure with
          | none => exact .inl rfl
          | some f => exact .inr ⟨s, rfl⟩

/- Moves leave the number of sets as it is. -/
theorem length_after
    (ms : List Move)
    (c : Cursor) : (after ms c).sets.length = c.sets.length := by
  induction ms generalizing c with
  | nil => rfl
  | cons m ms ih =>
      rw [after_cons, ih]
      rcases sets_move m c with hSame | ⟨s, hSet⟩
      · rw [hSame]
      · rw [hSet, List.length_set]

------------------------------------------------------------
-- Failures that show
------------------------------------------------------------

/- A failure that shows stays, unless one has shown before. -/
theorem failure_move
    (m : Move)
    (c : Cursor) :
    (m.how c).cursor.failure =
      (c.failure <|> (m.how c).shown) := by
  cases m with
  | read => exact failure_read c
  | nextResult => exact failure_nextResult c

/- A failure has shown behind the rows of the set. -/
structure Stalls (c c' : Cursor) : Prop where
  failure : c'.failure.isSome = true
  readOut : c'.IsReadOut
  set : c'.set = c.set
  length : c'.sets.length = c.sets.length

/- A failure that shows in reading stalls the cursor. -/
theorem stalls_of_shown
    (hShown : c.read.shown = some f) :
    c.Stalls c.read.cursor ∧
      ∃ s, c.set? = some s ∧ s.failure = some f := by
  have hSome : c.read.cursor.failure.isSome = true := by
    rw [failure_read, hShown]
    cases c.failure <;> rfl
  cases hSet : c.set? with
  | none =>
      rw [read_none hSet] at hShown
      cases hShown
  | some s =>
      by_cases hRow : c.next < s.rows.length
      · rw [read_row hSet hRow] at hShown
        cases hShown
      · rw [read_end hSet hRow] at hShown hSome ⊢
        have hFailure : s.failure = some f := hShown
        refine ⟨⟨hSome, ⟨_, set?_atEnd hSet, rfl, ?_⟩, ?_,
          length_atEnd c⟩, s, rfl, hFailure⟩
        · unfold atEnd
          rw [hFailure]
          exact Nat.le_succ _
        · unfold atEnd
          rw [hFailure]
          rfl

/- A failure instead of the next set leaves no set at all. -/
theorem isDone_of_shown
    (hShown : c.nextResult.shown = some f) :
    c.nextResult.cursor.IsDone := by
  unfold nextResult at hShown ⊢
  split at hShown
  · cases hShown
  · next s hSet =>
    split at hShown
    · refine isDone_of_set?_none (List.getElem?_eq_none ?_)
      exact Nat.le_of_eq List.length_set
    · cases hShown

------------------------------------------------------------
-- Failures of the last set
------------------------------------------------------------

/- No set fails that has another one behind it. -/
def FailsLate (sets : List ResultSet) : Prop :=
  ∀ i s, sets[i]? = some s → i + 1 < sets.length →
    s.failure = none

/- Failing late means that no set but the last one fails. -/
theorem failsLate_iff
    (sets : List ResultSet) :
    FailsLate sets ↔ ∀ s ∈ sets.dropLast, s.failure = none := by
  constructor
  · intro h s hMem
    rcases List.mem_iff_getElem?.mp hMem with ⟨i, hAt⟩
    rw [List.getElem?_dropLast] at hAt
    split at hAt
    · next hBefore => exact h i s hAt (by omega)
    · cases hAt
  · intro h i s hAt hBefore
    refine h s (List.mem_iff_getElem?.mpr ⟨i, ?_⟩)
    rw [List.getElem?_dropLast, if_pos (by omega), hAt]

/- Sets fail no earlier when a failure has shown. -/
theorem FailsLate.set_none
    {sets : List ResultSet}
    (h : FailsLate sets)
    (i : Nat) :
    FailsLate (sets.set i { s with failure := none }) := by
  intro j t hAt hBefore
  rw [List.length_set] at hBefore
  rw [List.getElem?_set] at hAt
  split at hAt
  · split at hAt
    · cases hAt
      rfl
    · cases hAt
  · exact h j t hAt hBefore

/- Moves keep that so. -/
theorem FailsLate.move
    (h : FailsLate c.sets)
    (m : Move) : FailsLate (m.how c).cursor.sets := by
  rcases sets_move m c with hSame | ⟨s, hSet⟩
  · rwa [hSame]
  · rw [hSet]
    exact h.set_none c.set

/-
  If only the last set fails, a cursor with a failure is done
  after any move.
-/
theorem FailsLate.isDone_move
    (h : FailsLate c.sets)
    (hDone : c.failure.isSome = true → c.IsDone)
    (m : Move)
    (hSome : (m.how c).cursor.failure.isSome = true) :
    (m.how c).cursor.IsDone := by
  cases hBefore : c.failure with
  | some f =>
      rw [hBefore] at hDone
      exact ((hDone rfl).move m).2.2
  | none =>
      have hShows : (m.how c).shown.isSome = true := by
        simpa [failure_move, hBefore] using hSome
      obtain ⟨f, hShown⟩ := Option.isSome_iff_exists.mp hShows
      cases m with
      | nextResult => exact isDone_of_shown hShown
      | read =>
          rcases stalls_of_shown hShown with
            ⟨hStalls, s, hSet, hFailure⟩
          refine hStalls.readOut.isDone ?_
          rw [hStalls.set, hStalls.length]
          by_contra hMore
          have hNone := h c.set s hSet (by omega)
          rw [hNone] at hFailure
          cases hFailure

/-
  If only the last set fails, a cursor that met a failure by
  some moves is done.
-/
theorem FailsLate.isDone_after
    (h : FailsLate c.sets)
    (hDone : c.failure.isSome = true → c.IsDone)
    (ms : List Move)
    (hSome : (after ms c).failure.isSome = true) :
    (after ms c).IsDone := by
  induction ms generalizing c with
  | nil => exact hDone hSome
  | cons m ms ih =>
      exact ih (h.move m) (h.isDone_move hDone m) hSome

------------------------------------------------------------
-- Failures before the last set
------------------------------------------------------------

/- Sets without failures are left without being read. -/
theorem after_nextResults
    {sets : List ResultSet}
    (i : Nat)
    (hLength : i ≤ sets.length)
    (hWhole : ∀ j s, j < i → sets[j]? = some s →
      s.failure = none) :
    after (List.replicate i .nextResult) (ofSets sets) =
      { ofSets sets with set := i } := by
  induction i with
  | zero => rfl
  | succ i ih =>
      rw [List.replicate_succ', after_append, ih (by omega)
        fun j s hJ => hWhole j s (by omega)]
      have hSet := List.getElem?_eq_getElem (l := sets) hLength
      have hNone := hWhole i _ (Nat.lt_succ_self i) hSet
      change (nextResult _).cursor = _
      unfold nextResult
      rw [show set? { ofSets sets with set := i } = _ from hSet]
      simp only [hNone]
      rfl

/- A set that fails can be read until its failure shows. -/
theorem exists_stalls
    (hSet : c.set? = some s)
    (hFailure : s.failure = some f) :
    ∃ n, c.Stalls (after (List.replicate n .read) c) := by
  induction hLeft : c.left using Nat.strongRecOn
    generalizing c with
  | _ n ih =>
  subst hLeft
  by_cases hRow : c.next < s.rows.length
  · have hRead := read_row hSet hRow
    have hLess : c.read.cursor.left < c.left :=
      left_read (congrArg Moved.hasMore hRead)
    have hSame : c.read.cursor.set? = some s := by
      rw [hRead]
      exact hSet
    rcases ih _ hLess hSame rfl with ⟨n, hStalls⟩
    refine ⟨n + 1, ?_⟩
    rw [List.replicate_succ, after_cons, Move.how]
    rw [hRead] at hStalls ⊢
    exact ⟨hStalls.failure, hStalls.readOut, hStalls.set,
      hStalls.length⟩
  · have hShown : c.read.shown = some f := by
      rw [read_end hSet hRow]
      exact hFailure
    exact ⟨1, (stalls_of_shown hShown).1⟩

/-
  If moves never find anything once a failure has shown, no
  set fails that has another one behind it.
-/
theorem failsLate_of_law
    {sets : List ResultSet}
    (hLaw : ∀ before,
      (after before (ofSets sets)).failure.isSome = true →
        ((after before (ofSets sets)).nextResult).hasMore =
          false) :
    FailsLate sets := by
  intro i s hAt hBehind
  induction i using Nat.strongRecOn generalizing s with
  | _ i ih =>
  by_contra hFails
  obtain ⟨f, hFailure⟩ := Option.ne_none_iff_exists'.mp hFails
  have hSkipped := after_nextResults i (by omega)
    fun j t hJ hThere => ih j hJ t hThere (by omega)
  rcases exists_stalls
      (c := { ofSets sets with set := i }) hAt hFailure with
    ⟨n, hStalls⟩
  have hRun := after_append (List.replicate i .nextResult)
    (List.replicate n .read) (ofSets sets)
  rw [hSkipped] at hRun
  have hNone := hLaw _ (by rw [hRun]; exact hStalls.failure)
  rw [hRun] at hNone
  rcases hStalls.readOut with ⟨t, hOut⟩
  rw [hOut.nextResult, hStalls.set, hStalls.length] at hNone
  exact of_decide_eq_false hNone hBehind

end Cursor

------------------------------------------------------------
-- Readers
------------------------------------------------------------

namespace Reader

/- Some moves, with what each of them finds. -/
def play (ms : List Move) : Act (List Bool) :=
  ms.mapM Move.act

/- Whatever moves follow, none of them finds anything. -/
def Exhausted
    (a : Reader)
    (w : World) : Prop :=
  ∀ ms, Act.Ends (play ms) a w fun found _ _ =>
    ∀ more ∈ found, more = false

/-
  However often it is read on, no row is found, and then there
  is a next set or not.
-/
def StopsBefore
    (a : Reader)
    (w : World)
    (next : Bool) : Prop :=
  ∀ n, Act.Ends (play (List.replicate n .read)) a w
    fun found a' w' =>
      (∀ more ∈ found, more = false) ∧
        Act.Ends nextResult a' w' fun more _ _ => more = next

/- Once a failure has shown, nothing is found any more. -/
def EndsAtFailure
    (a : Reader)
    (w : World) : Prop :=
  ∀ ms, Act.Ends (play ms) a w fun _ a' w' =>
    a'.cursor.failure.isSome = true → a'.Exhausted w'

section
variable {a : Reader} (w : World)

/- The moves of a reader are those of its cursor. -/
theorem play_ends
    (ms : List Move)
    (hHeld : a.released = false) :
    Act.Ends (play ms) a w fun found a' _ =>
      found = Cursor.answers ms a.cursor ∧
        a' = { a with cursor := Cursor.after ms a.cursor } := by
  induction ms generalizing a w with
  | nil => exact ⟨rfl, rfl⟩
  | cons m ms ih =>
      unfold play
      rw [List.mapM_cons, Act.ends_bind]
      refine (act_unreleased w m hHeld).mono ?_
      rintro more _ w₁ ⟨rfl, rfl, -⟩
      rw [Act.ends_bind]
      refine (ih w₁ (a := { a with
        cursor := (m.how a.cursor).cursor }) hHeld).mono ?_
      rintro found _ w' ⟨rfl, rfl⟩
      exact ⟨rfl, rfl⟩

/- A reader whose cursor is done is exhausted. -/
theorem exhausted_of_isDone
    (hHeld : a.released = false)
    (hDone : a.cursor.IsDone) : a.Exhausted w := by
  intro ms
  refine (play_ends w ms hHeld).mono ?_
  rintro found _ w' ⟨rfl, -⟩
  exact hDone.answers ms

/- A set that has been read out is left for the next one. -/
theorem stopsBefore_of_isReadOut
    (hHeld : a.released = false)
    (hOut : a.cursor.IsReadOut) :
    a.StopsBefore w
      (decide (a.cursor.set + 1 < a.cursor.sets.length)) := by
  rcases hOut with ⟨s, hOut⟩
  intro n
  refine (play_ends w _ hHeld).mono ?_
  rintro found _ w₁ ⟨rfl, rfl⟩
  rcases hOut.reads n with ⟨hNone, hStill, hSet, hSets⟩
  refine ⟨hNone, (act_unreleased w₁ .nextResult (a := { a with
    cursor := Cursor.after (List.replicate n .read) a.cursor })
    hHeld).mono ?_⟩
  rintro more _ w' ⟨rfl, -, -⟩
  change (Cursor.nextResult _).hasMore = _
  rw [hStill.nextResult, hSet, hSets]

/-
  A reader stops at its failure exactly if no set but the last
  one fails.
-/
theorem endsAtFailure_iff_failsLate
    {sets : List ResultSet}
    (hHeld : a.released = false)
    (hFresh : a.cursor = .ofSets sets) :
    a.EndsAtFailure w ↔ Cursor.FailsLate sets := by
  constructor
  · intro hEnds
    refine Cursor.failsLate_of_law fun before hSome => ?_
    rw [← hFresh] at hSome ⊢
    -- The law is about whatever leads to the failure.
    rcases Act.exists_leads a w (play before) with
      ⟨found, a₁, w₁, hPlayed⟩
    rcases (hPlayed.ends_iff _).mp (play_ends w before hHeld) with
      ⟨-, rfl⟩
    have hNone := (hPlayed.ends_iff _).mp (hEnds before) hSome
    rcases Act.exists_leads { a with
        cursor := Cursor.after before a.cursor } w₁
        (play [.nextResult]) with ⟨found', a', w', hNext⟩
    have hFound := (hNext.ends_iff _).mp
      (play_ends w₁ [.nextResult] hHeld)
    have hNothing := (hNext.ends_iff _).mp (hNone [.nextResult])
    rw [hFound.1] at hNothing
    exact hNothing _ List.mem_cons_self
  · intro hLate ms
    refine (play_ends w ms hHeld).mono ?_
    rintro found _ w' ⟨-, rfl⟩ hSome
    refine exhausted_of_isDone w' hHeld ?_
    refine Cursor.FailsLate.isDone_after ?_ ?_ ms hSome
    · rwa [hFresh]
    · rw [hFresh]
      exact nofun

end

/- A stream fails at its end if at all. -/
theorem failsLate_ofStream
    {items : List StreamItem}
    {o : Outcome}
    (h : Outcome.ofStream items = .ok o) :
    Cursor.FailsLate o.sets := by
  have hWhole (gs : List (List StreamRow)) :
      ∀ s ∈ ResultSet.ofGroups gs, s.failure = none := by
    intro s hMem
    rcases List.mem_map.mp hMem with ⟨g, -, rfl⟩
    rfl
  rw [Cursor.failsLate_iff]
  rcases Outcome.ofStream_cases h with ⟨-, rfl⟩ | ⟨f, -, rfl⟩
  · exact fun s hMem => hWhole _ s (List.dropLast_subset _ hMem)
  · obtain ⟨init, g, hSplit⟩ := (List.eq_nil_or_concat
      (StreamItem.statements items)).resolve_left
        (StreamItem.statements_ne_nil items)
    rw [hSplit, List.concat_eq_append, ResultSet.ofBroken]
    simpa using hWhole init

/-
  The data of a reader end where a failure shows exactly if no
  set fails that has another one behind it, which is so for
  whatever a stream brings.  A failure that shows instead of
  the next set ends them in any case.  One that shows behind
  the rows of a set leaves the sets behind it.
-/
theorem endsAtFailure_iff
    (s : Session)
    (context : Operation.Context)
    (o : Outcome)
    (w : World) :
    ((s.reader context o).EndsAtFailure w ↔
      ∀ r ∈ o.sets.dropLast, r.failure = none) ∧
    (∀ items, Outcome.ofStream items = .ok o →
      (s.reader context o).EndsAtFailure w) ∧
    ∀ ms, Act.Ends (play ms) (s.reader context o) w
      fun _ a w₁ => a.cursor.failure = none →
        (Act.Ends nextResult a w₁ fun _ a' w' =>
          a'.cursor.failure.isSome = true → a'.Exhausted w') ∧
        Act.Ends read a w₁ fun _ a' w' =>
          a'.cursor.failure.isSome = true →
            a'.StopsBefore w'
              (decide (a'.cursor.set + 1 < o.sets.length)) := by
  have hLaw := endsAtFailure_iff_failsLate w
    (a := s.reader context o) rfl rfl
  refine ⟨hLaw.trans (Cursor.failsLate_iff _), ?_, ?_⟩
  · exact fun items hOk => hLaw.mpr (failsLate_ofStream hOk)
  · intro ms
    refine (play_ends w ms (a := s.reader context o) rfl).mono ?_
    rintro found _ w₁ ⟨-, rfl⟩ hNone
    let a := { s.reader context o with
      cursor := Cursor.after ms (.ofSets o.sets) }
    have hShown (m : Move)
        (hSome : (m.how a.cursor).cursor.failure.isSome = true) :
        ∃ f, (m.how a.cursor).shown = some f := by
      have hNone : a.cursor.failure = none := hNone
      rw [Cursor.failure_move, hNone] at hSome
      exact Option.isSome_iff_exists.mp (by simpa using hSome)
    constructor
    · refine (act_unreleased w₁ .nextResult (a := a) rfl).mono ?_
      rintro more _ w' ⟨-, rfl, -⟩ hSome
      obtain ⟨f, hShows⟩ := hShown .nextResult hSome
      exact exhausted_of_isDone w' rfl
        (Cursor.isDone_of_shown hShows)
    · refine (act_unreleased w₁ .read (a := a) rfl).mono ?_
      rintro more _ w' ⟨-, rfl, -⟩ hSome
      obtain ⟨f, hShows⟩ := hShown .read hSome
      have hStalls := (Cursor.stalls_of_shown hShows).1
      have hStops := stopsBefore_of_isReadOut w'
        (a := { a with cursor := a.cursor.read.cursor }) rfl
        hStalls.readOut
      have hLength : a.cursor.read.cursor.sets.length =
          o.sets.length :=
        hStalls.length.trans (Cursor.length_after ms _)
      change StopsBefore _ w' (decide (_ <
        a.cursor.read.cursor.sets.length)) at hStops
      rwa [hLength] at hStops

/- Orders that break off, and their total behind them. -/
def brokenOrders : Outcome where
  sets :=
    [⟨[⟨"id", "BIGINT"⟩], [[.int 1]],
      some (.execution "a" "connection reset" none false)⟩,
      ⟨[⟨"total", "BIGINT"⟩], [[.int 2]], none⟩]
  rowsAffected := 0
  outputs := .empty

/- The total is read after the failure of the orders. -/
theorem total_is_read_after_failure :
    ¬ ∀ (s : Session) (context : Operation.Context)
      (o : Outcome) (w : World),
      (s.reader context o).EndsAtFailure w := by
  intro h
  let s : Session :=
    { id := 0
      repository := ⟨"a", "mock", true, 0,
        .verbatim "MOCK" "mock://a" false⟩
      defaultTimeout := 30
      command := none
      bound := none
      link := .closed
      inTransaction := false
      disposed := false }
  let context : Operation.Context := ⟨false, false, 0, "SELECT 1"⟩
  let w := World.initial fun _ => .willing
  -- The next set is found after the failure, and so is its row.
  have hFalse : ∀ more ∈ [true, true], more = false :=
    h s context brokenOrders w [.read, .read] rfl
      [.nextResult, .read]
  exact absurd (hFalse true List.mem_cons_self) (by decide)

end Reader

end Failover
