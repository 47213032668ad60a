import Failover.Proofs.Operation.Spend
import Failover.Proofs.Outcome.Stream
import Failover.Proofs.Reader.Cursor

/-
  All rows of a reader, read set by set to the end.  A reader
  of the outcome of a stream shows all that was delivered: the
  rows of each statement, and the failure at the end.

  Key definitions include:
    * `Reader.drain`, `Reader.walk`
    * `StreamItem.rounds`

  Main statements:
    * `Reader.drain_eq`, `Reader.walk_eq`
    * `Reader.walk_ends`
    * `Outcome.ofStream_walked`
-/

namespace Failover

------------------------------------------------------------
-- Walks
------------------------------------------------------------

/- What is seen at a row: the columns of its set, and itself. -/
abbrev Visit := List Column × Option (List Value)

namespace Reader

/- What is seen at the place of the reader. -/
def visit (a : Reader) : Visit :=
  (a.cursor.columns, a.cursor.row?)

/- A reader that was released does not move. -/
theorem act_released
    {a : Reader}
    (w : World)
    (m : Move)
    (hReleased : a.released = true) :
    Act.Ends m.act a w fun more a' _ =>
      more = false ∧ a' = a := by
  have hMove (complaint : String) (how : Cursor → Cursor.Moved) :
      Act.Ends (move complaint how) a w
        fun more a' _ => more = false ∧ a' = a := by
    unfold move
    rw [Act.ends_bind, Act.ends_get, if_pos hReleased]
    exact ⟨rfl, rfl⟩
  cases m with
  | read => exact hMove _ _
  | nextResult => exact hMove _ _

/- How any reader moves, released or not. -/
theorem act_moves
    (a : Reader)
    (w : World)
    (m : Move) :
    Act.Ends m.act a w fun more a' _ =>
      more = false ∧ a' = a ∨
        more = (m.how a.cursor).hasMore ∧
          a'.cursor = (m.how a.cursor).cursor := by
  cases hReleased : a.released with
  | true =>
      refine (act_released w m hReleased).mono ?_
      exact fun _ _ _ hStays => .inl hStays
  | false =>
      refine (act_unreleased w m hReleased).mono ?_
      rintro more _ _ ⟨hMore, rfl, -⟩
      exact .inr ⟨hMore, rfl⟩

theorem read_left
    {a a' : Reader}
    {w w' : World}
    (h : Act.Leads read a w true a' w') :
    a'.cursor.left < a.cursor.left := by
  rcases (h.ends_iff _).mp (act_moves a w .read) with
    ⟨hFalse, -⟩ | ⟨hMore, hCursor⟩
  · cases hFalse
  · rw [hCursor]
    exact Cursor.left_read hMore.symm

/- The rows of the set that are left, one after the other. -/
def drainFrom
    (a : Reader)
    (w : World) : (List Visit × Reader) × World :=
  match h : (read.run a).run w with
  | ((false, a'), w') => (([], a'), w')
  | ((true, a'), w') =>
      have := read_left h
      let ((vs, a''), w'') := drainFrom a' w'
      ((a'.visit :: vs, a''), w'')
termination_by a.cursor.left

def drain : Act (List Visit) := drainFrom

/- The rows of a set are the next one and the rows behind it. -/
theorem drain_eq :
    drain = (do
      if ← read then
        let v := (← get).visit
        return v :: (← drain)
      else return []) := by
  funext a w
  change drainFrom a w = _
  rw [drainFrom]
  split
  · next a' w' h =>
    have hRead : Act.Leads read a w false a' w' := h
    refine (Act.Leads.bind hRead ?_).symm
    rfl
  · next a' w' h =>
    have hRead : Act.Leads read a w true a' w' := h
    refine (Act.Leads.bind hRead ?_).symm
    rfl

/- The sets are the same when their rows have been read. -/
theorem ahead_drain
    (a : Reader)
    (w : World) :
    Act.Ends drain a w fun _ a' _ =>
      a'.cursor.ahead = a.cursor.ahead := by
  induction hLeft : a.cursor.left using Nat.strongRecOn
    generalizing a w with
  | _ n ih =>
  subst hLeft
  rcases Act.exists_leads a w read with ⟨more, a₁, w₁, hRead⟩
  have hAhead : a₁.cursor.ahead = a.cursor.ahead := by
    rcases (hRead.ends_iff _).mp (act_moves a w .read) with
      ⟨-, rfl⟩ | ⟨-, hCursor⟩
    · rfl
    · rw [hCursor]
      exact Cursor.ahead_read a.cursor
  rw [drain_eq, Act.ends_bind, hRead.ends_iff]
  cases more with
  | false => exact hAhead
  | true =>
      rw [if_pos rfl, Act.ends_bind, Act.ends_get, Act.ends_bind]
      refine (ih _ (read_left hRead) a₁ w₁ rfl).mono ?_
      exact fun _ a' _ hRest => hRest.trans hAhead

theorem nextResult_ahead
    {a a₁ a₂ : Reader}
    {vs : List Visit}
    {w w₁ w₂ : World}
    (hDrain : Act.Leads drain a w vs a₁ w₁)
    (hNext : Act.Leads nextResult a₁ w₁ true a₂ w₂) :
    a₂.cursor.ahead < a.cursor.ahead := by
  have hSame := (hDrain.ends_iff _).mp (ahead_drain a w)
  rcases (hNext.ends_iff _).mp (act_moves a₁ w₁ .nextResult) with
    ⟨hFalse, -⟩ | ⟨hMore, hCursor⟩
  · cases hFalse
  · rw [hCursor, ← hSame]
    exact Cursor.ahead_nextResult hMore.symm

/- The rows of all sets that are ahead, set by set. -/
def walkFrom
    (a : Reader)
    (w : World) : (List (List Visit) × Reader) × World :=
  match hDrain : (drain.run a).run w with
  | ((vs, a₁), w₁) =>
      match hNext : (nextResult.run a₁).run w₁ with
      | ((false, a₂), w₂) => (([vs], a₂), w₂)
      | ((true, a₂), w₂) =>
          have := nextResult_ahead hDrain hNext
          let ((vss, a₃), w₃) := walkFrom a₂ w₂
          ((vs :: vss, a₃), w₃)
termination_by a.cursor.ahead

def walk : Act (List (List Visit)) := walkFrom

/- The sets are what is left of this one and those behind it. -/
theorem walk_eq :
    walk = (do
      let vs ← drain
      if ← nextResult then return vs :: (← walk)
      else return [vs]) := by
  funext a w
  change walkFrom a w = _
  rw [walkFrom]
  split
  next vs a₁ w₁ hDrain =>
  have hFirst : Act.Leads drain a w vs a₁ w₁ := hDrain
  split
  · next a₂ w₂ hNext =>
    have hLast : Act.Leads nextResult a₁ w₁ false a₂ w₂ := hNext
    refine (Act.Leads.bind hFirst (Act.Leads.bind hLast ?_)).symm
    rfl
  · next a₂ w₂ hNext =>
    have hMore : Act.Leads nextResult a₁ w₁ true a₂ w₂ := hNext
    refine (Act.Leads.bind hFirst (Act.Leads.bind hMore ?_)).symm
    rfl

------------------------------------------------------------
-- What is seen
------------------------------------------------------------

/- What there is to see of a set. -/
def seen (s : ResultSet) : List Visit :=
  s.rows.map fun row => (s.columns, some row)

variable {a : Reader} (w : World)

/- The rows behind the last one that was read are seen. -/
theorem drain_ends
    {s : ResultSet}
    (hHeld : a.released = false)
    (hSet : a.cursor.set? = some s) :
    Act.Ends drain a w fun vs a' w' =>
      vs = (seen s).drop a.cursor.next ∧
        a' = { a with cursor := a.cursor.atEnd s } ∧
        w.Unrecorded w' := by
  induction hLeft : a.cursor.left using Nat.strongRecOn
    generalizing a w with
  | _ n ih =>
  subst hLeft
  rcases Act.exists_leads a w read with ⟨more, a₁, w₁, hRead⟩
  have hMoved := (hRead.ends_iff _).mp
    (act_unreleased w .read hHeld)
  change more = a.cursor.read.hasMore ∧
    a₁ = { a with cursor := a.cursor.read.cursor } ∧ _ at hMoved
  rw [drain_eq, Act.ends_bind, hRead.ends_iff]
  by_cases hRow : a.cursor.next < s.rows.length
  · rw [Cursor.read_row hSet hRow] at hMoved
    rcases hMoved with ⟨rfl, rfl, hFirst⟩
    let a₁ := { a with
      cursor := { a.cursor with place := some a.cursor.next } }
    have hThis : a₁.visit =
        (s.columns, some s.rows[a.cursor.next]) := by
      have hSame : a₁.cursor.set? = some s := hSet
      simp only [visit, Cursor.columns, Cursor.row?, hSame]
      simp [a₁, hRow]
    rw [if_pos rfl, Act.ends_bind, Act.ends_get, Act.ends_bind]
    refine (ih _ (read_left hRead) (a := a₁) w₁ hHeld hSet
      rfl).mono ?_
    rintro vs a' w' ⟨rfl, hRest, hLast⟩
    refine ⟨?_, hRest, hFirst.trans hLast⟩
    have hSeen : a.cursor.next < (seen s).length := by
      simpa [seen] using hRow
    change a₁.visit :: (seen s).drop (a.cursor.next + 1) = _
    rw [List.drop_eq_getElem_cons hSeen, hThis]
    simp [seen]
  · rw [Cursor.read_end hSet hRow] at hMoved
    rcases hMoved with ⟨rfl, rfl, hFirst⟩
    have hNone : (seen s).drop a.cursor.next = [] := by
      simpa [seen] using hRow
    exact ⟨hNone.symm, rfl, hFirst⟩

/- A reader behind the last set sees no row. -/
theorem drain_none
    (hHeld : a.released = false)
    (hSet : a.cursor.set? = none) :
    Act.Ends drain a w fun vs a' w' =>
      vs = [] ∧ a' = a ∧ w.Unrecorded w' := by
  rw [drain_eq, Act.ends_bind]
  refine (act_unreleased w .read hHeld).mono ?_
  intro more a₁ w₁ hMoved
  change more = a.cursor.read.hasMore ∧
    a₁ = { a with cursor := a.cursor.read.cursor } ∧ _ at hMoved
  rw [Cursor.read_none hSet] at hMoved
  rcases hMoved with ⟨rfl, rfl, hFirst⟩
  exact ⟨rfl, rfl, hFirst⟩

/- A set is read to its end and left for the next one. -/
theorem leave_ends
    {s : ResultSet}
    (hHeld : a.released = false)
    (hPlace : a.cursor.place = none)
    (hSet : a.cursor.set? = some s) :
    Act.Ends drain a w fun vs a₁ w₁ =>
      Act.Ends nextResult a₁ w₁ fun more a' w' =>
        vs = seen s ∧
          more =
            decide (a.cursor.set + 1 < a.cursor.sets.length) ∧
          a' = { a with cursor := a.cursor.leave s } ∧
          w.Unrecorded w' := by
  have hZero : a.cursor.next = 0 := by
    rw [Cursor.next, hPlace]
  refine (drain_ends w hHeld hSet).mono ?_
  rintro vs _ w₁ ⟨hSeen, rfl, hFirst⟩
  rw [hZero, List.drop_zero] at hSeen
  refine (act_unreleased w₁ .nextResult
    (a := { a with cursor := a.cursor.atEnd s }) hHeld).mono ?_
  intro more a₂ w₂ hMoved
  change more = (a.cursor.atEnd s).nextResult.hasMore ∧
    a₂ = { a with
      cursor := (a.cursor.atEnd s).nextResult.cursor } ∧
    w₁.Unrecorded w₂ at hMoved
  rw [(Cursor.nextResult_atEnd hSet).1,
    (Cursor.nextResult_atEnd hSet).2] at hMoved
  exact ⟨hSeen, hMoved.1, hMoved.2.1, hFirst.trans hMoved.2.2⟩

/-
  A walk from the beginning of a set on sees all rows there
  are, and shows the first failure of all.
-/
theorem walk_ends
    (hHeld : a.released = false)
    (hPlace : a.cursor.place = none) :
    Act.Ends walk a w fun vss a' w' =>
      vss =
        (if a.cursor.sets.drop a.cursor.set = [] then [[]]
         else (a.cursor.sets.drop a.cursor.set).map seen) ∧
      (∃ c, a' = { a with cursor := c } ∧
        c.failure = (a.cursor.failure <|>
          (Outcome.takeFrom
            (a.cursor.sets.drop a.cursor.set)).1)) ∧
      w.Unrecorded w' := by
  induction hAhead : a.cursor.ahead using Nat.strongRecOn
    generalizing a w with
  | _ n ih =>
  subst hAhead
  rw [walk_eq, Act.ends_bind]
  cases hSet : a.cursor.set? with
  | none =>
      have hNone : a.cursor.sets.drop a.cursor.set = [] := by
        simpa [Cursor.set?] using hSet
      refine (drain_none w hHeld hSet).mono ?_
      rintro _ a₁ w₁ ⟨rfl, hSame, hFirst⟩
      rw [hSame, Act.ends_bind]
      refine (act_unreleased w₁ .nextResult hHeld).mono ?_
      intro more a₂ w₂ hMoved
      change more = a.cursor.nextResult.hasMore ∧
        a₂ = { a with cursor := a.cursor.nextResult.cursor } ∧
        w₁.Unrecorded w₂ at hMoved
      rw [Cursor.nextResult_none hSet] at hMoved
      rcases hMoved with ⟨rfl, rfl, hLast⟩
      refine ⟨(if_pos hNone).symm, ⟨a.cursor, rfl, ?_⟩,
        hFirst.trans hLast⟩
      simp [hNone, Outcome.takeFrom]
  | some s =>
      let c := a.cursor.leave s
      have hIndex : a.cursor.set < a.cursor.sets.length :=
        (List.getElem?_eq_some_iff.mp hSet).1
      have hRest : c.sets.drop c.set =
          a.cursor.sets.drop (a.cursor.set + 1) :=
        a.cursor.drop_leave
      have hSets : a.cursor.sets.drop a.cursor.set =
          s :: c.sets.drop c.set := by
        rw [hRest, List.drop_eq_getElem_cons hIndex,
          (List.getElem?_eq_some_iff.mp hSet).2]
      have hFailure :
          (c.failure <|>
              (Outcome.takeFrom (c.sets.drop c.set)).1) =
            (a.cursor.failure <|>
              (Outcome.takeFrom (s :: c.sets.drop c.set)).1) := by
        rw [Cursor.failure_leave, Outcome.takeFrom]
        cases a.cursor.failure <;> cases s.failure <;> rfl
      have hEmpty : c.sets.drop c.set = [] ↔
          ¬ a.cursor.set + 1 < a.cursor.sets.length := by
        rw [hRest, List.drop_eq_nil_iff, Nat.not_lt]
      rw [hSets, if_neg (List.cons_ne_nil _ _), ← hFailure]
      refine (leave_ends w hHeld hPlace hSet).mono ?_
      intro vs a₁ w₁ hNext
      refine hNext.bind ?_
      rintro more _ w₂ ⟨rfl, rfl, rfl, hFirst⟩
      by_cases hLast : a.cursor.set + 1 < a.cursor.sets.length
      · rw [if_pos (decide_eq_true hLast), Act.ends_bind]
        refine (ih _ (Cursor.ahead_leave hSet) w₂
          (a := { a with cursor := c }) hHeld rfl rfl).mono ?_
        rintro vss a₃ w₃ ⟨hSeen, hCursor, hSecond⟩
        rw [if_neg (hEmpty.not.mpr (not_not.mpr hLast))] at hSeen
        subst hSeen
        exact ⟨rfl, hCursor, hFirst.trans hSecond⟩
      · rw [decide_eq_false hLast, hEmpty.mpr hLast]
        exact ⟨rfl, ⟨c, rfl, by simp [Outcome.takeFrom]⟩, hFirst⟩

end Reader

------------------------------------------------------------
-- Streams
------------------------------------------------------------

namespace StreamItem

/- The rows of a statement, with the columns of the first. -/
def seen (g : List StreamRow) : List Visit :=
  g.map fun r => ((g.head?.map (·.1)).getD [], some r.2)

/-
  What a walk through the rows of a stream sees.  There is a
  last round without rows if there are no rows at all, or if
  the stream fails between two statements.
-/
def rounds (items : List StreamItem) : List (List Visit) :=
  (groups items).map seen ++
    if (groups items).isEmpty ||
        (cause? items).isSome &&
          (statements items).getLast?.any (·.isEmpty)
    then [[]] else []

/- Every row of a stream is seen once, in the same order. -/
theorem flatten_rounds (items : List StreamItem) :
    (rounds items).flatten.map (·.2) =
      (rows items).map fun r => some r.2 := by
  have hSeen (gs : List (List StreamRow)) :
      (gs.map seen).flatten.map (·.2) =
        gs.flatten.map fun r => some r.2 := by
    induction gs with
    | nil => rfl
    | cons g gs ih => simp [ih, seen]
  have hLast (p : Prop) [Decidable p] :
      (if p then [([] : List Visit)] else []).flatten = [] := by
    split <;> rfl
  rw [rounds, List.flatten_append, hLast, List.append_nil, hSeen,
    flatten_groups]

end StreamItem

namespace Outcome

variable {items : List StreamItem} {o : Outcome}

theorem seen_ofGroups (gs : List (List StreamRow)) :
    (ResultSet.ofGroups gs).map Reader.seen =
      (gs.filter (!·.isEmpty)).map StreamItem.seen := by
  simp [ResultSet.ofGroups, Reader.seen, StreamItem.seen,
    ResultSet.ofGroup, Function.comp_def]

/- The sets of the outcome of a stream, as they are walked. -/
theorem ofStream_rounds
    (h : ofStream items = .ok o) :
    (if o.sets = [] then [[]] else o.sets.map Reader.seen) =
      StreamItem.rounds items := by
  unfold StreamItem.rounds StreamItem.groups
  rcases ofStream_cases h with ⟨hCause, rfl⟩ | ⟨f, hCause, rfl⟩
  · rw [hCause]
    by_cases hNone :
        (StreamItem.statements items).filter (!·.isEmpty) = []
    · simp [ResultSet.ofGroups, hNone]
    · simp only [seen_ofGroups]
      rw [if_neg (by simpa [ResultSet.ofGroups] using hNone)]
      simp [hNone]
  · have hSome := StreamItem.statements_ne_nil items
    rw [hCause]
    generalize StreamItem.statements items = gs at hSome ⊢
    rcases List.eq_nil_or_concat gs with rfl | ⟨init, g, rfl⟩
    · exact absurd rfl hSome
    · have hSets : ResultSet.ofBroken f (init ++ [g]) =
          ResultSet.ofGroups init ++ [.failing f g] := by
        simp [ResultSet.ofBroken]
      have hLast : Reader.seen (.failing f g) =
          StreamItem.seen g := by
        simp [Reader.seen, StreamItem.seen, ResultSet.failing,
          ResultSet.ofGroup, Function.comp_def]
      rw [List.concat_eq_append, hSets, if_neg (by simp),
        List.map_append, seen_ofGroups, List.map_singleton,
        hLast]
      cases g with
      | nil => simp [StreamItem.seen]
      | cons r g => simp

/-
  Nothing of a stream is lost.  It has no outcome exactly if
  it fails before the first row.  Else its rows are seen once
  and in order by a walk, the counts of its statements add up,
  and its failure is what the release of the reader records
  and what the number of affected rows is refused with.
-/
theorem ofStream_walked (items : List StreamItem) :
    (∀ f, ofStream items = .error f ↔
      StreamItem.cause? items = some f ∧
        StreamItem.rows items = []) ∧
    ∀ o, ofStream items = .ok o →
      (StreamItem.affected items < UInt64.size →
        o.rowsAffected.toNat = StreamItem.affected items) ∧
      (∀ (s : Session) (context : Operation.Context) (w : World),
        Act.Ends Reader.walk (s.reader context o) w
          fun vss a w₁ =>
            vss = StreamItem.rounds items ∧
            vss.flatten.map (·.2) =
              (StreamItem.rows items).map (fun r => some r.2) ∧
            w.Unrecorded w₁ ∧
            Act.Ends Reader.release a w₁ fun _ a' w' =>
              a'.released = true ∧
              w₁.Tells
                [(s.repository.name,
                  (StreamItem.cause? items).isNone)]
                [s.verdict context
                  (StreamItem.cause? items).isNone] w') ∧
      (∀ (s s₁ : Session) (w w₁ : World) (p : Operation),
        Act.Leads (Session.finish p).run s w (.ok (.ok o)) s₁ w₁ →
        Try.Ends (Session.completeNonQuery p) s w fun x _ _ =>
          x = match StreamItem.cause? items with
            | some f => .error f
            | none => .ok o.rowsAffected) := by
  refine ⟨fun f => ofStream_error_iff, fun o hOk => ?_⟩
  have hFailure := ofStream_failure? hOk
  refine ⟨fun hFits => ?_, fun s context w => ?_,
    fun s s₁ w w₁ p hFinish => ?_⟩
  · rw [ofStream_rowsAffected hOk]
    exact UInt64.toNat_ofNat_of_lt' hFits
  · refine (Reader.walk_ends w (a := s.reader context o) rfl
      rfl).mono ?_
    rintro vss _ w₁ ⟨hSeen, ⟨c, rfl, hShown⟩, hWalked⟩
    have hRounds := hSeen.trans (ofStream_rounds hOk)
    refine ⟨hRounds, ?_, hWalked, ?_⟩
    · rw [hRounds, StreamItem.flatten_rounds]
    have hCause : c.failure = StreamItem.cause? items :=
      hShown.trans hFailure
    refine (Reader.release_settles w₁ rfl).mono ?_
    rintro _ a' w' ⟨hReleased, -, hTells⟩
    rw [← hCause]
    exact ⟨hReleased, hTells⟩
  · unfold Session.completeNonQuery
    rw [Try.ends_bind, ← Try.ends_run, hFinish.ends_iff]
    simp only [Try.ends_bind, Try.ends_lift]
    refine (Session.takeWhole_ends w₁ s₁ (.ok o)).mono ?_
    rintro whole s₂ w₂ ⟨rfl, -, -⟩
    refine (Session.settled_tells w₂ p.context _).mono ?_
    rintro x s' w' ⟨rfl, -⟩
    rw [Progress.whole, hFailure]
    cases StreamItem.cause? items with
    | none => rfl
    | some f => rfl

end Outcome

end Failover
