import Failover.Proofs.Operation.Spend
import Failover.Proofs.Reader.Cursor
import Failover.Proofs.Session.Reporting

/-
  A reader reports a failure when it shows, and counts it when
  it is released.  Of a row that cannot be mapped the failure
  is counted and was never reported.

  Key definitions include:
    * `Reader.uncounted`
    * `Reader.Candid`
    * `Reader.lapse?`

  Main statements:
    * `Reader.move_candid`
    * `Reader.release_books`
    * `Reader.pull_accounts`, `Reader.pull_lapses`
-/

namespace Failover

namespace Reader

open World (Silent)

variable {α : Type}

/- The failure that is reported and not yet counted. -/
def uncounted (r : Reader) : List Incident :=
  if r.released then [] else r.session.incidents r.cursor.failure

/- A reader reports what it counts, then or before. -/
def Candid (x y : Reader × World) : Prop :=
  x.2.Accounts x.1.uncounted y.1.uncounted y.2

instance : IsPreorder (Reader × World) Candid where
  refl x := .refl x.2
  trans _ _ _ := .trans

theorem uncounted_released
    {r : Reader}
    (hReleased : r.released = true) : r.uncounted = [] :=
  if_pos hReleased

theorem uncounted_held
    {r : Reader}
    (hHeld : r.released = false) :
    r.uncounted = r.session.incidents r.cursor.failure := by
  rw [uncounted, hHeld]
  rfl

------------------------------------------------------------
-- Moving
------------------------------------------------------------

theorem move_candid
    {complaint : String}
    {how : Cursor → Cursor.Moved}
    (hComplaint : complaint ∈ complaints)
    (hFailure : ∀ c, (how c).cursor.failure =
      (c.failure <|> (how c).shown)) :
    Act.Keeps Candid (move complaint how) := by
  intro r w
  unfold move
  rw [Act.ends_bind, Act.ends_get]
  split
  · exact World.Accounts.refl w
  next hOpen =>
  have hHeld := Bool.eq_false_of_not_eq_true hOpen
  simp only [Act.ends_bind, Act.ends_set]
  let r' := { r with cursor := (how r.cursor).cursor }
  have hAfter : r'.uncounted = r.session.incidents
      (r.cursor.failure <|> (how r.cursor).shown) := by
    rw [← hFailure]
    exact uncounted_held hHeld
  cases hShown : (how r.cursor).shown with
  | none =>
      have hSame : r'.uncounted = r.uncounted := by
        rw [hAfter, hShown, uncounted_held hHeld]
        cases r.cursor.failure <;> rfl
      change w.Accounts r.uncounted r'.uncounted w
      rw [hSame]
      exact .refl w
  | some f =>
      simp only [Act.ends_bind, ends_onSession, Act.ends_pure]
      refine (Session.report_books r.session w f hComplaint).mono ?_
      rintro _ _ w' ⟨rfl, hReported⟩
      change w.Accounts r.uncounted r'.uncounted w'
      rw [hAfter, hShown, uncounted_held hHeld]
      refine ⟨[], _, hReported, fun x => ?_⟩
      rw [List.count_nil, Nat.zero_add]
      exact r.session.count_incidents _ _ x

theorem read_candid : Act.Keeps Candid read :=
  move_candid (by decide) Cursor.failure_read

theorem nextResult_candid : Act.Keeps Candid nextResult :=
  move_candid (by decide) Cursor.failure_nextResult

------------------------------------------------------------
-- The end of a reader
------------------------------------------------------------

theorem release_books
    (r : Reader)
    (w : World) :
    Act.Ends release r w fun _ r' w' =>
      r'.uncounted = [] ∧ w.Books r.uncounted [] w' := by
  unfold release
  rw [Act.ends_bind, Act.ends_get]
  cases hReleased : r.released with
  | true =>
      refine ⟨uncounted_released hReleased, ?_⟩
      rw [uncounted_released hReleased]
      exact (Silent.same rfl rfl).books
  | false =>
      simp only [Bool.not_false, if_true]
      rw [Act.ends_bind, Act.ends_set, ends_onSession]
      refine (Session.settle_books r.session w r.context
        r.cursor.failure).mono ?_
      intro _ s' w' hSettled
      rw [uncounted_held hReleased]
      exact ⟨rfl, hSettled⟩

theorem release_candid : Act.Keeps Candid release := by
  intro r w
  refine (release_books r w).mono ?_
  rintro _ r' w' ⟨hNone, hBooks⟩
  change w.Accounts r.uncounted r'.uncounted w'
  rw [hNone]
  exact .counts hBooks

------------------------------------------------------------
-- Rows that cannot be mapped
------------------------------------------------------------

/- The reader at the next row. -/
def atNext (r : Reader) : Reader :=
  { r with cursor := r.cursor.read.cursor }

/-
  The failure of a reader whose next row cannot be mapped, if
  no failure has shown before.  Nobody reports it.
-/
def lapse?
    (r : Reader)
    (map : Reader → Except Failure α) : Option Incident :=
  if !r.released && r.cursor.read.hasMore &&
      r.cursor.failure.isNone then
    match map r.atNext with
    | .ok _ => none
    | .error f =>
        let name := r.session.repository.name
        some (name, .resultConversion name f.message)
  else none

/- A row is read, and nothing else happens. -/
theorem read_row
    {r : Reader}
    (w : World)
    (hHeld : r.released = false)
    (hMore : r.cursor.read.hasMore = true) :
    Act.Leads read r w true r.atNext w := by
  unfold read move
  refine Act.leads_iff.mpr ?_
  rw [Act.ends_bind, Act.ends_get, if_neg (by simp [hHeld]),
    Act.ends_bind, Act.ends_set, Cursor.shown_read hMore]
  exact ⟨hMore, rfl, rfl⟩

/- The failure that is reported is still the same. -/
theorem uncounted_atNext
    {r : Reader}
    (hMore : r.cursor.read.hasMore = true) :
    r.atNext.uncounted = r.uncounted := by
  unfold uncounted atNext
  rw [Cursor.failure_read, Cursor.shown_read hMore]
  simp

/- A failure of the mapping is that of the reader, or not. -/
theorem uncounted_failWith
    {r : Reader}
    {map : Reader → Except Failure α}
    {f : Failure}
    (hHeld : r.released = false)
    (hMore : r.cursor.read.hasMore = true)
    (hMap : map r.atNext = .error f) :
    (r.atNext.failWith f.message).uncounted =
      (r.lapse? map).toList ++ r.uncounted := by
  have hFailure : r.atNext.cursor.failure = r.cursor.failure := by
    change r.cursor.read.cursor.failure = _
    rw [Cursor.failure_read, Cursor.shown_read hMore]
    simp
  have hOpen : (r.atNext.failWith f.message).released = false :=
    hHeld
  rw [uncounted_held hOpen, uncounted_held hHeld]
  unfold lapse? failWith
  rw [hHeld, hMore, hMap, hFailure]
  cases r.cursor.failure <;> rfl

/- A pull that finds a row is what is made of the row. -/
theorem pull_row
    {r : Reader}
    (w : World)
    (map : Reader → Except Failure α)
    (hHeld : r.released = false)
    (hMore : r.cursor.read.hasMore = true)
    {Q : Option (Except Failure α) → Reader → World → Prop}
    (hOk : ∀ a, map r.atNext = .ok a → Q (some (.ok a)) r.atNext w)
    (hError : ∀ f r' w', map r.atNext = .error f →
      r'.uncounted = [] →
      w.Books ((r.lapse? map).toList ++ r.uncounted) [] w' →
      Q (some (.error f)) r' w') :
    Act.Ends (pull map) r w Q := by
  unfold pull
  rw [Act.ends_bind, Act.ends_get, hHeld]
  simp only [Bool.false_eq_true, if_false]
  rw [Act.ends_bind, (read_row w hHeld hMore).ends_iff, if_pos rfl,
    Act.ends_bind, Act.ends_get]
  cases hMap : map r.atNext with
  | ok a => exact hOk a hMap
  | error f =>
      simp only
      rw [Act.ends_bind, Act.ends_modify]
      refine (release_books (r.atNext.failWith f.message)
        w).bind ?_
      rintro _ r' w' ⟨hNone, hBooks⟩
      rw [uncounted_failWith hHeld hMore hMap] at hBooks
      exact hError f r' w' hMap hNone hBooks

/-
  A pull reports each failure that it counts, unless it
  lapses.
-/
theorem pull_accounts
    (r : Reader)
    (w : World)
    (map : Reader → Except Failure α) :
    Act.Ends (pull map) r w fun _ r' w' =>
      w.Accounts ((r.lapse? map).toList ++ r.uncounted)
        r'.uncounted w' := by
  have hMore {r' : Reader} {w' : World}
      (h : w.Accounts r.uncounted r'.uncounted w') :
      w.Accounts ((r.lapse? map).toList ++ r.uncounted)
        r'.uncounted w' :=
    h.mono (fun x => by simp) fun _ => Nat.le_refl _
  cases hReleased : r.released with
  | true =>
      unfold pull
      rw [Act.ends_bind, Act.ends_get, hReleased]
      exact hMore (.refl w)
  | false =>
  cases hNext : r.cursor.read.hasMore with
  | true =>
      refine pull_row w map hReleased hNext (fun a _ => ?_) ?_
      · rw [uncounted_atNext hNext]
        exact hMore (.refl w)
      · intro f r' w' _ hNone hBooks
        rw [hNone]
        exact .counts hBooks
  | false =>
      unfold pull
      rw [Act.ends_bind, Act.ends_get, hReleased]
      simp only [Bool.false_eq_true, if_false]
      refine ((read_candid r w).and
        (act_unreleased w .read hReleased)).bind ?_
      rintro more r₁ w₁ ⟨hRead, hMoved, -⟩
      rw [hMoved, show (Move.read.how r.cursor).hasMore = false
        from hNext]
      refine (release_candid r₁ w₁).bind ?_
      intro _ r' w' hLast
      exact hMore (hRead.trans hLast)

/- A failure is counted, and no failure is reported. -/
theorem pull_lapses
    {r : Reader}
    (w : World)
    {map : Reader → Except Failure α}
    {x : Incident}
    (hLapse : r.lapse? map = some x) :
    Act.Ends (pull map) r w fun _ _ w' => w.Books [x] [] w' := by
  have hSome := hLapse
  unfold lapse? at hSome
  split at hSome
  · next hAll =>
    simp only [Bool.and_eq_true, Bool.not_eq_true'] at hAll
    rcases hAll with ⟨⟨hHeld, hMore⟩, hNone⟩
    refine pull_row w map hHeld hMore (fun a hOk => ?_) ?_
    · rw [hOk] at hSome
      cases hSome
    · intro f r' w' _ _ hBooks
      rw [hLapse, uncounted_held hHeld,
        Option.isNone_iff_eq_none.mp hNone] at hBooks
      exact hBooks
  · cases hSome

end Reader

end Failover
