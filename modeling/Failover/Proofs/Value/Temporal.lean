import Failover.Proofs.Calendar.Reading
import Failover.Value.Conversion

/-
  Dates and times as text.  A value is found again in the text
  that it becomes, also with white space around the text: dates
  and times of every year and to the nanosecond, and moments of
  the first ten thousand years.  A leap second is found again
  if it follows the last second of a minute.  Elsewhere it is
  the next second of the text.

  Key definitions include:
    * `Value.ReadsBack`

  Main statements:
    * `Value.times_survive_text`
-/

namespace Failover

------------------------------------------------------------
-- Written texts have no white space around them
------------------------------------------------------------

namespace Decimal

theorem isBlank_padded
    {w n : Nat} :
    ∀ c ∈ padded w n, Text.isBlank c = false :=
  fun _ hC => Text.isBlank_of_isDigit (isDigit_of_mem_padded hC)

end Decimal

open Decimal (isBlank_padded padded_ne_nil)

theorem Date.isBlank_writeChars
    (t : Date) :
    ∀ c ∈ t.writeChars, Text.isBlank c = false := by
  have hYear : ∀ c ∈ writeYear t.year,
      Text.isBlank c = false := by
    unfold writeYear
    split_ifs
    · exact isBlank_padded
    · exact List.forall_mem_cons.mpr ⟨by decide, isBlank_padded⟩
    · exact List.forall_mem_cons.mpr ⟨by decide, isBlank_padded⟩
  unfold writeChars
  simp only [List.forall_mem_append, List.forall_mem_cons]
  exact ⟨hYear, by decide, isBlank_padded, by decide,
    isBlank_padded⟩

theorem Date.writeChars_ne_nil (t : Date) :
    t.writeChars ≠ [] :=
  List.append_ne_nil_of_right_ne_nil _ (List.cons_ne_nil _ _)

theorem Time.isBlank_writeChars
    (t : Time) :
    ∀ c ∈ t.writeChars, Text.isBlank c = false := by
  have hFraction (n : Nat) : ∀ c ∈ writeFraction n,
      Text.isBlank c = false := by
    unfold writeFraction
    split_ifs
    · exact fun c hC => nomatch hC
    · exact List.forall_mem_cons.mpr ⟨by decide, isBlank_padded⟩
    · exact List.forall_mem_cons.mpr ⟨by decide, isBlank_padded⟩
    · exact List.forall_mem_cons.mpr ⟨by decide, isBlank_padded⟩
  unfold writeChars
  simp only [List.forall_mem_append, List.forall_mem_cons]
  exact ⟨isBlank_padded, by decide, isBlank_padded, by decide,
    isBlank_padded, hFraction _⟩

theorem Time.writeChars_ne_nil (t : Time) :
    t.writeChars ≠ [] :=
  List.append_ne_nil_of_left_ne_nil (padded_ne_nil _ _) _

theorem isBlank_utcOffset :
    ∀ c ∈ Reading.utcOffset, Text.isBlank c = false := by
  have hAll : Reading.utcOffset.all (!Text.isBlank ·) = true := by
    decide
  intro c hC
  simpa using List.all_eq_true.mp hAll c hC

namespace Value

------------------------------------------------------------
-- Reading back
------------------------------------------------------------

/-
  A value becomes a text, and the text becomes a result, with
  any white space around it.
-/
def ReadsBack
    (v : Value)
    (t : Target)
    (a : t.Carrier) : Prop :=
  ∃ s, Target.text.convert v = .ok s ∧
    ∀ before after,
      (∀ c ∈ before, Text.isBlank c = true) →
      (∀ c ∈ after, Text.isBlank c = true) →
      t.convert
        (.text (String.ofList
          (before ++ (s.toList ++ after)))) = .ok a

/-
  A value reads back if the text it becomes has no white space
  at its ends and the type is read from the trimmed text.
-/
theorem readsBack_of_read
    {v : Value}
    {t : Target}
    {a : t.Carrier}
    (cs : List Char)
    (name : String)
    (read? : String → Option t.Carrier)
    (hText : Target.text.convert v = .ok (String.ofList cs))
    (hTight : Text.IsTight cs)
    (hSome : cs ≠ [])
    (hTarget : ∀ s, t.convert (.text s) =
      require (.text s) name (read? (Text.trim s)))
    (hRead : read? (String.ofList cs) = some a) :
    ReadsBack v t a := by
  refine ⟨_, hText, ?_⟩
  intro before after hBefore hAfter
  have hTrim := Text.trim_surrounded (s := String.ofList cs)
    hBefore hAfter
    (by rw [String.toList_ofList]; exact hTight)
    (by rw [String.toList_ofList]; exact hSome)
  rw [hTarget, hTrim, hRead]
  rfl

/- A text is read as one value at most. -/
theorem ReadsBack.eq_iff
    {v : Value}
    {t : Target}
    {a b : t.Carrier}
    (h : ReadsBack v t a) : ReadsBack v t b ↔ a = b := by
  constructor
  · intro hOther
    obtain ⟨s, hText, hRead⟩ := h
    obtain ⟨s', hText', hRead'⟩ := hOther
    cases hText.symm.trans hText'
    have hA := hRead [] [] (by nofun) (by nofun)
    have hB := hRead' [] [] (by nofun) (by nofun)
    exact Except.ok.inj (hA.symm.trans hB)
  · rintro rfl
    exact h

theorem readsBack_date (t : Date) :
    ReadsBack (.date t) .date t :=
  readsBack_of_read t.writeChars "date" Date.ofText? rfl
    (Text.isTight_of_forall t.isBlank_writeChars)
    t.writeChars_ne_nil (fun _ => rfl) t.ofText?_write

/- The text of a time says the time it is carried to. -/
theorem readsBack_time (t : Time) :
    ReadsBack (.time t) .time t.carried :=
  readsBack_of_read t.writeChars "time" Time.ofText? rfl
    (Text.isTight_of_forall t.isBlank_writeChars)
    t.writeChars_ne_nil (fun _ => rfl) t.ofText?_write

theorem readsBack_timestamp (t : Timestamp) :
    ReadsBack (.timestamp t) .timestamp
      ⟨t.date, t.time.carried⟩ := by
  have hTight :=
    (Text.isTight_of_forall t.date.isBlank_writeChars).around
      (Text.isTight_of_forall t.time.isBlank_writeChars)
      t.date.writeChars_ne_nil t.time.writeChars_ne_nil [' ']
  have hSome := List.append_ne_nil_of_left_ne_nil
    t.date.writeChars_ne_nil (' ' :: t.time.writeChars)
  exact readsBack_of_read _ "timestamp" Timestamp.ofText? rfl
    hTight hSome (fun _ => rfl) t.ofText?_write

theorem readsBack_moment
    (t : Timestamp)
    (hFirst : 0 ≤ t.date.year)
    (hLast : t.date.year ≤ 9999) :
    ReadsBack (.moment t) .moment ⟨t.date, t.time.carried⟩ := by
  have hTight :=
    (Text.isTight_of_forall t.date.isBlank_writeChars).around
      (Text.isTight_of_forall isBlank_utcOffset)
      t.date.writeChars_ne_nil (List.cons_ne_nil _ _)
      ('T' :: t.time.writeChars)
  have hSome := List.append_ne_nil_of_left_ne_nil
    t.date.writeChars_ne_nil
    ('T' :: (t.time.writeChars ++ Reading.utcOffset))
  exact readsBack_of_read _ "timestamptz"
    Timestamp.utcOfText? rfl hTight hSome (fun _ => rfl)
    (t.utcOfText?_writeUtc hFirst hLast)

/- A timestamp is what its text says if its time is. -/
theorem timestamp_carried_iff {t : Timestamp} :
    (⟨t.date, t.time.carried⟩ : Timestamp) = t ↔
      t.time.LeapsLast := by
  rw [← Time.carried_eq_iff]
  constructor
  · exact congrArg Timestamp.time
  · intro hSame
    rw [hSame]

/-
  Every date is found again in its text.  Times, timestamps,
  and moments of the first ten thousand years are found again
  too, leap seconds included, but for those with a leap second
  inside of a minute.  These are read as the next second.
-/
theorem times_survive_text :
    (∀ t : Date, ReadsBack (.date t) .date t) ∧
    (∀ t : Time,
      ReadsBack (.time t) .time t.carried ∧
      (ReadsBack (.time t) .time t ↔ t.LeapsLast)) ∧
    (∀ t : Timestamp,
      ReadsBack (.timestamp t) .timestamp
        ⟨t.date, t.time.carried⟩ ∧
      (ReadsBack (.timestamp t) .timestamp t ↔
        t.time.LeapsLast)) ∧
    (∀ t : Timestamp, 0 ≤ t.date.year → t.date.year ≤ 9999 →
      ReadsBack (.moment t) .moment ⟨t.date, t.time.carried⟩ ∧
      (ReadsBack (.moment t) .moment t ↔
        t.time.LeapsLast)) := by
  refine ⟨readsBack_date, fun t => ?_, fun t => ?_,
    fun t hFirst hLast => ?_⟩
  · have hRead := readsBack_time t
    exact ⟨hRead, hRead.eq_iff.trans Time.carried_eq_iff⟩
  · have hRead := readsBack_timestamp t
    exact ⟨hRead, hRead.eq_iff.trans timestamp_carried_iff⟩
  · have hRead := readsBack_moment t hFirst hLast
    exact ⟨hRead, hRead.eq_iff.trans timestamp_carried_iff⟩

/- The half of the leap second at the end of 2016. -/
theorem leap_second_survives_text :
    let t : Timestamp :=
      ⟨{ year := 2016, month := 12, day := 31 },
        { hour := 23, minute := 59, seconds := 59,
          nanosecond := 1500000000 }⟩
    0 ≤ t.date.year ∧ t.date.year ≤ 9999 ∧
      ReadsBack (.moment t) .moment t :=
  ⟨by decide, by decide,
    (times_survive_text.2.2.2 _ (by decide) (by decide)).2.mpr
      fun _ => rfl⟩

/-
  A leap second inside of a minute is read back as the second
  after it.
-/
theorem leap_second_inside_is_lost :
    let t : Time :=
      { hour := 12, minute := 30, seconds := 15,
        nanosecond := 1500000000 }
    ¬ ReadsBack (.time t) .time t := by
  intro t hRead
  have hLast := Time.carried_eq_iff.mp
    ((readsBack_time t).eq_iff.mp hRead)
  exact absurd (hLast (by decide)) (by decide)

end Value

end Failover
