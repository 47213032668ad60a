import Failover.Calendar.Timestamp
import Mathlib.Tactic.IntervalCases

/-
  Dates and their numbers of days.  A date is found again from
  its number, and a time of day from its number of seconds, so
  a moment that is moved by no time is the same moment.

  The number of a day in an era of four hundred years begins
  with the years, which are counted from the first of March.
  A year is found from the number by counting the leap days
  that a constant length of years leaves out.

  Main statements:
    * `Date.ofDayNumber?_dayNumber`
    * `Time.ofSecondOfDay?_secondOfDay`
    * `Timestamp.later?_zero`
-/

namespace Failover

namespace Date

------------------------------------------------------------
-- Days of a year
------------------------------------------------------------

/- The days that a month may have at most. -/
structure IsMonthDay
    (y : Int)
    (m d : Nat) : Prop where
  common : d ≤ 31
  short : m = 4 ∨ m = 6 ∨ m = 9 ∨ m = 11 → d ≤ 30
  february : m = 2 → d ≤ 29
  leap : m = 2 → d = 29 → isLeapYear y = true

theorem isMonthDay
    {y : Int}
    {m d : Nat}
    (hDay : d ≤ daysInMonth y m) : IsMonthDay y m d := by
  unfold daysInMonth at hDay
  constructor
  · split_ifs at hDay <;> omega
  · intro hShort
    split_ifs at hDay <;> omega
  · intro hFebruary
    split_ifs at hDay <;> omega
  · intro hFebruary hLast
    by_contra hLeap
    rw [if_pos hFebruary, if_neg hLeap] at hDay
    omega

/- The place of a month in a year that begins with March. -/
def monthFromMarch (m : Nat) : Nat :=
  if m ≤ 2 then m + 9 else m - 3

/- The place of a day in a year that begins with March. -/
def dayFromMarch (k d : Nat) : Int :=
  (153 * k + 2) / 5 + d - 1

/- What the place of a day in its year tells. -/
structure IsDayOfYear
    (y : Int)
    (k d : Nat) : Prop where
  nonneg : 0 ≤ dayFromMarch k d
  le : dayFromMarch k d ≤ 365
  month : (5 * dayFromMarch k d + 2) / 153 = k
  last : dayFromMarch k d = 365 → k = 11 ∧ isLeapYear y = true

theorem isDayOfYear
    {y : Int}
    {m d : Nat}
    (hDate : IsDate y m d) : IsDayOfYear y (monthFromMarch m) d := by
  obtain ⟨-, -, hFirst, hLast, hDay, hMost⟩ := hDate
  obtain ⟨hCommon, hShort, hFebruary, hLeap⟩ := isMonthDay hMost
  have hMonth : monthFromMarch m ≤ 11 ∧
      (monthFromMarch m = 11 → m = 2) ∧
      (monthFromMarch m = 1 ∨ monthFromMarch m = 3 ∨
        monthFromMarch m = 6 ∨ monthFromMarch m = 8 →
        m = 4 ∨ m = 6 ∨ m = 9 ∨ m = 11) := by
    unfold monthFromMarch
    split_ifs <;> omega
  generalize monthFromMarch m = k at hMonth ⊢
  obtain ⟨hK, hEleven, hK'⟩ := hMonth
  clear hMost
  constructor <;> unfold dayFromMarch
  · interval_cases k <;> omega
  · interval_cases k <;> omega
  · interval_cases k <;> omega
  · intro hD
    have hLastDay : k = 11 ∧ d = 29 := by
      interval_cases k <;> omega
    exact ⟨hLastDay.1, hLeap (hEleven hLastDay.1) hLastDay.2⟩

------------------------------------------------------------
-- Years of an era
------------------------------------------------------------

/- The place of a day in an era whose years begin in March. -/
def dayOfEra (y d : Int) : Int :=
  y * 365 + y / 4 - y / 100 + d

/- A year and a day of it, in an era of four hundred years. -/
structure IsYearDay (y d : Int) : Prop where
  nonneg : 0 ≤ y
  lt : y < 400
  dayNonneg : 0 ≤ d
  dayLe : d ≤ 365
  last : d = 365 → y % 4 = 3 ∧ (y % 100 ≠ 99 ∨ y = 399)

theorem IsYearDay.dayOfEra_nonneg
    {y d : Int}
    (h : IsYearDay y d) : 0 ≤ dayOfEra y d := by
  obtain ⟨hY, hY', hD, hD', -⟩ := h
  unfold dayOfEra
  omega

theorem IsYearDay.dayOfEra_lt
    {y d : Int}
    (h : IsYearDay y d) : dayOfEra y d < 146097 := by
  obtain ⟨hY, hY', hD, hD', hLast⟩ := h
  unfold dayOfEra
  omega

/-
  The leap days before a day are those of its four-year
  spans less those of its centuries; the span that a day is
  counted in may already be the next one.
-/
theorem IsYearDay.year
    {y d n : Int}
    (h : IsYearDay y d)
    (hN : n = dayOfEra y d) :
    (n - n / 1460 + n / 36524 - n / 146096) / 365 = y := by
  obtain ⟨hY, hY', hD, hD', hLast⟩ := h
  unfold dayOfEra at hN
  have hCentury : n / 36524 - n / 146096 = y / 100 := by
    have hEra : n / 146096 = if n = 146096 then 1 else 0 := by
      split <;> omega
    by_cases hEnd : n = 146096
    · omega
    · rw [hEra, if_neg hEnd]
      omega
  have hFour : n / 1460 = y / 4 +
      (if 1460 ≤ 365 * (y % 4) + y / 4 - y / 100 + d then 1
        else 0) := by
    split <;> omega
  split at hFour <;> omega

------------------------------------------------------------
-- Dates
------------------------------------------------------------

/- The year of a date, if years begin in March. -/
def yearFromMarch (t : Date) : Int :=
  if t.month ≤ 2 then t.year - 1 else t.year

theorem isYearDay (t : Date) :
    IsYearDay (t.yearFromMarch % 400)
      (dayFromMarch (monthFromMarch t.month) t.day) := by
  have hDay := isDayOfYear t.valid
  refine ⟨by omega, by omega, hDay.nonneg, hDay.le, ?_⟩
  intro hD
  obtain ⟨hEleven, hLeap⟩ := hDay.last hD
  have hMonth : t.month ≤ 2 := by
    have hMost := t.valid.2.2.2.1
    unfold monthFromMarch at hEleven
    split_ifs at hEleven <;> omega
  simp only [isLeapYear, Bool.and_eq_true, beq_iff_eq,
    Bool.or_eq_true, bne_iff_ne] at hLeap
  rw [yearFromMarch, if_pos hMonth]
  omega

theorem dayNumber_eq (t : Date) :
    t.dayNumber + 719468 = t.yearFromMarch / 400 * 146097 +
      dayOfEra (t.yearFromMarch % 400)
        (dayFromMarch (monthFromMarch t.month) t.day) := by
  have hDay : t.dayNumber = t.yearFromMarch / 400 * 146097 +
      t.yearFromMarch % 400 * 365 + t.yearFromMarch % 400 / 4 -
      t.yearFromMarch % 400 / 100 +
      dayFromMarch (monthFromMarch t.month) t.day - 719468 := rfl
  unfold dayOfEra
  omega

/- A date is found from its number of days. -/
theorem ofDayNumber?_dayNumber (t : Date) :
    ofDayNumber? t.dayNumber = some t := by
  have hNumber := t.dayNumber_eq
  have hDay := isDayOfYear t.valid
  have hYearDay := t.isYearDay
  have hNonneg := hYearDay.dayOfEra_nonneg
  have hLt := hYearDay.dayOfEra_lt
  have hEra : (t.dayNumber + 719468) / 146097 =
      t.yearFromMarch / 400 := by omega
  have hRest : (t.dayNumber + 719468) % 146097 =
      dayOfEra (t.yearFromMarch % 400)
        (dayFromMarch (monthFromMarch t.month) t.day) := by omega
  have hDayOfYear :
      dayOfEra (t.yearFromMarch % 400)
          (dayFromMarch (monthFromMarch t.month) t.day) -
        (365 * (t.yearFromMarch % 400) +
          t.yearFromMarch % 400 / 4 -
          t.yearFromMarch % 400 / 100) =
      dayFromMarch (monthFromMarch t.month) t.day := by
    unfold dayOfEra
    omega
  have hFirst := t.valid.2.2.1
  have hMonth :
      (if (monthFromMarch t.month : Int) < 10 then
        (monthFromMarch t.month : Int) + 3
      else (monthFromMarch t.month : Int) - 9) = t.month := by
    have hMost := t.valid.2.2.2.1
    unfold monthFromMarch
    split_ifs <;> omega
  have hYear : t.yearFromMarch % 400 +
      t.yearFromMarch / 400 * 400 = t.yearFromMarch := by omega
  have hYear' :
      (if (t.month : Int) ≤ 2 then t.yearFromMarch + 1
      else t.yearFromMarch) = t.year := by
    unfold yearFromMarch
    split_ifs <;> omega
  have hDay' :
      (dayFromMarch (monthFromMarch t.month) t.day -
        (153 * (monthFromMarch t.month : Int) + 2) / 5 + 1) =
      t.day := by
    unfold dayFromMarch
    omega
  unfold ofDayNumber?
  simp only [hEra, hRest, hYearDay.year rfl, hDayOfYear,
    hDay.month, hMonth, hYear, hYear', hDay', Int.toNat_natCast]
  exact dif_pos t.valid

end Date

------------------------------------------------------------
-- Times and moments
------------------------------------------------------------

/- A time of day is found from its number of seconds. -/
theorem Time.ofSecondOfDay?_secondOfDay (t : Time) :
    ofSecondOfDay? t.secondOfDay t.nanosecond = some t := by
  obtain ⟨hHour, hMinute, hSecond, -⟩ := t.valid
  have hHours : t.secondOfDay / 3600 = t.hour := by
    unfold secondOfDay
    omega
  have hMinutes : t.secondOfDay / 60 % 60 = t.minute := by
    unfold secondOfDay
    omega
  have hSeconds : t.secondOfDay % 60 = t.seconds := by
    unfold secondOfDay
    omega
  rw [ofSecondOfDay?, hHours, hMinutes, hSeconds]
  exact dif_pos t.valid

theorem Time.secondOfDay_lt (t : Time) :
    t.secondOfDay < 86400 := by
  obtain ⟨hHour, hMinute, hSecond, -⟩ := t.valid
  unfold secondOfDay
  omega

/- A moment that no time passes from stays the same. -/
theorem Timestamp.later?_zero (t : Timestamp) :
    t.later? 0 = some t := by
  have hTime := t.time.secondOfDay_lt
  have hDays : (t.date.dayNumber * 86400 +
      t.time.secondOfDay + 0) / 86400 = t.date.dayNumber := by
    omega
  have hSeconds : ((t.date.dayNumber * 86400 +
      t.time.secondOfDay + 0) % 86400).toNat =
      t.time.secondOfDay := by
    omega
  unfold later?
  simp only [hDays, hSeconds, Date.ofDayNumber?_dayNumber,
    Time.ofSecondOfDay?_secondOfDay]
  rfl

end Failover
