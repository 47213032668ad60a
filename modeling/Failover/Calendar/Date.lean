import Failover.Number.Decimal

/-
  Dates of the proleptic Gregorian calendar, with a year zero
  and negative years, over a span of more than half a million
  years around the epoch.

  Key definitions include:
    * `Date`
    * `Date.IsDate`
    * `Date.of?`
    * `Date.dayNumber`
    * `Date.ofDayNumber?`
    * `Date.write`
-/

namespace Failover

namespace Date

/- A year with a twenty-ninth of February. -/
def isLeapYear (y : Int) : Bool :=
  y % 4 == 0 && (y % 100 != 0 || y % 400 == 0)

/- The number of days of a month. -/
def daysInMonth
    (y : Int)
    (m : Nat) : Nat :=
  if m = 2 then (if isLeapYear y then 29 else 28)
  else if m = 4 ∨ m = 6 ∨ m = 9 ∨ m = 11 then 30
  else 31

def leastYear : Int := -262143

def greatestYear : Int := 262142

/- A year, a month and a day that name a date. -/
def IsDate
    (y : Int)
    (m d : Nat) : Prop :=
  leastYear ≤ y ∧ y ≤ greatestYear ∧
    1 ≤ m ∧ m ≤ 12 ∧ 1 ≤ d ∧ d ≤ daysInMonth y m

instance
    (y : Int)
    (m d : Nat) :
    Decidable (IsDate y m d) := by
  unfold IsDate
  infer_instance

end Date

structure Date where
  year : Int
  month : Nat
  day : Nat
  valid : Date.IsDate year month day := by decide
deriving DecidableEq, Repr

namespace Date

/- The date of a year, a month and a day, if there is one. -/
def of?
    (y : Int)
    (m d : Nat) : Option Date :=
  if h : IsDate y m d then some ⟨y, m, d, h⟩ else none

/- The first day of 1970. -/
def epoch : Date :=
  { year := 1970, month := 1, day := 1 }

instance : Inhabited Date := ⟨epoch⟩

------------------------------------------------------------
-- Counting days
------------------------------------------------------------

/-
  The number of days since the epoch.  Years are counted from
  the first of March, so that a leap day comes last.
-/
def dayNumber (t : Date) : Int :=
  let y : Int := if t.month ≤ 2 then t.year - 1 else t.year
  let m : Nat :=
    if t.month ≤ 2 then t.month + 9 else t.month - 3
  let era := y / 400
  let yearOfEra := y % 400
  let dayOfYear : Int := (153 * m + 2) / 5 + t.day - 1
  era * 146097 + yearOfEra * 365 + yearOfEra / 4 -
    yearOfEra / 100 + dayOfYear - 719468

/- The date a number of days after the epoch. -/
def ofDayNumber? (n : Int) : Option Date :=
  let z := n + 719468
  let era := z / 146097
  let day := z % 146097
  let yearOfEra :=
    (day - day / 1460 + day / 36524 - day / 146096) / 365
  let dayOfYear :=
    day - (365 * yearOfEra + yearOfEra / 4 -
      yearOfEra / 100)
  let m := (5 * dayOfYear + 2) / 153
  let d := dayOfYear - (153 * m + 2) / 5 + 1
  let month := if m < 10 then m + 3 else m - 9
  let y := yearOfEra + era * 400
  of? (if month ≤ 2 then y + 1 else y) month.toNat d.toNat

example :
    (ofDayNumber? 19782).map (·.dayNumber) = some 19782 := by
  decide

------------------------------------------------------------
-- Writing
------------------------------------------------------------

/-
  A year has at least four digits, and a sign if it is not
  one of the first ten thousand.
-/
def writeYear (y : Int) : List Char :=
  if 0 ≤ y ∧ y ≤ 9999 then Decimal.padded 4 y.natAbs
  else
    (if y < 0 then '-' else '+') ::
      Decimal.padded 4 y.natAbs

def writeChars (t : Date) : List Char :=
  writeYear t.year ++ '-' :: (Decimal.padded 2 t.month ++
    '-' :: Decimal.padded 2 t.day)

/- The year, the month and the day, with hyphens between. -/
def write (t : Date) : String :=
  String.ofList t.writeChars

end Date

end Failover
