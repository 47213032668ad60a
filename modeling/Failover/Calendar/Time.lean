import Failover.Number.Decimal

/-
  Times of day to the nanosecond.  A leap second is a whole
  second more of nanoseconds.  Times that are made of their
  parts have it at the second 59 only, the last of a minute.

  Key definitions include:
    * `Time`
    * `Time.IsTime`
    * `Time.of?`, `Time.ofSecondOfDay?`
    * `Time.write`
-/

namespace Failover

namespace Time

/- The number of nanoseconds of a second. -/
def second : Nat := 1000000000

/-
  Four parts that name a time of day.  Any second may have a
  second more of nanoseconds.
-/
def IsTime (h m s n : Nat) : Prop :=
  h < 24 ∧ m < 60 ∧ s < 60 ∧ n < 2 * second

instance (h m s n : Nat) : Decidable (IsTime h m s n) :=
  inferInstanceAs (Decidable (_ ∧ _))

end Time

structure Time where
  hour : Nat
  minute : Nat
  seconds : Nat
  nanosecond : Nat
  valid : Time.IsTime hour minute seconds nanosecond := by
    decide
deriving DecidableEq, Repr

namespace Time

/-
  The time of four parts, if they name one, and one whose leap
  second follows the last second of a minute.
-/
def of? (h m s n : Nat) : Option Time :=
  if v : IsTime h m s n ∧ (second ≤ n → s = 59) then
    some ⟨h, m, s, n, v.1⟩
  else none

/- The beginning of a day. -/
def midnight : Time :=
  { hour := 0, minute := 0, seconds := 0, nanosecond := 0 }

instance : Inhabited Time := ⟨midnight⟩

/- The whole seconds since midnight. -/
def secondOfDay (t : Time) : Nat :=
  (t.hour * 60 + t.minute) * 60 + t.seconds

/-
  The time some whole seconds after midnight, with nanoseconds
  that are taken as they are.
-/
def ofSecondOfDay?
    (s n : Nat) : Option Time :=
  if v : IsTime (s / 3600) (s / 60 % 60) (s % 60) n then
    some ⟨s / 3600, s / 60 % 60, s % 60, n, v⟩
  else none

------------------------------------------------------------
-- Writing
------------------------------------------------------------

/-
  A fraction of a second in three, six or nine digits, the
  fewest that are exact; nothing if there is none.
-/
def writeFraction (n : Nat) : List Char :=
  if n = 0 then []
  else if n % 1000000 = 0 then
    '.' :: Decimal.padded 3 (n / 1000000)
  else if n % 1000 = 0 then
    '.' :: Decimal.padded 6 (n / 1000)
  else '.' :: Decimal.padded 9 n

def writeChars (t : Time) : List Char :=
  let leap := if second ≤ t.nanosecond then 1 else 0
  Decimal.padded 2 t.hour ++
    ':' :: (Decimal.padded 2 t.minute ++
      ':' :: (Decimal.padded 2 (t.seconds + leap) ++
        writeFraction (t.nanosecond % second)))

/-
  The hour, the minute and the second, with a fraction if
  there is one.  A leap second is written as one second more,
  so as second 60 if it is the last of a minute.
-/
def write (t : Time) : String :=
  String.ofList t.writeChars

end Time

end Failover
