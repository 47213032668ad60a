import Failover.Calendar.Date
import Failover.Calendar.Time
import Failover.Number.Floating

/-
  A date with a time of day, also from a count of time: seconds
  since the beginning of 1970, or days since the beginning of
  the Julian period.

  Key definitions include:
    * `Timestamp`
    * `Timestamp.later?`
    * `Timestamp.write`
    * `Timestamp.writeUtc`
    * `Timestamp.ofSeconds?`
    * `Timestamp.julianEpoch`
    * `Timestamp.ofJulianDay?`
-/

namespace Failover

structure Timestamp where
  date : Date
  time : Time
deriving DecidableEq, Repr, Inhabited

namespace Timestamp

/- The beginning of 1970. -/
def epoch : Timestamp :=
  ⟨Date.epoch, Time.midnight⟩

/-
  The moment some seconds later, with the same fraction of a
  second.
-/
def later?
    (t : Timestamp)
    (seconds : Int) : Option Timestamp := do
  let total :=
    t.date.dayNumber * 86400 + t.time.secondOfDay + seconds
  let date ← Date.ofDayNumber? (total / 86400)
  let time ←
    Time.ofSecondOfDay? (total % 86400).toNat
      t.time.nanosecond
  return ⟨date, time⟩

------------------------------------------------------------
-- Writing
------------------------------------------------------------

/- The date and the time with a space between. -/
def write (t : Timestamp) : String :=
  String.ofList
    (t.date.writeChars ++ ' ' :: t.time.writeChars)

/- The date and the time of a moment in UTC. -/
def writeUtc (t : Timestamp) : String :=
  String.ofList
    (t.date.writeChars ++ 'T' :: (t.time.writeChars ++
      ['+', '0', '0', ':', '0', '0']))

------------------------------------------------------------
-- Counts of time
------------------------------------------------------------

/- The timestamp some seconds after the epoch. -/
def ofSeconds?
    (seconds : Int)
    (nanosecond : Nat) : Option Timestamp := do
  let t ← epoch.later? seconds
  let time ←
    Time.of? t.time.hour t.time.minute t.time.seconds nanosecond
  return ⟨t.date, time⟩

/- The Julian day on which 1970 begins, which is 2440587.5. -/
def julianEpoch : Floating :=
  .finite false 4881175 (-1)

def secondsPerDay : Floating :=
  Floating.Format.double.ofInt 86400

/-
  The timestamp of a Julian day.  Days become seconds in
  floating arithmetic; the whole seconds and the magnitude of
  the fraction are taken apart, also before the epoch.
-/
def ofJulianDay? (day : Floating) : Option Timestamp :=
  let double := Floating.Format.double
  if !day.isFinite then none
  else
    let x := (day.subtract julianEpoch).multiply secondsPerDay
    if !x.isFinite then none
    else
      let seconds := x.truncate
      let part := x.subtract (double.ofInt seconds)
      let nanos := part.multiply (double.ofInt Time.second)
      ofSeconds? seconds nanos.truncate.natAbs

example :
    ofJulianDay? (.finite false 9762351 (-2)) =
      ofSeconds? 21600 0 := by
  decide +kernel

end Timestamp

end Failover
