import Failover.Calendar.Reading

/-
  Local readings: times and timestamps from texts that may
  leave out the seconds and may end with an offset.  The
  offset does not change the reading.

  Key definitions include:
    * `Reading.skipOffset?`, `Reading.isEnd`
    * `Reading.local?`
    * `Time.ofLocalText?`
    * `Timestamp.ofLocalText?`
-/

namespace Failover

namespace Reading

/-
  What follows an offset of hours and minutes.  Blanks may
  stand in front, and blanks and colons between.
-/
def skipOffset? (cs : List Char) : Option (List Char) := do
  let (_, r) ← offsetSign? (skipBlanks cs)
  let (_, r) ← number? 2 2 r
  let r := r.dropWhile fun c => c == ':' || Text.isBlank c
  let (_, r) ← offsetMinutes? r
  return r

/- Nothing, the letter Z or an offset ends a text. -/
def isEnd (cs : List Char) : Bool :=
  cs.isEmpty || cs == ['Z'] || skipOffset? cs == some []

/- A time, or an hour and a minute, at the end of a text. -/
def local? (cs : List Char) : Option Time :=
  match (time? cs).or (clock? cs) with
  | some (t, r) => if isEnd r then some t else none
  | none => none

end Reading

def Time.ofLocalText? (s : String) : Option Time :=
  Reading.local? s.toList

namespace Timestamp

/- A date, what stands between, and a local time. -/
def localWith?
    (between : List Char → Option (List Char))
    (cs : List Char) : Option Timestamp := do
  let (date, r) ← Reading.date? cs
  let time ← Reading.local? (← between r)
  return ⟨date, time⟩

/-
  A moment in the strict format, or else a date and a time
  with white space or the letter T between.
-/
def ofLocalText? (s : String) : Option Timestamp :=
  let cs := s.toList
  ((Reading.whole? (Reading.moment? cs)).map (·.1)).or
    ((localWith? (some ∘ Reading.skipBlanks) cs).or
      (localWith? (Reading.mark? 'T') cs))

example :
    (ofLocalText? "1970-01-01T00:00 -12:30") =
      some epoch := by
  decide +kernel

end Timestamp

end Failover
