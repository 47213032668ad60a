import Failover.Calendar.Timestamp
import Failover.Text.Blank

/-
  Reading dates and times from text.  The loose formats take
  numbers of one or two digits with white space in front; the
  strict format of moments with an offset takes exact widths.
  Every reader gives back the text that it leaves.

  Key definitions include:
    * `Reading.number?`, `Reading.fraction?`
    * `Reading.date?`, `Reading.clock?`, `Reading.time?`
    * `Reading.offset?`, `Reading.moment?`
    * `Date.ofText?`, `Time.ofText?`, `Timestamp.ofText?`
    * `Timestamp.utcOfText?`
-/

namespace Failover

namespace Reading

------------------------------------------------------------
-- Parts
------------------------------------------------------------

/- The number of digits in front, up to a greatest count. -/
def number?
    (least most : Nat)
    (cs : List Char) : Option (Nat × List Char) :=
  let ds := (cs.take most).takeWhile Text.isDigit
  if ds.length < least then none
  else some (Decimal.ofDigits ds, cs.drop ds.length)

/- One given character. -/
def mark?
    (c : Char) : List Char → Option (List Char)
  | d :: r => if c = d then some r else none
  | [] => none

def skipBlanks (cs : List Char) : List Char :=
  cs.dropWhile Text.isBlank

/- One or two digits, with white space in front. -/
def field? (cs : List Char) : Option (Nat × List Char) :=
  number? 1 2 (skipBlanks cs)

/-
  A year has up to four digits, or any number of them after
  a sign.
-/
def year? (cs : List Char) : Option (Int × List Char) :=
  match skipBlanks cs with
  | '-' :: r =>
      (number? 1 r.length r).map fun (n, r) => (-(n : Int), r)
  | '+' :: r =>
      (number? 1 r.length r).map fun (n, r) => ((n : Int), r)
  | r => (number? 1 4 r).map fun (n, r) => ((n : Int), r)

/-
  The nanoseconds of the digits after a point; those past the
  ninth do not count.
-/
def fraction? (cs : List Char) : Option (Nat × List Char) :=
  let ds := (cs.take 9).takeWhile Text.isDigit
  if ds.isEmpty then none
  else
    some (Decimal.ofDigits ds * Nat.pow 10 (9 - ds.length),
      cs.dropWhile Text.isDigit)

/- An optional point with a fraction after it. -/
def optionalFraction? : List Char → Option (Nat × List Char)
  | '.' :: r => fraction? r
  | r => some (0, r)

------------------------------------------------------------
-- Loose formats
------------------------------------------------------------

/- A year, a month and a day with hyphens between. -/
def date? (cs : List Char) : Option (Date × List Char) := do
  let (y, r) ← year? cs
  let r ← mark? '-' r
  let (m, r) ← field? r
  let r ← mark? '-' r
  let (d, r) ← field? r
  let date ← Date.of? y m d
  return (date, r)

/- A second 60 is the leap second that follows 59. -/
def clockTime?
    (h m s n : Nat) : Option Time :=
  if s = 60 then Time.of? h m 59 (n + Time.second)
  else Time.of? h m s n

/- An hour, a minute and a second with a fraction. -/
def time? (cs : List Char) : Option (Time × List Char) := do
  let (h, r) ← field? cs
  let r ← mark? ':' r
  let (m, r) ← field? r
  let r ← mark? ':' r
  let (s, r) ← field? r
  let (n, r) ← optionalFraction? r
  let time ← clockTime? h m s n
  return (time, r)

/- An hour and a minute. -/
def clock? (cs : List Char) : Option (Time × List Char) := do
  let (h, r) ← field? cs
  let r ← mark? ':' r
  let (m, r) ← field? r
  let time ← Time.of? h m 0 0
  return (time, r)

/- A whole text is read. -/
def whole?
    {α : Type}
    (r : Option (α × List Char)) : Option α :=
  match r with
  | some (a, []) => some a
  | _ => none

------------------------------------------------------------
-- Moments with an offset
------------------------------------------------------------

/- The digits of an offset's minutes. -/
def offsetMinutes?
    (cs : List Char) : Option (Nat × List Char) := do
  let (m, r) ← number? 2 2 cs
  if m < 60 then some (m, r) else none

/- The sign of an offset; a minus sign has two forms. -/
def offsetSign? : List Char → Option (Bool × List Char)
  | '+' :: r => some (false, r)
  | '-' :: r => some (true, r)
  | '−' :: r => some (true, r)
  | _ => none

/- Seconds east of UTC: a letter, or hours and minutes. -/
def offset? (cs : List Char) : Option (Int × List Char) :=
  match cs with
  | 'Z' :: r => some (0, r)
  | 'z' :: r => some (0, r)
  | _ => do
      let (west, r) ← offsetSign? cs
      let (h, r) ← number? 2 2 r
      let r ← mark? ':' r
      let (m, r) ← offsetMinutes? r
      let s : Int := (h * 60 + m) * 60
      return (if west then -s else s, r)

/- The letter or the space between a date and a time. -/
def separator? : List Char → Option (List Char)
  | c :: r =>
      if c = 'T' ∨ c = 't' ∨ c = ' ' then some r else none
  | [] => none

/-
  A local reading and its offset, in exact widths.  An offset
  is less than a day.
-/
def moment?
    (cs : List Char) :
    Option ((Timestamp × Int) × List Char) := do
  let (y, r) ← number? 4 4 cs
  let r ← mark? '-' r
  let (mo, r) ← number? 2 2 r
  let r ← mark? '-' r
  let (d, r) ← number? 2 2 r
  let r ← separator? r
  let (h, r) ← number? 2 2 r
  let r ← mark? ':' r
  let (mi, r) ← number? 2 2 r
  let r ← mark? ':' r
  let (s, r) ← number? 2 2 r
  let (n, r) ← optionalFraction? r
  let (o, r) ← offset? r
  let date ← Date.of? y mo d
  let time ← clockTime? h mi s n
  if 86400 ≤ o.natAbs then none
  else some ((⟨date, time⟩, o), r)

end Reading

------------------------------------------------------------
-- Whole texts
------------------------------------------------------------

def Date.ofText? (s : String) : Option Date :=
  Reading.whole? (Reading.date? s.toList)

def Time.ofText? (s : String) : Option Time :=
  Reading.whole? (Reading.time? s.toList)

namespace Timestamp

/- A date, what stands between, and a time. -/
def readWith?
    (between : List Char → Option (List Char))
    (cs : List Char) : Option Timestamp :=
  Reading.whole? <| do
    let (date, r) ← Reading.date? cs
    let r ← between r
    let (time, r) ← Reading.time? r
    return (⟨date, time⟩, r)

/-
  A date and a time with white space, or with the letter T,
  between.
-/
def ofText? (s : String) : Option Timestamp :=
  (readWith? (some ∘ Reading.skipBlanks) s.toList).or
    (readWith? (Reading.mark? 'T') s.toList)

/- The moment in UTC of a local reading with its offset. -/
def utcOfOffset?
    (p : Timestamp × Int) : Option Timestamp :=
  p.1.later? (-p.2)

/-
  A moment in UTC: a local reading with its offset, or a
  timestamp without one.
-/
def utcOfText? (s : String) : Option Timestamp :=
  ((Reading.whole? (Reading.moment? s.toList)).bind
    utcOfOffset?).or (ofText? s)

end Timestamp

end Failover
