import Failover.Proofs.Calendar.DayNumber
import Failover.Calendar.Reading
import Failover.Proofs.Number.Literal
import Failover.Proofs.Text.Trim

/-
  Reading dates and times that were written.  Each reader finds
  the part that was written and leaves what follows, provided
  that the following text does not go on with the last number.
  Of a time it finds what the text says: leap nanoseconds that
  do not follow the last second of a minute are written as the
  next second, and are read as that.

  Key definitions include:
    * `Reading.EndsSecond`
    * `Time.LeapsLast`, `Time.carried`

  Main statements:
    * `Reading.date?_writeChars`
    * `Reading.time?_writeChars`
    * `Reading.moment?_writeUtc`
    * `Date.ofText?_write`, `Time.ofText?_write`
    * `Timestamp.ofText?_write`
    * `Timestamp.utcOfText?_writeUtc`
-/

namespace Failover

namespace Reading

open Numeral (StopsDigits)

------------------------------------------------------------
-- Numbers
------------------------------------------------------------

/-
  A text that begins with no digit begins with none when it is
  cut.
-/
theorem stopsDigits_take
    {rest : List Char}
    (hRest : StopsDigits rest)
    (k : Nat) : StopsDigits (rest.take k) := by
  intro c hC
  rw [List.head?_take] at hC
  split_ifs at hC
  · cases hC
  · exact hRest c hC

/-
  Digits are read as a number if there are as many as may be
  read, or if no digit follows.
-/
theorem number?_digits
    {least most : Nat}
    {ds rest : List Char}
    (hDigits : ∀ c ∈ ds, Text.isDigit c = true)
    (hLeast : least ≤ ds.length)
    (hMost : ds.length ≤ most)
    (hStop : ds.length = most ∨ StopsDigits rest) :
    number? least most (ds ++ rest) =
      some (Decimal.ofDigits ds, rest) := by
  have hRest : StopsDigits (rest.take (most - ds.length)) := by
    rcases hStop with hFull | hRest
    · rw [hFull, Nat.sub_self, List.take_zero]
      exact fun c hC => nomatch hC
    · exact stopsDigits_take hRest _
  have hTake : ((ds ++ rest).take most).takeWhile Text.isDigit =
      ds := by
    rw [List.take_append, List.take_of_length_le hMost]
    exact (Numeral.takeDigits hDigits hRest).1
  unfold number?
  simp only [hTake, if_neg (Nat.not_lt.mpr hLeast),
    List.drop_left]

/- A number with leading zeros is read in its exact width. -/
theorem number?_padded
    {w n : Nat}
    (hWidth : 0 < w)
    (hN : n < 10 ^ w)
    (rest : List Char) :
    number? w w (Decimal.padded w n ++ rest) = some (n, rest) := by
  have hLength := Decimal.length_padded hWidth hN
  rw [number?_digits (fun c => Decimal.isDigit_of_mem_padded)
    (Nat.le_of_eq hLength.symm) (Nat.le_of_eq hLength)
    (.inl hLength), Decimal.ofDigits_padded]

/- No white space is skipped in front of digits. -/
theorem skipBlanks_padded
    (w n : Nat)
    (rest : List Char) :
    skipBlanks (Decimal.padded w n ++ rest) =
      Decimal.padded w n ++ rest := by
  obtain ⟨c, cs, hPadded, hC⟩ := Decimal.padded_eq_cons w n
  rw [hPadded]
  exact List.dropWhile_cons_of_neg (by
    rw [Text.isBlank_of_isDigit hC]
    exact Bool.false_ne_true)

/- A field of two digits is read. -/
theorem field?_padded
    {n : Nat}
    (hN : n < 100)
    (rest : List Char) :
    field? (Decimal.padded 2 n ++ rest) = some (n, rest) := by
  have hLength := Decimal.length_padded (w := 2) (by decide) hN
  rw [field?, skipBlanks_padded,
    number?_digits (fun c => Decimal.isDigit_of_mem_padded)
      (by omega) (by omega) (.inl hLength),
    Decimal.ofDigits_padded]

------------------------------------------------------------
-- Years
------------------------------------------------------------

/- A year without a sign has four digits. -/
theorem year?_unsigned
    {n : Nat}
    (hN : n < 10000)
    (rest : List Char) :
    year? (Decimal.padded 4 n ++ rest) = some ((n : Int), rest) := by
  have hNumber := number?_padded (w := 4) (by decide) hN rest
  have hLength := Decimal.length_padded (w := 4) (by decide) hN
  have hOne : number? 1 4 (Decimal.padded 4 n ++ rest) =
      some (n, rest) := by
    rw [number?_digits (fun c => Decimal.isDigit_of_mem_padded)
      (by omega) (by omega) (.inl hLength),
      Decimal.ofDigits_padded]
  obtain ⟨c, cs, hPadded, hC⟩ := Decimal.padded_eq_cons 4 n
  have hBare := Decimal.isBare_of_isDigit (r := cs) hC c rfl
  unfold year?
  rw [skipBlanks_padded]
  split
  · next h =>
      rw [hPadded] at h
      exact absurd (List.cons.inj h).1 hBare.2
  · next h =>
      rw [hPadded] at h
      exact absurd (List.cons.inj h).1 hBare.1
  · rw [hOne]
    rfl

/- A signed number is read with all its digits. -/
theorem number?_signed
    (n : Nat)
    {rest : List Char}
    (hRest : StopsDigits rest) :
    number? 1 (Decimal.padded 4 n ++ rest).length
      (Decimal.padded 4 n ++ rest) = some (n, rest) := by
  obtain ⟨c, cs, hPadded, -⟩ := Decimal.padded_eq_cons 4 n
  have hSome : 1 ≤ (Decimal.padded 4 n).length := by
    rw [hPadded, List.length_cons]
    omega
  have hMost : (Decimal.padded 4 n).length ≤
      (Decimal.padded 4 n ++ rest).length := by
    rw [List.length_append]
    omega
  rw [number?_digits (fun c => Decimal.isDigit_of_mem_padded)
    hSome hMost (.inr hRest), Decimal.ofDigits_padded]

theorem year?_minus (cs : List Char) :
    year? ('-' :: cs) =
      (number? 1 cs.length cs).map fun (n, r) =>
        (-(n : Int), r) := rfl

theorem year?_plus (cs : List Char) :
    year? ('+' :: cs) =
      (number? 1 cs.length cs).map fun (n, r) =>
        ((n : Int), r) := rfl

/- A year is read as it was written, with its sign. -/
theorem year?_writeYear
    (y : Int)
    {rest : List Char}
    (hRest : StopsDigits rest) :
    year? (Date.writeYear y ++ rest) = some (y, rest) := by
  unfold Date.writeYear
  split_ifs with hShort hNegative
  · rw [year?_unsigned (by omega)]
    congr 2
    omega
  · have hYear : -(y.natAbs : Int) = y := by omega
    rw [List.cons_append, year?_minus, number?_signed _ hRest]
    simp only [Option.map_some, hYear]
  · have hYear : (y.natAbs : Int) = y := by omega
    rw [List.cons_append, year?_plus, number?_signed _ hRest]
    simp only [Option.map_some, hYear]

------------------------------------------------------------
-- Fractions
------------------------------------------------------------

/- A text that does not go on with a second of a time. -/
def EndsSecond (cs : List Char) : Prop :=
  ∀ c ∈ cs.head?, Text.isDigit c = false ∧ c ≠ '.'

theorem EndsSecond.stopsDigits
    {cs : List Char}
    (h : EndsSecond cs) : StopsDigits cs :=
  fun c hC => (h c hC).1

/- The digits of a fraction stand for its nanoseconds. -/
theorem fraction?_padded
    {w n : Nat}
    (hWidth : 0 < w)
    (hNine : w ≤ 9)
    (hN : n < 10 ^ w)
    {rest : List Char}
    (hRest : StopsDigits rest) :
    optionalFraction? ('.' :: (Decimal.padded w n ++ rest)) =
      some (n * 10 ^ (9 - w), rest) := by
  have hLength := Decimal.length_padded hWidth hN
  have hDigits : ∀ c ∈ Decimal.padded w n,
      Text.isDigit c = true :=
    fun c => Decimal.isDigit_of_mem_padded
  have hTake :
      ((Decimal.padded w n ++ rest).take 9).takeWhile
        Text.isDigit = Decimal.padded w n := by
    rw [List.take_append, hLength,
      List.take_of_length_le (by omega)]
    exact (Numeral.takeDigits hDigits
      (stopsDigits_take hRest _)).1
  have hSome : (Decimal.padded w n).isEmpty = false := by
    obtain ⟨c, cs, hPadded, -⟩ := Decimal.padded_eq_cons w n
    rw [hPadded]
    rfl
  unfold optionalFraction? fraction?
  simp only [hTake, hSome, hLength, Decimal.ofDigits_padded,
    (Numeral.takeDigits hDigits hRest).2]
  rfl

/- A fraction is read in as many digits as it has. -/
theorem optionalFraction?_writeFraction
    {n : Nat}
    (hN : n < Time.second)
    {rest : List Char}
    (hRest : EndsSecond rest) :
    optionalFraction? (Time.writeFraction n ++ rest) =
      some (n, rest) := by
  have hStop := hRest.stopsDigits
  unfold Time.second at hN
  unfold Time.writeFraction
  split_ifs with hZero hMilli hMicro
  · rw [hZero, List.nil_append]
    unfold optionalFraction?
    split
    · exact absurd rfl (hRest _ rfl).2
    · rfl
  · rw [List.cons_append,
      fraction?_padded (by decide) (by decide) (by omega) hStop]
    congr 2
    omega
  · rw [List.cons_append,
      fraction?_padded (by decide) (by decide) (by omega) hStop]
    congr 2
    omega
  · rw [List.cons_append,
      fraction?_padded (by decide) (by decide) hN hStop]
    congr 2
    omega

------------------------------------------------------------
-- Dates
------------------------------------------------------------

/- A date is read up to what follows it. -/
theorem date?_writeChars
    (t : Date)
    (rest : List Char) :
    date? (t.writeChars ++ rest) = some (t, rest) := by
  obtain ⟨-, -, -, hMonth, -, hDay⟩ := t.valid
  have hMost := (Date.isMonthDay hDay).common
  have hYear (r : List Char) : year? (Date.writeYear t.year ++
      '-' :: r) = some (t.year, '-' :: r) := by
    apply year?_writeYear
    intro c hC
    cases hC
    rfl
  have hOf : Date.of? t.year t.month t.day = some t :=
    dif_pos t.valid
  unfold date? Date.writeChars
  simp only [List.append_assoc, List.cons_append, hYear,
    field?_padded (show t.month < 100 by omega),
    field?_padded (show t.day < 100 by omega), mark?,
    Option.bind_eq_bind, Option.bind_some, if_true, hOf]
  rfl

------------------------------------------------------------
-- Times
------------------------------------------------------------

end Reading

namespace Time

/- A leap second follows the last second of a minute. -/
def LeapsLast (t : Time) : Prop :=
  second ≤ t.nanosecond → t.seconds = 59

/-
  The time that the text of a time says: a leap second inside
  of a minute is the next second of it.
-/
def carried (t : Time) : Time :=
  if v : second ≤ t.nanosecond ∧ t.seconds ≠ 59 then
    { hour := t.hour
      minute := t.minute
      seconds := t.seconds + 1
      nanosecond := t.nanosecond - second
      valid := by
        obtain ⟨hHour, hMinute, hSecond, hNano⟩ := t.valid
        exact ⟨hHour, hMinute, by omega, by omega⟩ }
  else t

/- A text says another time exactly of a leap second inside. -/
theorem carried_eq_iff {t : Time} :
    t.carried = t ↔ t.LeapsLast := by
  unfold carried LeapsLast
  split
  · next hInside =>
    constructor
    · intro hSame
      have hSeconds := congrArg seconds hSame
      exact absurd hSeconds (Nat.succ_ne_self _)
    · exact fun hLast => absurd (hLast hInside.1) hInside.2
  · next hOutside =>
    refine iff_of_true rfl fun hLeap => ?_
    exact not_not.mp fun hInside => hOutside ⟨hLeap, hInside⟩

end Time

namespace Reading

/- The second of a time as it is written. -/
def writtenSecond (t : Time) : Nat :=
  t.seconds + if Time.second ≤ t.nanosecond then 1 else 0

/- The second has two digits, also a leap second. -/
theorem writtenSecond_lt (t : Time) : writtenSecond t < 100 := by
  obtain ⟨-, -, hSecond, -⟩ := t.valid
  unfold writtenSecond
  split_ifs <;> omega

/- A leap second is found again at the end of a minute. -/
theorem clockTime?_writtenSecond (t : Time) :
    clockTime? t.hour t.minute (writtenSecond t)
      (t.nanosecond % Time.second) = some t.carried := by
  obtain ⟨hHour, hMinute, hSecond, hNano⟩ := t.valid
  unfold clockTime? writtenSecond Time.carried Time.of?
  by_cases hLeap : Time.second ≤ t.nanosecond
  · have hRest : t.nanosecond % Time.second =
        t.nanosecond - Time.second := by
      rw [Nat.mod_eq_sub_mod hLeap]
      exact Nat.mod_eq_of_lt (by omega)
    have hWhole : t.nanosecond - Time.second + Time.second =
        t.nanosecond := Nat.sub_add_cancel hLeap
    by_cases hLast : t.seconds = 59
    · rw [if_pos hLeap, if_pos (by omega), hRest, hWhole,
        dif_pos ⟨⟨hHour, hMinute, by decide, hNano⟩,
          fun _ => rfl⟩,
        dif_neg fun hInside => hInside.2 hLast]
      simp only [← hLast]
    · rw [if_pos hLeap, if_neg (by omega), hRest,
        dif_pos ⟨⟨hHour, hMinute, by omega, by omega⟩,
          fun hMore => by omega⟩,
        dif_pos ⟨hLeap, hLast⟩]
  · have hRest : t.nanosecond % Time.second = t.nanosecond :=
      Nat.mod_eq_of_lt (Nat.not_le.mp hLeap)
    rw [if_neg hLeap, Nat.add_zero, if_neg (by omega), hRest,
      dif_pos ⟨t.valid, fun hMore => absurd hMore hLeap⟩,
      dif_neg fun hInside => hLeap hInside.1]

/- A time is written part by part. -/
theorem writeChars_eq (t : Time) :
    t.writeChars = Decimal.padded 2 t.hour ++
      ':' :: (Decimal.padded 2 t.minute ++
        ':' :: (Decimal.padded 2 (writtenSecond t) ++
          Time.writeFraction (t.nanosecond % Time.second))) := rfl

/- A time is read as the one that its text says. -/
theorem time?_writeChars
    (t : Time)
    {rest : List Char}
    (hRest : EndsSecond rest) :
    time? (t.writeChars ++ rest) = some (t.carried, rest) := by
  obtain ⟨hHour, hMinute, -⟩ := t.valid
  have hNano : t.nanosecond % Time.second < Time.second :=
    Nat.mod_lt _ (by decide)
  rw [writeChars_eq]
  unfold time?
  simp only [List.append_assoc, List.cons_append,
    field?_padded (show t.hour < 100 by omega),
    field?_padded (show t.minute < 100 by omega),
    field?_padded (writtenSecond_lt t), mark?,
    optionalFraction?_writeFraction hNano hRest,
    Option.bind_eq_bind, Option.bind_some, if_true,
    clockTime?_writtenSecond]
  rfl

------------------------------------------------------------
-- Moments
------------------------------------------------------------

/- The offset of a moment that is written in UTC. -/
def utcOffset : List Char := ['+', '0', '0', ':', '0', '0']

/- The offset of a moment ends its second. -/
theorem endsSecond_utcOffset : EndsSecond utcOffset := by
  intro c hC
  cases hC
  decide

/- A moment of the first ten thousand years is read strictly. -/
theorem moment?_writeUtc
    (t : Timestamp)
    (hFirst : 0 ≤ t.date.year)
    (hLast : t.date.year ≤ 9999) :
    moment? (t.date.writeChars ++ 'T' :: (t.time.writeChars ++
      utcOffset)) = some ((⟨t.date, t.time.carried⟩, 0), []) := by
  obtain ⟨-, -, -, hMonth, -, hDay⟩ := t.date.valid
  have hMost := (Date.isMonthDay hDay).common
  obtain ⟨hHour, hMinute, -⟩ := t.time.valid
  have hNano : t.time.nanosecond % Time.second < Time.second :=
    Nat.mod_lt _ (by decide)
  have hYear : Date.writeYear t.date.year =
      Decimal.padded 4 t.date.year.natAbs :=
    if_pos ⟨hFirst, hLast⟩
  have hOf : Date.of? t.date.year.natAbs t.date.month
      t.date.day = some t.date := by
    rw [Int.natAbs_of_nonneg hFirst]
    exact dif_pos t.date.valid
  have hOffset : offset? utcOffset = some (0, []) := by
    decide +kernel
  have hTwo {n : Nat} (hN : n < 100) (rest : List Char) :=
    number?_padded (w := 2) (by decide) hN rest
  rw [writeChars_eq, Date.writeChars, hYear]
  simp only [List.append_assoc, List.cons_append]
  unfold moment?
  refine Option.bind_eq_some_iff.mpr
    ⟨_, number?_padded (by decide) (by omega) _, ?_⟩
  refine Option.bind_eq_some_iff.mpr ⟨_, rfl, ?_⟩
  refine Option.bind_eq_some_iff.mpr ⟨_, hTwo (by omega) _, ?_⟩
  refine Option.bind_eq_some_iff.mpr ⟨_, rfl, ?_⟩
  refine Option.bind_eq_some_iff.mpr ⟨_, hTwo (by omega) _, ?_⟩
  refine Option.bind_eq_some_iff.mpr ⟨_, rfl, ?_⟩
  refine Option.bind_eq_some_iff.mpr ⟨_, hTwo (by omega) _, ?_⟩
  refine Option.bind_eq_some_iff.mpr ⟨_, rfl, ?_⟩
  refine Option.bind_eq_some_iff.mpr ⟨_, hTwo (by omega) _, ?_⟩
  refine Option.bind_eq_some_iff.mpr ⟨_, rfl, ?_⟩
  refine Option.bind_eq_some_iff.mpr
    ⟨_, hTwo (writtenSecond_lt _) _, ?_⟩
  refine Option.bind_eq_some_iff.mpr
    ⟨_, optionalFraction?_writeFraction hNano
      endsSecond_utcOffset, ?_⟩
  refine Option.bind_eq_some_iff.mpr ⟨_, hOffset, ?_⟩
  refine Option.bind_eq_some_iff.mpr ⟨_, hOf, ?_⟩
  refine Option.bind_eq_some_iff.mpr
    ⟨_, clockTime?_writtenSecond _, ?_⟩
  rfl

end Reading

------------------------------------------------------------
-- Whole texts
------------------------------------------------------------

open Reading

/- The end of the text ends the seconds of a time. -/
theorem endsSecond_nil : EndsSecond [] :=
  fun _ hC => nomatch hC

/- A whole text is read as the date it was written of. -/
theorem Date.ofText?_write (t : Date) :
    Date.ofText? t.write = some t := by
  have hRead := date?_writeChars t []
  rw [List.append_nil] at hRead
  rw [Date.ofText?, Date.write, String.toList_ofList, hRead]
  rfl

/-
  A time is read back with a leap second inside of a minute
  carried over to the next second.
-/
theorem Time.ofText?_write (t : Time) :
    Time.ofText? t.write = some t.carried := by
  have hRead := time?_writeChars t endsSecond_nil
  rw [List.append_nil] at hRead
  rw [Time.ofText?, Time.write, String.toList_ofList, hRead]
  rfl

namespace Timestamp

/- The first of the two loose formats reads what is written. -/
theorem ofText?_write (t : Timestamp) :
    ofText? t.write = some ⟨t.date, t.time.carried⟩ := by
  have hTime := time?_writeChars t.time endsSecond_nil
  rw [List.append_nil] at hTime
  have hBlank : skipBlanks (' ' :: t.time.writeChars) =
      t.time.writeChars := by
    rw [writeChars_eq]
    exact skipBlanks_padded ..
  have hRead : readWith? (some ∘ skipBlanks) t.write.toList =
      some ⟨t.date, t.time.carried⟩ := by
    unfold readWith? write
    rw [String.toList_ofList]
    simp only [date?_writeChars, Option.bind_eq_bind,
      Option.bind_some, Function.comp_apply, hBlank, hTime]
    rfl
  rw [ofText?, hRead]
  rfl

/- A moment in UTC is not moved by its offset. -/
theorem utcOfText?_writeUtc
    (t : Timestamp)
    (hFirst : 0 ≤ t.date.year)
    (hLast : t.date.year ≤ 9999) :
    utcOfText? t.writeUtc = some ⟨t.date, t.time.carried⟩ := by
  have hRead := moment?_writeUtc t hFirst hLast
  have hChars : t.writeUtc.toList = t.date.writeChars ++
      'T' :: (t.time.writeChars ++ utcOffset) :=
    String.toList_ofList
  have hLater (t : Timestamp) : utcOfOffset? (t, 0) = some t := by
    rw [utcOfOffset?, Int.neg_zero]
    exact t.later?_zero
  rw [utcOfText?, hChars, hRead]
  simp only [whole?, Option.bind_some, hLater]
  rfl

end Timestamp

end Failover
