import Failover.Json.Printer
import Failover.Json.Reader
import Failover.Proofs.Number.Shortest

/-
  The numerals of JSON.  A numeral with digits in each of its
  parts, and without superfluous zeros in front, reads back;
  the digits of a floating number make such a numeral.

  Key definitions include:
    * `Json.Number.chars`
    * `Json.Number.IsFormed`
    * `Json.Number.ofInt`, `Json.Number.ofFloating?`

  Main statements:
    * `Json.Document.takeNumber?_chars`
    * `Json.Number.write_integer`
    * `Json.Number.write_float`
-/

namespace Failover

namespace Json

namespace Document

/- A numeral is not going on. -/
def Stops (rest : List Char) : Prop :=
  ∀ c cs, rest = c :: cs →
    Text.isDigit c = false ∧ c ≠ '.' ∧ c ≠ 'e' ∧ c ≠ 'E'

/- No other character goes on with a number. -/
theorem stops_cons
    {c : Char}
    (hC : Text.isDigit c = false ∧ c ≠ '.' ∧ c ≠ 'e' ∧ c ≠ 'E')
    (cs : List Char) : Stops (c :: cs) := by
  intro d ds hSame
  cases hSame
  exact hC

end Document

------------------------------------------------------------
-- Written numerals
------------------------------------------------------------

namespace Number

/- One or more digits. -/
structure AreDigits (ds : List Char) : Prop where
  nonempty : ds ≠ []
  digits : ∀ c ∈ ds, Text.isDigit c = true

/- A natural number is written in digits. -/
theorem areDigits_digits (n : Nat) :
    AreDigits (Decimal.digits n) where
  nonempty := Decimal.digits_ne_nil n
  digits _ := Decimal.isDigit_of_mem_digits

/- The text of a fraction, with its point. -/
def fractionChars : Option (List Char) → List Char
  | none => []
  | some ds => '.' :: ds

/- The text of an exponent, with its mark and its sign. -/
def exponentChars : Option (Bool × List Char) → List Char
  | none => []
  | some (negative, ds) =>
      'e' :: (if negative then '-' else '+') :: ds

/- The text of a numeral after its sign. -/
def chars (n : Number) : List Char :=
  n.whole ++ (fractionChars n.fraction ++ exponentChars n.exponent)

/- Each part has digits, and zero is the only first zero. -/
structure IsFormed (n : Number) : Prop where
  whole : AreDigits n.whole
  noZeros : ∀ ds, n.whole = '0' :: ds → ds = []
  fraction : ∀ ds, n.fraction = some ds → AreDigits ds
  exponent : ∀ b ds, n.exponent = some (b, ds) → AreDigits ds

end Number

------------------------------------------------------------
-- Reading numerals
------------------------------------------------------------

namespace Document

open Number

/- Digits are taken up to what is none. -/
theorem takeDigits?_append
    {ds rest : List Char}
    (hDigits : AreDigits ds)
    (hRest : Numeral.StopsDigits rest) :
    takeDigits? (ds ++ rest) = some (ds, rest) := by
  obtain ⟨hTake, hDrop⟩ :=
    Numeral.takeDigits hDigits.digits hRest
  unfold takeDigits?
  simp only [hTake, hDrop]
  exact if_neg (by simpa using hDigits.nonempty)

/- A zero in front is a whole part by itself. -/
theorem takeWhole?_append
    {ds rest : List Char}
    (hDigits : AreDigits ds)
    (hZero : ∀ r, ds = '0' :: r → r = [])
    (hRest : Numeral.StopsDigits rest) :
    takeWhole? (ds ++ rest) = some (ds, rest) := by
  unfold takeWhole?
  split
  · next r hSame =>
    obtain ⟨c, cs, hDs⟩ :=
      List.exists_cons_of_ne_nil hDigits.nonempty
    rw [hDs, List.cons_append, List.cons.injEq] at hSame
    obtain ⟨rfl, rfl⟩ := hSame
    rw [hDs, hZero cs hDs]
    rfl
  · exact takeDigits?_append hDigits hRest

/- Where a number stops, digits stop. -/
theorem Stops.stopsDigits
    {rest : List Char}
    (hStops : Stops rest) : Numeral.StopsDigits rest := by
  intro c hC
  obtain ⟨cs, hRest⟩ := List.head?_eq_some_iff.mp hC
  exact (hStops c cs hRest).1

/- An exponent goes on with neither a digit nor a point. -/
theorem exponentChars_stops
    (x : Option (Bool × List Char))
    {rest : List Char}
    (hStops : Stops rest) :
    ∀ c ∈ (exponentChars x ++ rest).head?,
      Text.isDigit c = false ∧ c ≠ '.' := by
  intro c hC
  cases x with
  | none =>
      obtain ⟨cs, hRest⟩ := List.head?_eq_some_iff.mp hC
      have hStop := hStops c cs hRest
      exact ⟨hStop.1, hStop.2.1⟩
  | some y =>
      cases hC
      decide

/- A fraction begins with a point, if there is one. -/
theorem fractionChars_stops
    (f : Option (List Char))
    {rest : List Char}
    (hRest : Numeral.StopsDigits rest) :
    Numeral.StopsDigits (fractionChars f ++ rest) := by
  cases f with
  | none => exact hRest
  | some ds =>
      intro c hC
      cases hC
      rfl

/- A fraction is taken with all its digits. -/
theorem takeFraction?_append
    {f : Option (List Char)}
    {rest : List Char}
    (hDigits : ∀ ds, f = some ds → AreDigits ds)
    (hRest : ∀ c ∈ rest.head?,
      Text.isDigit c = false ∧ c ≠ '.') :
    takeFraction? (fractionChars f ++ rest) = some (f, rest) := by
  cases f with
  | none =>
      change takeFraction? rest = _
      unfold takeFraction?
      split
      · next r => exact absurd rfl (hRest _ rfl).2
      · rfl
  | some ds =>
      have hTaken := takeDigits?_append (hDigits ds rfl)
        (fun c hC => (hRest c hC).1)
      change takeFraction? ('.' :: (ds ++ rest)) = _
      simp [takeFraction?, hTaken]

/-
  An exponent is read back from the text that is written for
  it, whatever follows that does not go on with the number.
-/
theorem takeExponent?_append
    {x : Option (Bool × List Char)}
    {rest : List Char}
    (hDigits : ∀ b ds, x = some (b, ds) → AreDigits ds)
    (hStops : Stops rest) :
    takeExponent? (exponentChars x ++ rest) =
      some (x, rest) := by
  cases x with
  | none =>
      change takeExponent? rest = _
      unfold takeExponent?
      split
      · rfl
      · next c r =>
        obtain ⟨-, -, hSmall, hGreat⟩ := hStops c r rfl
        exact if_neg (not_or.mpr ⟨hSmall, hGreat⟩)
  | some y =>
      obtain ⟨negative, ds⟩ := y
      have hTaken := takeDigits?_append
        (hDigits negative ds rfl) hStops.stopsDigits
      cases negative with
      | false =>
          change takeExponent? ('e' :: '+' :: (ds ++ rest)) = _
          simp [takeExponent?, Decimal.takeSign, hTaken]
      | true =>
          change takeExponent? ('e' :: '-' :: (ds ++ rest)) = _
          simp [takeExponent?, Decimal.takeSign, hTaken]

/- A well-formed numeral reads back. -/
theorem takeNumber?_chars
    {n : Number}
    {rest : List Char}
    (hFormed : n.IsFormed)
    (hStops : Stops rest) :
    takeNumber? n.negative (n.chars ++ rest) =
      some (n, rest) := by
  have hExponent := exponentChars_stops n.exponent hStops
  have hWhole := takeWhole?_append hFormed.whole hFormed.noZeros
    (fractionChars_stops n.fraction fun c hC =>
      (hExponent c hC).1)
  have hFraction := takeFraction?_append hFormed.fraction hExponent
  have hExponent' := takeExponent?_append hFormed.exponent hStops
  unfold takeNumber? Number.chars
  rw [List.append_assoc, List.append_assoc, hWhole]
  simp only [bind, Option.bind_some, hFraction, hExponent']
  rfl

end Document

------------------------------------------------------------
-- Floating numbers
------------------------------------------------------------

namespace Number

/- The numeral of some digits, with or without an exponent. -/
def ofScientific
    (negative : Bool)
    (s : Scientific) : Number :=
  let ds := Decimal.digits s.coefficient
  let top : Int := ds.length - 1 + s.exponent
  let point : Int := ds.length + s.exponent
  if -5 ≤ top ∧ top < 16 then
    if 0 ≤ s.exponent then
      ⟨negative, ds ++ List.replicate s.exponent.toNat '0',
        some ['0'], none⟩
    else if 0 < point then
      ⟨negative, ds.take point.toNat,
        some (ds.drop point.toNat), none⟩
    else
      ⟨negative, ['0'],
        some (List.replicate (-point).toNat '0' ++ ds), none⟩
  else
    ⟨negative, ds.take 1,
      if ds.length = 1 then none else some (ds.drop 1),
      some (top < 0, Decimal.digits top.natAbs)⟩

variable (negative : Bool) (s : Scientific)

/- The sign is that of the value. -/
theorem ofScientific_negative :
    (ofScientific negative s).negative = negative := by
  unfold ofScientific
  simp only
  split_ifs <;> rfl

/- A floating number is written as a numeral. -/
theorem magnitudeText_eq :
    magnitudeText s = (ofScientific negative s).chars := by
  unfold magnitudeText ofScientific Floating.positional
  simp only
  by_cases hPlain :
      -5 ≤ ((Decimal.digits s.coefficient).length : Int) - 1 +
        s.exponent ∧
      ((Decimal.digits s.coefficient).length : Int) - 1 +
        s.exponent < 16
  · rw [if_pos hPlain, if_pos hPlain]
    split_ifs <;> simp [chars, fractionChars, exponentChars]
  · rw [if_neg hPlain, if_neg hPlain]
    generalize ((Decimal.digits s.coefficient).length : Int) - 1 +
      s.exponent = top
    generalize hDs : Decimal.digits s.coefficient = ds
    have hSome := Decimal.digits_ne_nil s.coefficient
    rw [hDs] at hSome
    match ds with
    | [] => exact absurd rfl hSome
    | [d] => simp [chars, fractionChars, exponentChars]
    | d :: c :: r => simp [chars, fractionChars, exponentChars]

/- The first digits of a number are digits. -/
theorem areDigits_take
    {ds : List Char}
    (hDigits : AreDigits ds)
    {k : Nat}
    (hK : 0 < k) : AreDigits (ds.take k) where
  nonempty := by
    rw [Ne, List.take_eq_nil_iff, not_or]
    exact ⟨hK.ne', hDigits.nonempty⟩
  digits c hC := hDigits.digits c (List.mem_of_mem_take hC)

/- The last digits of a number are digits. -/
theorem areDigits_drop
    {ds : List Char}
    (hDigits : AreDigits ds)
    {k : Nat}
    (hK : k < ds.length) : AreDigits (ds.drop k) where
  nonempty := by
    rw [Ne, List.drop_eq_nil_iff]
    exact not_le.mpr hK
  digits c hC := hDigits.digits c (List.mem_of_mem_drop hC)

/- Digits with zeros beside them are digits. -/
theorem areDigits_zeros
    {ds : List Char}
    (hDigits : AreDigits ds)
    (k : Nat) :
    AreDigits (ds ++ List.replicate k '0') ∧
    AreDigits (List.replicate k '0' ++ ds) := by
  have hZeros : ∀ c ∈ List.replicate k '0',
      Text.isDigit c = true := by
    intro c hC
    rw [List.eq_of_mem_replicate hC]
    rfl
  refine ⟨⟨List.append_ne_nil_of_left_ne_nil
    hDigits.nonempty _, ?_⟩, ⟨List.append_ne_nil_of_right_ne_nil _
    hDigits.nonempty, ?_⟩⟩
  · exact List.forall_mem_append.mpr ⟨hDigits.digits, hZeros⟩
  · exact List.forall_mem_append.mpr ⟨hZeros, hDigits.digits⟩

/- The first digits of a number begin with zero only if it is. -/
theorem eq_nil_of_take
    {n k : Nat}
    {ds : List Char}
    (hTake : (Decimal.digits n).take k = '0' :: ds) : ds = [] := by
  obtain ⟨c, cs, hDigits, -⟩ := Decimal.digits_eq_cons n
  cases k with
  | zero => cases hTake
  | succ k =>
      rw [hDigits, List.take_succ_cons, List.cons.injEq] at hTake
      rw [hTake.1] at hDigits
      have hN := Decimal.eq_zero_of_digits hDigits
      subst hN
      cases hDigits
      rw [← hTake.2, List.take_nil]

variable {s} in
/- Decimals are written in the form of numbers. -/
theorem isFormed_ofScientific
    (hZero : s.coefficient = 0 → s.exponent = 0) :
    (ofScientific negative s).IsFormed := by
  have hDigits := areDigits_digits s.coefficient
  have hLength : 0 < (Decimal.digits s.coefficient).length :=
    List.length_pos_of_ne_nil hDigits.nonempty
  have hZeroDigit : AreDigits ['0'] :=
    ⟨List.cons_ne_nil _ _, by simp [Text.isDigit]⟩
  have hNone (ds : List Char) (h : none = some ds) :
      AreDigits ds := by cases h
  have hNoExponent (b : Bool) (ds : List Char)
      (h : none = some (b, ds)) : AreDigits ds := by cases h
  unfold ofScientific
  simp only
  split_ifs with hPlain hWhole hPoint hOne
  · -- zeros in front of the point
    refine ⟨(areDigits_zeros hDigits _).1, ?_, ?_, hNoExponent⟩
    · intro ds hFirst
      obtain ⟨c, cs, hCs, -⟩ :=
        Decimal.digits_eq_cons s.coefficient
      rw [hCs, List.cons_append, List.cons.injEq] at hFirst
      rw [hFirst.1] at hCs
      have hCoefficient := Decimal.eq_zero_of_digits hCs
      rw [hCoefficient] at hCs
      cases hCs
      rw [← hFirst.2, hZero hCoefficient]
      rfl
    · rintro ds ⟨rfl⟩
      exact hZeroDigit
  · -- digits on both sides of the point
    refine ⟨areDigits_take hDigits (by omega),
      fun ds => eq_nil_of_take, ?_, hNoExponent⟩
    rintro ds ⟨rfl⟩
    exact areDigits_drop hDigits (by omega)
  · -- nothing but zero in front of the point
    refine ⟨hZeroDigit, ?_, ?_, hNoExponent⟩
    · rintro ds ⟨rfl⟩
      rfl
    · rintro ds ⟨rfl⟩
      exact (areDigits_zeros hDigits _).2
  · refine ⟨areDigits_take hDigits (by decide),
      fun ds => eq_nil_of_take, hNone, ?_⟩
    rintro b ds ⟨rfl, rfl⟩
    exact areDigits_digits _
  · refine ⟨areDigits_take hDigits (by decide),
      fun ds => eq_nil_of_take, ?_, ?_⟩
    · rintro ds ⟨rfl⟩
      exact areDigits_drop hDigits (by omega)
    · rintro b ds ⟨rfl, rfl⟩
      exact areDigits_digits _

------------------------------------------------------------
-- Numbers
------------------------------------------------------------

/- The text of a numeral. -/
def signedChars (n : Number) : List Char :=
  (if n.negative then ['-'] else []) ++ n.chars

/- The numeral of a whole number. -/
def ofInt (n : Int) : Number :=
  ⟨n < 0, Decimal.digits n.natAbs, none, none⟩

/- The numeral of a floating number that is finite. -/
def ofFloating? : Floating → Option Number
  | .finite negative m e =>
      some (ofScientific negative
        (Floating.shortest .double .even m e))
  | _ => none

/- Whole numbers are written in the form of numbers. -/
theorem isFormed_ofInt (n : Int) : (ofInt n).IsFormed where
  whole := areDigits_digits _
  noZeros ds hFirst := by
    apply eq_nil_of_take (k := (Decimal.digits n.natAbs).length)
    rw [List.take_length]
    exact hFirst
  fraction := nofun
  exponent := nofun

/- Floating numbers are written in the form of numbers. -/
theorem isFormed_ofFloating
    {x : Floating}
    {n : Number}
    (hNumber : ofFloating? x = some n) : n.IsFormed := by
  cases x with
  | nan => cases hNumber
  | infinite negative => cases hNumber
  | finite negative m e =>
      cases hNumber
      exact isFormed_ofScientific _ Floating.shortest_eq_zero

/- A whole number is written as its numeral. -/
theorem write_integer (n : Int) :
    (Json.integer n).write = (ofInt n).signedChars := by
  have hChars : (ofInt n).chars = Decimal.digits n.natAbs := by
    simp [chars, ofInt, fractionChars, exponentChars]
  unfold write signedChars
  rw [Decimal.render_toList, hChars, ofInt]
  by_cases hNegative : n < 0 <;> simp [hNegative]

/- A floating number is written so, or as null. -/
theorem write_float (x : Floating) :
    (Json.float x).write =
      ((ofFloating? x).map signedChars).getD
        ['n', 'u', 'l', 'l'] := by
  cases x with
  | nan => rfl
  | infinite negative => rfl
  | finite negative m e =>
      simp only [write, floatText, ofFloating?, Option.map_some,
        Option.getD_some, signedChars, ofScientific_negative,
        magnitudeText_eq negative]

/- A number that fits 64 bits is the value of its digits. -/
theorem whole?_ofInt
    {n : Int}
    (hLeast : Int64.minValue.toInt ≤ n)
    (hGreatest : n < UInt64.size) :
    (ofInt n).whole? = some n := by
  have hWord : greatestWord = UInt64.size - 1 :=
    rfl
  have hHalf :
      Int64.minValue.toInt = -(Int64.size / 2 : Nat) := by
    decide
  have hIsWhole : (ofInt n).isWhole = true :=
    rfl
  unfold whole?
  rw [hIsWhole]
  simp only [ofInt, Decimal.ofDigits_digits, hWord,
    Bool.not_true, Bool.false_eq_true, if_false,
    decide_eq_true_eq]
  by_cases hNegative : n < 0
  · rw [if_pos hNegative, if_neg (by omega)]
    congr 1
    omega
  · rw [if_neg hNegative, if_neg (by omega)]
    congr 1
    omega

/- A well-formed numeral begins with a sign or a digit. -/
theorem signedChars_eq_cons
    {n : Number}
    (hFormed : n.IsFormed) :
    ∃ c cs, n.signedChars = c :: cs ∧
      (c = '-' ∨ Text.isDigit c = true) := by
  obtain ⟨c, cs, hWhole⟩ :=
    List.exists_cons_of_ne_nil hFormed.whole.nonempty
  have hDigit : Text.isDigit c = true :=
    hFormed.whole.digits c (by rw [hWhole]; exact .head _)
  unfold signedChars chars
  cases n.negative with
  | true => exact ⟨_, _, rfl, .inl rfl⟩
  | false =>
      rw [hWhole]
      exact ⟨_, _, rfl, .inr hDigit⟩

end Number

end Json

end Failover
