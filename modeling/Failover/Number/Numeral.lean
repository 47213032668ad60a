import Failover.Number.Shortest

/-
  The texts of floating-point numbers: numerals with an
  optional fraction and exponent, the words for infinity and
  for no number, and the plain positional notation.

  Key definitions include:
    * `Numeral`
    * `Numeral.read?`
    * `Numeral.round`
    * `Floating.ofText?`
    * `Floating.plain`
-/

namespace Failover

------------------------------------------------------------
-- Numerals
------------------------------------------------------------

/- The number `± coefficient * 10 ^ exponent`. -/
structure Numeral where
  negative : Bool
  coefficient : Nat
  exponent : Int
deriving DecidableEq, Repr

namespace Numeral

/- Digits around a point, at least one of them. -/
def readDigits?
    (cs : List Char) :
    Option ((Nat × Int) × List Char) :=
  let whole := cs.takeWhile Text.isDigit
  match cs.dropWhile Text.isDigit with
  | '.' :: r =>
      let part := r.takeWhile Text.isDigit
      if whole.isEmpty && part.isEmpty then none
      else
        some
          ((Decimal.ofDigits (whole ++ part),
            -(part.length : Int)),
            r.dropWhile Text.isDigit)
  | r =>
      if whole.isEmpty then none
      else some ((Decimal.ofDigits whole, 0), r)

/- An exponent after its mark, or nothing at all. -/
def readExponent? : List Char → Option Int
  | [] => some 0
  | c :: r =>
      if c = 'e' ∨ c = 'E' then Decimal.integer? r
      else none

/- A numeral without a sign: digits, then an exponent. -/
def readMagnitude?
    (negative : Bool)
    (cs : List Char) : Option Numeral := do
  let ((c, k), r) ← readDigits? cs
  let e ← readExponent? r
  return ⟨negative, c, k + e⟩

/- A numeral with an optional sign. -/
def read? (cs : List Char) : Option Numeral :=
  let (negative, r) := Decimal.takeSign cs
  readMagnitude? negative r

/-
  The number of a format nearest to a numeral.  Sizes out of
  reach of every format are told by the count of digits.
-/
def round
    (f : Floating.Format)
    (n : Numeral) : Floating :=
  let size :=
    n.exponent + (Decimal.digits n.coefficient).length
  if n.coefficient = 0 then
    .finite n.negative 0 f.leastExponent
  else if 400 < size then .infinite n.negative
  else if size < -400 then
    .finite n.negative 0 f.leastExponent
  else
    f.round n.negative
      (n.coefficient * Nat.pow 10 n.exponent.toNat)
      (Nat.pow 10 (-n.exponent).toNat)

end Numeral

namespace Floating

------------------------------------------------------------
-- Reading
------------------------------------------------------------

/-
  A number of a format: a sign, then a numeral or, in any
  ASCII case, a word.
-/
def ofChars?
    (f : Format)
    (cs : List Char) : Option Floating :=
  let (negative, r) := Decimal.takeSign cs
  let word := Text.fold (String.ofList r)
  if word = "inf" ∨ word = "infinity" then
    some (.infinite negative)
  else if word = "nan" then some .nan
  else (Numeral.readMagnitude? negative r).map (·.round f)

def ofText?
    (f : Format)
    (s : String) : Option Floating :=
  ofChars? f s.toList

------------------------------------------------------------
-- Writing
------------------------------------------------------------

/- Digits and an exponent of ten without an exponent mark. -/
def positional (s : Scientific) : List Char :=
  let ds := Decimal.digits s.coefficient
  let point : Int := ds.length + s.exponent
  if 0 ≤ s.exponent then
    ds ++ List.replicate s.exponent.toNat '0'
  else if 0 < point then
    ds.take point.toNat ++ '.' :: ds.drop point.toNat
  else
    '0' :: '.' :: (List.replicate (-point).toNat '0' ++ ds)

/-
  The plain text of a number of a format: the fewest digits
  that read back, a tie going up, never with an exponent.
-/
def plain
    (f : Format)
    (x : Floating) : String :=
  match x with
  | .nan => "NaN"
  | .infinite false => "inf"
  | .infinite true => "-inf"
  | .finite negative m e =>
      String.ofList <|
        (if negative then ['-'] else []) ++
          positional (shortest f .up m e)

example :
    plain .double (Numeral.round .double ⟨true, 15, -8⟩) =
      "-0.00000015" := by
  decide +kernel

end Floating

end Failover
