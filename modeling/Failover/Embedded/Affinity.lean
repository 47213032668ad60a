import Failover.Embedded.Stored
import Failover.Number.Numeral
import Failover.Number.Significant
import Failover.Text.Split

/-
  Affinities: what the declared type of a column does to the
  values stored in it.  Numbers become texts or texts become
  numbers where the column prefers it, and nothing is lost.

  Key definitions include:
    * `Affinity`, `Affinity.ofTypeName`
    * `Stored.realText`
    * `Stored.ofNumericText?`
    * `Stored.narrow`, `Stored.widen`
    * `Affinity.apply`
-/

namespace Failover

inductive Affinity where
  | none
  | text
  | numeric
  | integer
  | real
deriving DecidableEq, Repr

namespace Affinity

/-
  The affinity of a declared type: the first one of whose
  marks occurs in the type.  A missing type has none.
-/
def ofTypeName (name : String) : Affinity :=
  let cs := (Text.fold name).toList
  let has (part : String) := Text.includes part.toList cs
  if has "int" then .integer
  else if has "char" || has "clob" || has "text" then .text
  else if has "blob" || cs.isEmpty then .none
  else if has "real" || has "floa" || has "doub" then .real
  else .numeric

end Affinity

namespace Stored

------------------------------------------------------------
-- Texts of numbers
------------------------------------------------------------

/- Digits after a point, without the zeros at their end. -/
def decimals (ds : List Char) : List Char :=
  match (ds.reverse.dropWhile (· == '0')).reverse with
  | [] => ['.', '0']
  | ds => '.' :: ds

/- An exponent has a sign and at least two digits. -/
def exponentText (k : Int) : List Char :=
  'e' :: (if k < 0 then '-' else '+') ::
    Decimal.padded 2 k.natAbs

/-
  The digits of a number whose first one counts a power of
  ten.  Sizes from a ten-thousandth up to the number of
  digits are written without an exponent.
-/
def digitsText
    (ds : List Char)
    (size : Int) : List Char :=
  if size < -4 ∨ (ds.length : Int) ≤ size then
    ds.take 1 ++ decimals (ds.drop 1) ++ exponentText size
  else if size < 0 then
    '0' :: decimals
      (List.replicate (-size - 1).toNat '0' ++ ds)
  else
    ds.take (size + 1).toNat ++
      decimals (ds.drop (size + 1).toNat)

/-
  The text of a real number: fifteen digits, of which the
  last zeros are dropped, with a digit on both sides of the
  point.  Zero has no sign.
-/
def realText (x : Floating) : String :=
  match x with
  | .nan => ""
  | .infinite negative => if negative then "-Inf" else "Inf"
  | .finite negative m _ =>
      if m = 0 then "0.0"
      else
        let s := x.significant 15
        String.ofList <|
          (if negative then ['-'] else []) ++
            digitsText (Decimal.digits s.coefficient)
              (s.exponent + 14)

------------------------------------------------------------
-- Numbers
------------------------------------------------------------

/- The least and the greatest whole number. -/
def leastInteger : Int := Int64.minValue.toInt

def greatestInteger : Int := Int64.maxValue.toInt

/- The number is whole. -/
def isWhole (x : Floating) : Bool :=
  x.isFinite && x.numerator % x.denominator == 0

/-
  A real number that is whole becomes an integer, unless it
  is at an end of the range or past it.
-/
def narrow : Stored → Stored
  | .real x =>
      let n := x.truncate
      if isWhole x ∧ leastInteger < n ∧ n < greatestInteger
      then .integer n
      else .real x
  | s => s

/- An integer becomes a real number. -/
def widen : Stored → Stored
  | .integer n => .real (Floating.Format.double.ofInt n)
  | s => s

/- The blanks that may stand around a number. -/
def isNumberBlank (c : Char) : Bool :=
  c == ' ' || (9 ≤ c.toNat && c.toNat ≤ 13)

/-
  The number that a text denotes: an integer if it is one
  without point and exponent and in range, or else a real
  number, which may be whole.
-/
def ofNumericText? (s : String) : Option Stored :=
  let cs := Text.trimBoth isNumberBlank s.toList
  let real? :=
    (Numeral.read? cs).map fun n =>
      narrow (.real (n.round .double))
  match Decimal.integer? cs with
  | some n =>
      if leastInteger ≤ n ∧ n ≤ greatestInteger then
        some (.integer n)
      else real?
  | none => real?

/- Texts of numbers become numbers, integers if possible. -/
def toNumber : Stored → Stored
  | .text s => (ofNumericText? s).getD (.text s)
  | s => narrow s

/- Numbers become texts. -/
def toText : Stored → Stored
  | .integer n => .text (Decimal.render n)
  | .real x => .text (realText x)
  | s => s

end Stored

namespace Affinity

/- What is stored in a column of an affinity. -/
def apply (a : Affinity) (s : Stored) : Stored :=
  match a with
  | .none => s
  | .text => s.toText
  | .numeric => s.toNumber
  | .integer => s.toNumber
  | .real => s.toNumber.widen

example :
    Affinity.numeric.apply (.text " 1e3 ") =
      .integer 1000 := by
  decide +kernel

example :
    Affinity.text.apply (.real (.finite false 5 (-1))) =
      .text "2.5" := by
  decide +kernel

end Affinity

end Failover
