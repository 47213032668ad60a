import Failover.Text.Fold

/-
  Numbers in decimal digits: digit lists and their value, and
  the reading of whole numbers with a sign.

  Key definitions include:
    * `Decimal.ofDigits`
    * `Decimal.digits`
    * `Decimal.padded`
    * `Decimal.natural?`
    * `Decimal.integer?`
    * `Decimal.render`
-/

namespace Failover

namespace Decimal

/- The value of a digit character. -/
def digitValue (c : Char) : Nat :=
  c.toNat - 48

/- The number that a list of digits denotes. -/
def ofDigits (cs : List Char) : Nat :=
  cs.foldl (fun n c => n * 10 + digitValue c) 0

/- The decimal digits of a number, without leading zeros. -/
def digits (k : Nat) : List Char :=
  Nat.toDigits 10 k

/- A number with leading zeros up to a least width. -/
def padded (w k : Nat) : List Char :=
  let ds := digits k
  List.replicate (w - ds.length) '0' ++ ds

/- A whole number without a sign: one or more digits. -/
def natural? (cs : List Char) : Option Nat :=
  if cs.isEmpty || !cs.all Text.isDigit then none
  else some (ofDigits cs)

/- The sign of a numeral and what follows it. -/
def takeSign : List Char → Bool × List Char
  | '+' :: r => (false, r)
  | '-' :: r => (true, r)
  | r => (false, r)

/- A whole number with an optional sign. -/
def integer? (cs : List Char) : Option Int :=
  let (negative, r) := takeSign cs
  (natural? r).map fun n => if negative then -n else n

/- A whole number in digits, with a sign if negative. -/
def render (n : Int) : String :=
  String.ofList <|
    if n < 0 then '-' :: digits n.natAbs
    else digits n.natAbs

end Decimal

end Failover
