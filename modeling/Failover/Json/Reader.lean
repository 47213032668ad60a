import Failover.Json.Document

/-
  The value of a JSON document.  Whole numerals that fit 64
  bits are whole numbers; other numerals become floating
  numbers by way of their leading digits.  Documents nested
  too deep, numbers out of range and strings that denote no
  text have no value.

  Key definitions include:
    * `Json.Number.whole?`
    * `Json.Number.value?`
    * `Json.Document.depth`
    * `Json.Document.value?`
    * `Json.ofText?`
-/

namespace Failover

namespace Json

------------------------------------------------------------
-- Numbers
------------------------------------------------------------

/- The greatest whole number of 64 bits. -/
def greatestWord : Nat := UInt64.size - 1

/-
  Digits are appended to a number as long as it fits 64 bits;
  the digits left over are given back.
-/
def appendDigits
    (n : Nat) : List Char → Nat × List Char
  | [] => (n, [])
  | c :: r =>
      let k := n * 10 + Decimal.digitValue c
      if greatestWord < k then (n, c :: r)
      else appendDigits k r

/- A power of ten as a floating number. -/
def powerOfTen (k : Nat) : Floating :=
  Numeral.round .double ⟨false, 1, k⟩

/- A quotient by a power of ten, in steps within range. -/
def scaleDown
    (x : Floating)
    (k : Nat) : Floating :=
  if k ≤ 308 then x.divide (powerOfTen k)
  else if x.isZero then x
  else scaleDown (x.divide (powerOfTen 308)) (k - 308)
termination_by k

/-
  A number times a power of ten, or nothing if that is out of
  range.
-/
def scale?
    (x : Floating)
    (k : Int) : Option Floating :=
  if k < 0 then some (scaleDown x k.natAbs)
  else if x.isZero then some x
  else if 308 < k then none
  else
    let y := x.multiply (powerOfTen k.toNat)
    if y.isFinite then some y else none

namespace Number

/- The numeral is written without fraction and exponent. -/
def isWhole (n : Number) : Bool :=
  n.fraction.isNone && n.exponent.isNone

/-
  The value of a whole numeral that fits 64 bits, with or
  without sign.  Minus zero is no whole number.
-/
def whole? (n : Number) : Option Int :=
  let k := Decimal.ofDigits n.whole
  if !n.isWhole then none
  else if n.negative then
    if k = 0 ∨ Int64.size / 2 < k then none else some (-(k : Int))
  else if greatestWord < k then none
  else some k

/-
  The leading digits that fit 64 bits, and the power of ten
  that the digits around the point leave.
-/
def leading (n : Number) : Nat × Int :=
  let (a, excess) := appendDigits 0 n.whole
  let part := n.fraction.getD []
  let (b, rest) := appendDigits a part
  (b, (excess.length : Int) - (part.length - rest.length))

/- The written exponent. -/
def exponentValue (n : Number) : Int :=
  match n.exponent with
  | none => 0
  | some (negative, ds) =>
      let k := Decimal.ofDigits ds
      if negative then -(k : Int) else k

/- A numeral as a floating number. -/
def float? (n : Number) : Option Floating :=
  let (k, e) := n.leading
  (scale? (Floating.Format.double.ofInt k)
    (e + n.exponentValue)).map fun x =>
      if n.negative then x.negate else x

def value? (n : Number) : Option Json :=
  match n.whole? with
  | some k => some (.integer k)
  | none => n.float?.map .float

end Number

------------------------------------------------------------
-- Documents
------------------------------------------------------------

/- The greatest nesting of arrays and objects with a value. -/
def depthLimit : Nat := 127

namespace Document

mutual

/- The nesting of arrays and objects. -/
def depth : Document → Nat
  | .array items => depthItems items + 1
  | .object members => depthMembers members + 1
  | _ => 0

def depthItems : List Document → Nat
  | [] => 0
  | d :: r => max (depth d) (depthItems r)

def depthMembers :
    List (Option String × Document) → Nat
  | [] => 0
  | (_, d) :: r => max (depth d) (depthMembers r)

end

mutual

/- The value of a document of any depth. -/
def shallowValue? : Document → Option Json
  | .null => some .null
  | .bool b => some (.bool b)
  | .number n => n.value?
  | .string s => s.map .string
  | .array items => (itemValues? items).map .array
  | .object members => (memberValues? members).map ofMembers

def itemValues? : List Document → Option (List Json)
  | [] => some []
  | d :: r => do
      let v ← shallowValue? d
      let vs ← itemValues? r
      return v :: vs

def memberValues? :
    List (Option String × Document) →
      Option (List (String × Json))
  | [] => some []
  | (n, d) :: r => do
      let n ← n
      let v ← shallowValue? d
      let ms ← memberValues? r
      return (n, v) :: ms

end

/- The value of a document. -/
def value? (d : Document) : Option Json :=
  if depthLimit < d.depth then none else d.shallowValue?

end Document

/- The value of a JSON text. -/
def ofText? (s : String) : Option Json :=
  (Document.ofText? s).bind Document.value?

end Json

end Failover
