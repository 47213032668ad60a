/-
  Binary floating-point numbers: a sign, a whole significand
  and an exponent of two.  Arithmetic is exact on the ratios
  of whole numbers that finite ones denote, followed by one
  rounding to the nearest number of a format.

  Key definitions include:
    * `Floating.Format`
    * `Floating`
    * `Floating.numerator`, `Floating.denominator`
    * `Floating.nearest`
    * `Floating.Format.round`
    * `Floating.roundHalfAway`
-/

namespace Failover

/-
  A finite number denotes `significand * 2 ^ exponent`, and
  is negated by its sign; zero has a sign too.
-/
inductive Floating where
  | nan
  | infinite (negative : Bool)
  | finite
      (negative : Bool)
      (significand : Nat)
      (exponent : Int)
deriving DecidableEq, Repr

namespace Floating

------------------------------------------------------------
-- Formats
------------------------------------------------------------

/-
  The numbers of a format have fewer than
  `2 ^ precision` as significand and an exponent between the
  two bounds.
-/
structure Format where
  precision : Nat
  leastExponent : Int
  greatestExponent : Int
deriving DecidableEq, Repr

/- The format of 64 bits. -/
def Format.double : Format :=
  ⟨53, -1074, 971⟩

/- The format of 32 bits. -/
def Format.single : Format :=
  ⟨24, -149, 104⟩

------------------------------------------------------------
-- Views
------------------------------------------------------------

def zero : Floating :=
  .finite false 0 (-1074)

def isFinite : Floating → Bool
  | .finite _ _ _ => true
  | _ => false

/- Zero of either sign. -/
def isZero : Floating → Bool
  | .finite _ m _ => m == 0
  | _ => false

def isNegative : Floating → Bool
  | .nan => false
  | .infinite s => s
  | .finite s _ _ => s

def negate : Floating → Floating
  | .nan => .nan
  | .infinite s => .infinite (!s)
  | .finite s m e => .finite (!s) m e

/- The magnitude as a ratio, upper part. -/
def numerator : Floating → Nat
  | .finite _ m e => m * Nat.pow 2 e.toNat
  | _ => 0

/- The magnitude as a ratio, lower part. -/
def denominator : Floating → Nat
  | .finite _ _ e => Nat.pow 2 (-e).toNat
  | _ => 1

theorem denominator_pos (x : Floating) :
    0 < x.denominator := by
  unfold denominator
  split
  · exact Nat.two_pow_pos _
  · decide

------------------------------------------------------------
-- Rounding a ratio
------------------------------------------------------------

/- The whole number nearest to a ratio; a tie goes to even. -/
def nearest (n d : Nat) : Nat :=
  let q := n / d
  let r := n % d
  if 2 * r < d then q
  else if d < 2 * r then q + 1
  else if q % 2 = 0 then q
  else q + 1

/- The exponent of the greatest power of two in a ratio. -/
def logRatio (n d : Nat) : Int :=
  let top : Int := (Nat.log2 n : Int) - Nat.log2 d
  if d * Nat.pow 2 top.toNat ≤ n * Nat.pow 2 (-top).toNat
  then top
  else top - 1

/- The number of a format that is nearest to a ratio. -/
def Format.round
    (f : Format)
    (negative : Bool)
    (n d : Nat) : Floating :=
  if n = 0 then .finite negative 0 f.leastExponent
  else
    let e :=
      max f.leastExponent
        (logRatio n d - (f.precision - 1 : Int))
    let m :=
      nearest (n * Nat.pow 2 (-e).toNat)
        (d * Nat.pow 2 e.toNat)
    let full := m == Nat.pow 2 f.precision
    let m := if full then m / 2 else m
    let e := if full then e + 1 else e
    if f.greatestExponent < e then .infinite negative
    else .finite negative m e

/- A number rounded to a format. -/
def Format.convert
    (f : Format)
    (x : Floating) : Floating :=
  match x with
  | .finite s _ _ => f.round s x.numerator x.denominator
  | _ => x

/- The number of a format nearest to a whole number. -/
def Format.ofInt
    (f : Format)
    (n : Int) : Floating :=
  f.round (n < 0) n.natAbs 1

------------------------------------------------------------
-- Arithmetic
------------------------------------------------------------

/- The value of a finite number over its denominator. -/
def signedNumerator (x : Floating) : Int :=
  if x.isNegative then -(x.numerator : Int)
  else x.numerator

/- The difference of two finite numbers. -/
def subtract (x y : Floating) : Floating :=
  let n :=
    x.signedNumerator * y.denominator -
      y.signedNumerator * x.denominator
  Format.double.round (n < 0) n.natAbs
    (x.denominator * y.denominator)

/- The product of two finite numbers. -/
def multiply (x y : Floating) : Floating :=
  Format.double.round (x.isNegative != y.isNegative)
    (x.numerator * y.numerator)
    (x.denominator * y.denominator)

/- The quotient of two finite numbers, the second not zero. -/
def divide (x y : Floating) : Floating :=
  Format.double.round (x.isNegative != y.isNegative)
    (x.numerator * y.denominator)
    (x.denominator * y.numerator)

------------------------------------------------------------
-- Whole numbers
------------------------------------------------------------

/- The whole number nearest to a ratio; a tie goes up. -/
def nearestUp (n d : Nat) : Nat :=
  (2 * n + d) / (2 * d)

/-
  The whole number nearest to a finite number; a tie goes
  away from zero.
-/
def roundHalfAway (x : Floating) : Int :=
  let n := nearestUp x.numerator x.denominator
  if x.isNegative then -(n : Int) else n

/- The whole part of a finite number. -/
def truncate (x : Floating) : Int :=
  let n := x.numerator / x.denominator
  if x.isNegative then -(n : Int) else n

example :
    Format.double.round false 1 10 =
      .finite false 7205759403792794 (-56) := by
  decide +kernel

end Floating

end Failover
