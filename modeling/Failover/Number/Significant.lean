import Failover.Number.Shortest

/-
  Floating-point numbers rounded to a count of significant
  decimal digits.

  Key definitions include:
    * `Floating.reaches`
    * `Floating.decimalSize`
    * `Floating.significant`
-/

namespace Failover

namespace Floating

/- The ratio of two numbers is at least a power of ten. -/
def reaches
    (n d : Nat)
    (k : Int) : Bool :=
  Nat.pow 10 k.toNat * d ≤ n * Nat.pow 10 (-k).toNat

/-
  The exponent of the greatest power of ten in a ratio.  The
  power of two gives it up to one.
-/
def decimalSize (n d : Nat) : Int :=
  let k := logRatio n d * 30103 / 100000
  if reaches n d (k + 1) then k + 1
  else if reaches n d k then k
  else k - 1

/-
  The number with a count of digits that is nearest to the
  magnitude of a finite number, a tie going up.
-/
def significant
    (count : Nat)
    (x : Floating) : Scientific :=
  let n := x.numerator
  let d := x.denominator
  if n = 0 then ⟨0, 0⟩
  else
    let k := decimalSize n d - (count - 1 : Int)
    let c :=
      nearestUp (n * Nat.pow 10 (-k).toNat)
        (d * Nat.pow 10 k.toNat)
    if c = Nat.pow 10 count then ⟨c / 10, k + 1⟩ else ⟨c, k⟩

example :
    significant 3 (.finite false 19991 0) = ⟨200, 2⟩ := by
  decide +kernel

example :
    significant 2 (.finite false 1 (-3)) = ⟨13, -2⟩ := by
  decide +kernel

end Floating

end Failover
