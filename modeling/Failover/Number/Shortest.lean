import Failover.Number.Decimal
import Failover.Number.Floating

/-
  The fewest decimal digits that read back as a floating
  number.  The numbers that round to it form an interval; the
  coarsest grid of powers of ten with a point inside gives
  the digits, and of its two points around the number the
  nearer one is taken.

  Key definitions include:
    * `Scientific`
    * `Shortest.Tie`
    * `Shortest.interval`
    * `Shortest.onGrid?`
    * `Floating.shortest`
-/

namespace Failover

/- The number `coefficient * 10 ^ exponent`. -/
structure Scientific where
  coefficient : Nat
  exponent : Int
deriving DecidableEq, Repr

namespace Shortest

/- Which of two points at one distance is taken. -/
inductive Tie where
  | up
  | even
deriving DecidableEq, Repr

/-
  A number and the ends of its interval, as numerators over
  one common denominator.  The ends belong to the interval
  exactly when the significand is even.
-/
structure Interval where
  low : Nat
  value : Nat
  high : Nat
  denominator : Nat
  closed : Bool

/-
  The interval of `m * 2 ^ e` reaches half-way to each
  neighbour; below a power of two the neighbour is nearer.
-/
def interval
    (f : Floating.Format)
    (m : Nat)
    (e : Int) : Interval :=
  let below :=
    if m = Nat.pow 2 (f.precision - 1) ∧ f.leastExponent < e
    then 1 else 2
  let scale := Nat.pow 2 e.toNat
  { low := (4 * m - below) * scale
    value := 4 * m * scale
    high := (4 * m + 2) * scale
    denominator := 4 * Nat.pow 2 (-e).toNat
    closed := m % 2 = 0 }

/- The point `c * 10 ^ k` lies in the interval. -/
def Interval.holds
    (i : Interval)
    (c : Nat)
    (k : Int) : Bool :=
  let p := c * Nat.pow 10 k.toNat * i.denominator
  let s := Nat.pow 10 (-k).toNat
  if i.closed then i.low * s ≤ p && p ≤ i.high * s
  else i.low * s < p && p < i.high * s

/- The point of one grid that is taken, if one is inside. -/
def onGrid?
    (tie : Tie)
    (i : Interval)
    (k : Int) : Option Scientific :=
  let unit := Nat.pow 10 k.toNat * i.denominator
  let v := i.value * Nat.pow 10 (-k).toNat
  let c := v / unit
  let r := v % unit
  match i.holds c k, i.holds (c + 1) k with
  | false, false => none
  | true, false => some ⟨c, k⟩
  | false, true => some ⟨c + 1, k⟩
  | true, true =>
      if 2 * r < unit then some ⟨c, k⟩
      else if unit < 2 * r then some ⟨c + 1, k⟩
      else if tie = .even ∧ c % 2 = 0 then some ⟨c, k⟩
      else some ⟨c + 1, k⟩

/- The grids are tried from `10 ^ (least + n)` downward. -/
def search
    (tie : Tie)
    (i : Interval)
    (least : Int) : Nat → Scientific
  | 0 => (onGrid? tie i least).getD ⟨0, 0⟩
  | n + 1 =>
      match onGrid? tie i (least + (n + 1 : Nat)) with
      | some s => s
      | none => search tie i least n

end Shortest

/-
  The shortest decimal form of a finite number's magnitude.
  Seventeen digits always suffice, so twenty grids below the
  number's own size are enough.
-/
def Floating.shortest
    (f : Floating.Format)
    (tie : Shortest.Tie)
    (m : Nat)
    (e : Int) : Scientific :=
  if m = 0 then ⟨0, 0⟩
  else
    let top := (e + Nat.log2 m) * 30103 / 100000 + 1
    Shortest.search tie (Shortest.interval f m e)
      (top - 19) 20

example :
    Floating.shortest .double .up 7205759403792794 (-56) =
      ⟨1, -1⟩ := by
  decide +kernel

end Failover
