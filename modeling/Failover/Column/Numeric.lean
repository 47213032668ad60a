import Failover.Number.Decimal
import Failover.Text.Utf8

/-
  The text of PostgreSQL's binary NUMERIC values.  A value
  has four header words (the count of digits, the weight of
  the first one, the sign, the count of decimals) and digits
  to the base 10000.

  Key definitions include:
    * `Numeric.Error`
    * `Numeric.word`, `Numeric.group`
    * `Numeric.whole`, `Numeric.decimals`
    * `Numeric.decode`
-/

namespace Failover

namespace Numeric

/- Why bytes are no value. -/
inductive Error where
  | tooShort
  | truncated
deriving DecidableEq, Repr

def Error.message : Error → String
  | .tooShort => "NUMERIC value too short"
  | .truncated => "NUMERIC value truncated"

/- The signed word at a place, or zero past the end. -/
def word
    (bs : Bytes)
    (i : Nat) : Int :=
  let n :=
    (bs[i]?.getD 0).toNat * 256 + (bs[i + 1]?.getD 0).toNat
  if n < Int16.size / 2 then n else (n : Int) - Int16.size

/- A digit to the base 10000 in four characters. -/
def group (d : Int) : List Char :=
  if d < 0 then '-' :: Decimal.padded 3 d.natAbs
  else Decimal.padded 4 d.natAbs

/- The digit at a place before or after the last one is 0. -/
def digitAt
    (ds : List Int)
    (place : Int) : Int :=
  if place < 0 then 0 else (ds[place.toNat]?).getD 0

/- The whole part: the digits up to the weight. -/
def whole
    (ds : List Int)
    (weight : Int) : List Char :=
  let all :=
    (List.range (weight + 1).toNat).map fun (i : Nat) =>
      digitAt ds i
  match all.dropWhile (· == 0) with
  | [] => ['0']
  | d :: r => (Decimal.render d).toList ++ r.flatMap group

/- The first decimals of the digits past the weight. -/
def decimals
    (ds : List Int)
    (weight : Int)
    (scale : Nat) : List Char :=
  ((List.range ((scale + 3) / 4)).flatMap fun (i : Nat) =>
    group (digitAt ds (weight + 1 + i))).take scale

/- The text of a value. -/
def decode (bs : Bytes) : Except Error String :=
  if bs.length < 8 then .error .tooShort
  else
    let count := (word bs 0).toNat
    let weight := word bs 2
    let sign := word bs 4
    let scale := (word bs 6).toNat
    if sign = 0xC000 - 0x10000 then .ok "NaN"
    else if bs.length < 8 + count * 2 then .error .truncated
    else
      let ds :=
        (List.range count).map fun i => word bs (8 + i * 2)
      .ok <| String.ofList <|
        (if sign = 0x4000 then ['-'] else []) ++
          whole ds weight ++
          (if scale = 0 then []
            else '.' :: decimals ds weight scale)

end Numeric

end Failover
