import Failover.Text.Utf8

/-
  Bytes as pairs of hexadecimal digits.

  Key definitions include:
    * `Hex.digit`
    * `Hex.value?`
    * `Hex.encode`
    * `Hex.decode?`
-/

namespace Failover

namespace Hex

/- The lower-case digit of a number below sixteen. -/
def digit (n : Nat) : Char :=
  if n < 10 then Char.ofNat (48 + n)
  else Char.ofNat (87 + n)

/- The upper-case digit of a number below sixteen. -/
def upperDigit (n : Nat) : Char :=
  if n < 10 then Char.ofNat (48 + n)
  else Char.ofNat (55 + n)

/- The number of a digit of either case. -/
def value? (c : Char) : Option Nat :=
  if '0' ≤ c ∧ c ≤ '9' then some (c.toNat - 48)
  else if 'a' ≤ c ∧ c ≤ 'f' then some (c.toNat - 87)
  else if 'A' ≤ c ∧ c ≤ 'F' then some (c.toNat - 55)
  else none

/- Each byte as two lower-case digits. -/
def encode (bs : Bytes) : String :=
  String.ofList <| bs.flatMap fun b =>
    [digit (b.toNat / 16), digit (b.toNat % 16)]

/- The bytes of pairs of digits. -/
def decodeChars : List Char → Option Bytes
  | [] => some []
  | [_] => none
  | a :: b :: r => do
      let h ← value? a
      let l ← value? b
      let rest ← decodeChars r
      return (h * 16 + l).toUInt8 :: rest

def decode? (s : String) : Option Bytes :=
  decodeChars s.toList

end Hex

end Failover
