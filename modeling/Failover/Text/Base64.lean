import Failover.Text.Utf8

/-
  Bytes in the standard base 64 alphabet, padded to whole
  groups of four characters.

  Key definitions include:
    * `Base64.digit`
    * `Base64.encode`
-/

namespace Failover

namespace Base64

/- The character of a number below sixty-four. -/
def digit (n : Nat) : Char :=
  if n < 26 then Char.ofNat (65 + n)
  else if n < 52 then Char.ofNat (71 + n)
  else if n < 62 then Char.ofNat (n - 4)
  else if n = 62 then '+'
  else '/'

/- Three bytes make four characters. -/
def encodeBytes : Bytes → List Char
  | [] => []
  | [a] =>
      let n := a.toNat * 16
      [digit (n / 64), digit (n % 64), '=', '=']
  | [a, b] =>
      let n := (a.toNat * 256 + b.toNat) * 4
      [digit (n / 4096), digit (n / 64 % 64),
        digit (n % 64), '=']
  | a :: b :: c :: r =>
      let n := (a.toNat * 256 + b.toNat) * 256 + c.toNat
      digit (n / 262144) :: digit (n / 4096 % 64) ::
        digit (n / 64 % 64) :: digit (n % 64) ::
          encodeBytes r

def encode (bs : Bytes) : String :=
  String.ofList (encodeBytes bs)

example : encode [0x66, 0x6f, 0x6f, 0x62] = "Zm9vYg==" := by
  decide

end Base64

end Failover
