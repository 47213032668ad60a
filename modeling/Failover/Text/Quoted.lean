import Failover.Text.Hex

/-
  Text in double quotes.  A quote and a backslash get a
  backslash in front, and control characters are written by
  their number.

  Key definitions include:
    * `Text.escaped`
    * `Text.quoted`
-/

namespace Failover

namespace Text

/- A control character of ASCII or of the block behind it. -/
def isControl (c : Char) : Bool :=
  c.toNat < 0x20 || (0x7f ≤ c.toNat && c.toNat < 0xa0)

/- A number in hexadecimal digits. -/
def hexNumber (n : Nat) : List Char :=
  if _h : n < 16 then [Hex.digit n]
  else hexNumber (n / 16) ++ [Hex.digit (n % 16)]
termination_by n

/- How a character stands between quotes. -/
def escaped (c : Char) : List Char :=
  match c with
  | '"' => ['\\', '"']
  | '\\' => ['\\', '\\']
  | '\n' => ['\\', 'n']
  | '\r' => ['\\', 'r']
  | '\t' => ['\\', 't']
  | '\x00' => ['\\', '0']
  | c =>
      if isControl c then
        ['\\', 'u', '\x7b'] ++ hexNumber c.toNat ++ ['\x7d']
      else [c]

def quoted (s : String) : String :=
  String.ofList
    ('"' :: s.toList.flatMap escaped ++ ['"'])

end Text

end Failover
