import Failover.Json.Basic
import Failover.Text.Hex

/-
  The compact text of a JSON value: no white space, members
  in their order, and only those characters escaped that must
  be.

  Key definitions include:
    * `Json.escape`
    * `Json.floatText`
    * `Json.write`
    * `Json.render`
-/

namespace Failover

namespace Json

------------------------------------------------------------
-- Strings
------------------------------------------------------------

/- The written form of one character of a string. -/
def escape (c : Char) : List Char :=
  if c = '"' then ['\\', '"']
  else if c = '\\' then ['\\', '\\']
  else if c = '\x08' then ['\\', 'b']
  else if c = '\x0c' then ['\\', 'f']
  else if c = '\n' then ['\\', 'n']
  else if c = '\r' then ['\\', 'r']
  else if c = '\t' then ['\\', 't']
  else if c.toNat < 0x20 then
    ['\\', 'u', '0', '0', Hex.digit (c.toNat / 16),
      Hex.digit (c.toNat % 16)]
  else [c]

def writeString (s : String) : List Char :=
  '"' :: (s.toList.flatMap escape ++ ['"'])

------------------------------------------------------------
-- Numbers
------------------------------------------------------------

/-
  The fewest digits that read back, a tie going to even.  A
  number whose first digit stands for `10 ^ -5` up to
  `10 ^ 15` is written positionally, with at least one digit
  after the point.
-/
def magnitudeText (s : Scientific) : List Char :=
  let ds := Decimal.digits s.coefficient
  let top : Int := ds.length - 1 + s.exponent
  if -5 ≤ top ∧ top < 16 then
    Floating.positional s ++
      (if 0 ≤ s.exponent then ['.', '0'] else [])
  else
    let mantissa :=
      match ds with
      | d :: e :: r => d :: '.' :: e :: r
      | _ => ds
    mantissa ++
      ('e' :: (if top < 0 then '-' else '+') ::
        Decimal.digits top.natAbs)

def floatText : Floating → List Char
  | .finite negative m e =>
      (if negative then ['-'] else []) ++
        magnitudeText (Floating.shortest .double .even m e)
  | _ => ['n', 'u', 'l', 'l']

------------------------------------------------------------
-- Values
------------------------------------------------------------

mutual

def write : Json → List Char
  | .null => ['n', 'u', 'l', 'l']
  | .bool true => ['t', 'r', 'u', 'e']
  | .bool false => ['f', 'a', 'l', 's', 'e']
  | .integer n => (Decimal.render n).toList
  | .float x => floatText x
  | .string s => writeString s
  | .array items => '[' :: writeItems items
  | .object members => '{' :: writeMembers members

/- The items of an array and its end. -/
def writeItems : List Json → List Char
  | [] => [']']
  | [v] => write v ++ [']']
  | v :: r => write v ++ ',' :: writeItems r

/- The members of an object and its end. -/
def writeMembers : List (String × Json) → List Char
  | [] => ['}']
  | [(n, v)] =>
      writeString n ++ ':' :: (write v ++ ['}'])
  | (n, v) :: r =>
      writeString n ++ ':' :: (write v ++ ',' :: writeMembers r)

end

def render (j : Json) : String :=
  String.ofList j.write

end Json

end Failover
