import Failover.Text.Hex

/-
  Universally unique identifiers: sixteen bytes, written as
  hexadecimal digits in five groups.

  Key definitions include:
    * `Uuid`
    * `Uuid.ofBytes?`
    * `Uuid.ofText?`
    * `Uuid.write`
-/

namespace Failover

structure Uuid where
  bytes : Bytes
  size_eq : bytes.length = 16 := by decide
deriving DecidableEq, Repr

namespace Uuid

/- The identifier of sixteen bytes. -/
def ofBytes? (bs : Bytes) : Option Uuid :=
  if h : bs.length = 16 then some ⟨bs, h⟩ else none

/- The identifier whose bytes are all zero. -/
def nil : Uuid :=
  { bytes := List.replicate 16 0 }

instance : Inhabited Uuid := ⟨nil⟩

/- The groups of digits, with hyphens between. -/
def write (u : Uuid) : String :=
  let part (from_ n : Nat) :=
    Hex.encode ((u.bytes.drop from_).take n)
  String.intercalate "-"
    [part 0 4, part 4 2, part 6 2, part 8 2, part 10 6]

/- Thirty-two digits. -/
def ofDigits? (cs : List Char) : Option Uuid :=
  (Hex.decodeChars cs).bind ofBytes?

/- Thirty-six characters with hyphens in the four places. -/
def ofGroups? (cs : List Char) : Option Uuid :=
  let places := [8, 13, 18, 23]
  if cs.length = 36 ∧ places.all (fun i => cs[i]? = some '-')
  then
    ofDigits?
      (cs.take 8 ++ (cs.drop 9).take 4 ++
        (cs.drop 14).take 4 ++ (cs.drop 19).take 4 ++
        cs.drop 24)
  else none

/-
  An identifier is written as plain digits, in groups, in
  groups within braces, or in groups as a resource name.
-/
def ofText? (s : String) : Option Uuid :=
  let cs := s.toList
  match cs with
  | '{' :: r =>
      if r.getLast? = some '}' then ofGroups? r.dropLast
      else none
  | 'u' :: 'r' :: 'n' :: ':' :: 'u' :: 'u' :: 'i' :: 'd' ::
      ':' :: r => ofGroups? r
  | _ =>
      if cs.length = 32 then ofDigits? cs else ofGroups? cs

end Uuid

end Failover
