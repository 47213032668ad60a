import Failover.Json.Basic
import Failover.Text.Hex

/-
  JSON documents as they are written: a tree of the text's
  parts, in which numbers are still numerals, members stand
  in the order of the text, and a string whose escapes denote
  no text is marked as such.

  Key definitions include:
    * `Json.Number`
    * `Json.Document`
    * `Json.Document.readValue`
    * `Json.Document.ofText?`
-/

namespace Failover

namespace Json

------------------------------------------------------------
-- Documents
------------------------------------------------------------

/- A numeral: its digits, and an exponent's sign and digits. -/
structure Number where
  negative : Bool
  whole : List Char
  fraction : Option (List Char)
  exponent : Option (Bool × List Char)
deriving Repr

/-
  A string without content has an escape that denotes no
  character by itself.
-/
inductive Document where
  | null
  | bool (b : Bool)
  | number (n : Number)
  | string (content : Option String)
  | array (items : List Document)
  | object (members : List (Option String × Document))
deriving Repr, Inhabited

namespace Document

/- The white space between the parts of a document. -/
def isGap (c : Char) : Bool :=
  c = ' ' || c = '\t' || c = '\n' || c = '\r'

def skipGap (cs : List Char) : List Char :=
  cs.dropWhile isGap

------------------------------------------------------------
-- Numerals
------------------------------------------------------------

/- One or more digits. -/
def takeDigits?
    (cs : List Char) : Option (List Char × List Char) :=
  let ds := cs.takeWhile Text.isDigit
  if ds.isEmpty then none
  else some (ds, cs.dropWhile Text.isDigit)

/- A whole part has no superfluous zero in front. -/
def takeWhole? :
    List Char → Option (List Char × List Char)
  | '0' :: r => some (['0'], r)
  | cs => takeDigits? cs

def takeFraction? :
    List Char → Option (Option (List Char) × List Char)
  | '.' :: r => do
      let (ds, r) ← takeDigits? r
      return (some ds, r)
  | cs => some (none, cs)

def takeExponent?
    (cs : List Char) :
    Option (Option (Bool × List Char) × List Char) :=
  match cs with
  | [] => some (none, [])
  | c :: r =>
      if c = 'e' ∨ c = 'E' then do
        let (negative, r) := Decimal.takeSign r
        let (ds, r) ← takeDigits? r
        return (some (negative, ds), r)
      else some (none, cs)

/- A numeral after its sign. -/
def takeNumber?
    (negative : Bool)
    (cs : List Char) : Option (Number × List Char) := do
  let (whole, r) ← takeWhole? cs
  let (fraction, r) ← takeFraction? r
  let (exponent, r) ← takeExponent? r
  return (⟨negative, whole, fraction, exponent⟩, r)

------------------------------------------------------------
-- Strings
------------------------------------------------------------

/- What one part of a string stands for. -/
inductive Unit where
  | char (c : Char)
  | code (n : Nat)

/- The character that a short escape stands for. -/
def shortEscape? (c : Char) : Option Char :=
  if c = '"' ∨ c = '\\' ∨ c = '/' then some c
  else if c = 'b' then some '\x08'
  else if c = 'f' then some '\x0c'
  else if c = 'n' then some '\n'
  else if c = 'r' then some '\r'
  else if c = 't' then some '\t'
  else none

/- The parts of a string up to its closing quote. -/
def takeUnits? :
    List Char → Option (List Unit × List Char)
  | [] => none
  | '"' :: r => some ([], r)
  | '\\' :: 'u' :: a :: b :: c :: d :: r => do
      let a ← Hex.value? a
      let b ← Hex.value? b
      let c ← Hex.value? c
      let d ← Hex.value? d
      let (us, r) ← takeUnits? r
      return (.code (((a * 16 + b) * 16 + c) * 16 + d) :: us,
        r)
  | '\\' :: e :: r => do
      let c ← shortEscape? e
      let (us, r) ← takeUnits? r
      return (.char c :: us, r)
  | c :: r =>
      if c.toNat < 0x20 ∨ c = '\\' then none
      else do
        let (us, r) ← takeUnits? r
        return (.char c :: us, r)

/-
  The text of a string's parts.  Two escapes together denote
  a character past the first 65536; half of such a pair
  denotes nothing.
-/
def joinUnits? : List Unit → Option (List Char)
  | [] => some []
  | .char c :: r => (joinUnits? r).map (c :: ·)
  | .code n :: r =>
      if 0xD800 ≤ n ∧ n < 0xDC00 then
        match r with
        | .code k :: r =>
            if 0xDC00 ≤ k ∧ k < 0xE000 then
              (joinUnits? r).map
                (Char.ofNat
                  (0x10000 + (n - 0xD800) * 0x400 +
                    (k - 0xDC00)) :: ·)
            else none
        | _ => none
      else if 0xDC00 ≤ n ∧ n < 0xE000 then none
      else (joinUnits? r).map (Char.ofNat n :: ·)

/- A string after its opening quote. -/
def takeString?
    (cs : List Char) :
    Option (Option String × List Char) :=
  (takeUnits? cs).map fun (us, r) =>
    ((joinUnits? us).map String.ofList, r)

------------------------------------------------------------
-- Values
------------------------------------------------------------

mutual

/-
  One value, without white space before it.  The first
  argument bounds the steps; a text takes fewer of them than
  thrice its characters.
-/
def readValue :
    Nat → List Char → Option (Document × List Char)
  | 0, _ => none
  | fuel + 1, cs =>
      match cs with
      | 'n' :: 'u' :: 'l' :: 'l' :: r => some (.null, r)
      | 't' :: 'r' :: 'u' :: 'e' :: r =>
          some (.bool true, r)
      | 'f' :: 'a' :: 'l' :: 's' :: 'e' :: r =>
          some (.bool false, r)
      | '"' :: r => do
          let (s, r) ← takeString? r
          return (.string s, r)
      | '-' :: r => do
          let (n, r) ← takeNumber? true r
          return (.number n, r)
      | '[' :: r =>
          match skipGap r with
          | ']' :: r => some (.array [], r)
          | r => do
              let (items, r) ← readItems fuel r
              return (.array items, r)
      | '{' :: r =>
          match skipGap r with
          | '}' :: r => some (.object [], r)
          | r => do
              let (members, r) ← readMembers fuel r
              return (.object members, r)
      | cs => do
          let (n, r) ← takeNumber? false cs
          return (.number n, r)

/- One or more items and the end of their array. -/
def readItems :
    Nat → List Char → Option (List Document × List Char)
  | 0, _ => none
  | fuel + 1, cs => do
      let (v, r) ← readValue fuel cs
      match skipGap r with
      | ']' :: r => return ([v], r)
      | ',' :: r => do
          let (vs, r) ← readItems fuel (skipGap r)
          return (v :: vs, r)
      | _ => none

/- One member: its name and its value. -/
def readMember :
    Nat → List Char →
      Option ((Option String × Document) × List Char)
  | fuel + 1, '"' :: r => do
      let (name, r) ← takeString? r
      match skipGap r with
      | ':' :: r => do
          let (v, r) ← readValue fuel (skipGap r)
          return ((name, v), r)
      | _ => none
  | _, _ => none

/- One or more members and the end of their object. -/
def readMembers :
    Nat → List Char →
      Option (List (Option String × Document) × List Char)
  | 0, _ => none
  | fuel + 1, cs => do
      let (m, r) ← readMember fuel cs
      match skipGap r with
      | '}' :: r => return ([m], r)
      | ',' :: r => do
          let (ms, r) ← readMembers fuel (skipGap r)
          return (m :: ms, r)
      | _ => none

end

/- A text that is one value with white space around it. -/
def ofChars?
    (cs : List Char) : Option Document := do
  let (d, r) ← readValue (3 * cs.length + 1) (skipGap cs)
  if (skipGap r).isEmpty then some d else none

def ofText? (s : String) : Option Document :=
  ofChars? s.toList

end Document

end Json

end Failover
