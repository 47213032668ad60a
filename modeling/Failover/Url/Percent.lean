import Failover.Text.Hex

/-
  Percent encoding: bytes as a percent sign and two digits.

  Key definitions include:
    * `Percent.isControl`, `Percent.inFragment`
    * `Percent.inPath`, `Percent.inUser`, `Percent.inQuery`
    * `Percent.encodeByte`, `Percent.encode`
    * `Percent.decode`
-/

namespace Failover

namespace Percent

------------------------------------------------------------
-- Sets of characters
------------------------------------------------------------

/- Controls, and all characters outside ASCII. -/
def isControl (c : Char) : Bool :=
  c.toNat < 0x20 || 0x7F ≤ c.toNat

/- The characters that a fragment does not hold as such. -/
def inFragment (c : Char) : Bool :=
  isControl c || [' ', '"', '<', '>', '`'].contains c

/- The characters that a path does not hold as such. -/
def inPath (c : Char) : Bool :=
  inFragment c || ['#', '?', '\x7b', '\x7d'].contains c

/- The characters that user and password do not hold. -/
def inUser (c : Char) : Bool :=
  inPath c ||
    ['/', ':', ';', '=', '@', '[', '\\', ']', '^', '|'].contains
      c

/- The characters that a query does not hold as such. -/
def inQuery (c : Char) : Bool :=
  isControl c || [' ', '"', '#', '<', '>'].contains c

------------------------------------------------------------
-- Encoding and decoding
------------------------------------------------------------

def encodeByte (b : UInt8) : List Char :=
  ['%', Hex.upperDigit (b.toNat / 16),
    Hex.upperDigit (b.toNat % 16)]

/- The characters of a set are written as their bytes. -/
def encode
    (set : Char → Bool)
    (cs : List Char) : List Char :=
  cs.flatMap fun c =>
    if set c then (Utf8.encodeChar c).flatMap encodeByte
    else [c]

/- A percent sign without two digits stands for itself. -/
def decode : Bytes → Bytes
  | [] => []
  | 0x25 :: a :: b :: r =>
      match Hex.value? (Char.ofNat a.toNat),
          Hex.value? (Char.ofNat b.toNat) with
      | some h, some l => (h * 16 + l).toUInt8 :: decode r
      | _, _ => 0x25 :: decode (a :: b :: r)
  | a :: r => a :: decode r

end Percent

end Failover
