import Failover.Text.Fold
import Failover.Text.Split
import Failover.Url.Percent

/-
  Lists of names and values in the form that the queries of
  URLs have.

  Key definitions include:
    * `Form.decodeText`, `Form.encodeText`
    * `Form.pairs`
    * `Form.write`
-/

namespace Failover

namespace Form

/- A plus sign stands for a space. -/
def decodeText (cs : List Char) : String :=
  let spaced := cs.map fun c => if c = '+' then ' ' else c
  Utf8.decodeLossy
    (Percent.decode (spaced.flatMap Utf8.encodeChar))

/- A pair is cut at its first equals sign. -/
def decodePair (cs : List Char) : String × String :=
  match Text.splitAtFirst? '=' cs with
  | some (name, value) => (decodeText name, decodeText value)
  | none => (decodeText cs, "")

/- The pairs of a query; empty parts do not count. -/
def pairs (query : List Char) : List (String × String) :=
  ((Text.splitOn '&' query).filter fun p => !p.isEmpty).map
    decodePair

/- The bytes that stand for themselves. -/
def isPlain (b : UInt8) : Bool :=
  let c := Char.ofNat b.toNat
  Text.isLetter c || Text.isDigit c ||
    ['*', '-', '.', '_'].contains c

def encodeByte (b : UInt8) : List Char :=
  if isPlain b then [Char.ofNat b.toNat]
  else if b = 0x20 then ['+']
  else Percent.encodeByte b

def encodeText (s : String) : List Char :=
  (Utf8.encode s).flatMap encodeByte

def writePair (p : String × String) : List Char :=
  encodeText p.1 ++ '=' :: encodeText p.2

/- The query of some pairs. -/
def write (ps : List (String × String)) : List Char :=
  ['&'].intercalate (ps.map writePair)

end Form

end Failover
