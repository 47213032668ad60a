import Failover.Text.CaseTable

/-
  Lower case in the sense of the Unicode standard: each
  capital letter becomes its small letter, the capital I with
  a dot becomes two characters, and a capital sigma depends
  on its neighbours.

  Key definitions include:
    * `Text.lowerChar`
    * `Text.lowerFrom`
    * `Text.lower`
-/

namespace Failover

namespace Text

/- A character lies in one of some ranges. -/
def inRanges
    (ranges : List (Nat × Nat))
    (c : Char) : Bool :=
  ranges.any fun r => r.1 ≤ c.toNat && c.toNat ≤ r.2

/- The range of capital letters that holds a character. -/
def CaseRange.holds
    (r : CaseRange)
    (n : Nat) : Bool :=
  r.first ≤ n && n ≤ r.last && (n - r.first) % r.step == 0

/- The lower-case form of one character by itself. -/
def lowerChar (c : Char) : List Char :=
  if c.toNat < 128 then
    if 'A' ≤ c ∧ c ≤ 'Z' then [Char.ofNat (c.toNat + 32)]
    else [c]
  else if c.toNat = 0x130 then
    ['i', Char.ofNat 0x307]
  else
    match lowerRanges.find? (·.holds c.toNat) with
    | some r => [Char.ofNat (c.toNat + r.shift).toNat]
    | none => [c]

/- The next character that is not ignorable is cased. -/
def casedNext (cs : List Char) : Bool :=
  match cs.dropWhile (inRanges ignorableRanges) with
  | [] => false
  | c :: _ => inRanges casedRanges c

/-
  A capital sigma ends a word if a cased character stands
  before it and none after it.
-/
def lowerSigma
    (before after : List Char) : Char :=
  if casedNext before && !casedNext after then 'ς' else 'σ'

/-
  The lower-case form of a text; `before` holds what has
  been read, the nearest character first.
-/
def lowerFrom
    (before : List Char) :
    List Char → List Char
  | [] => []
  | c :: r =>
      (if c = 'Σ' then [lowerSigma before r]
        else lowerChar c) ++
        lowerFrom (c :: before) r

/- A text in lower case. -/
def lower (s : String) : String :=
  String.ofList (lowerFrom [] s.toList)

example : lower "ΌΣΟΣ ΑΣ" = "όσος ας" := by decide +kernel

example : lower "ÀÉ-İ" = "àé-i̇" := by decide +kernel

end Text

end Failover
