/-
  Case folding of the ASCII letters, and the comparison of
  names that it gives.  Other characters stand for
  themselves, so names outside ASCII are told apart by case.

  Key definitions include:
    * `Text.foldChar`
    * `Text.fold`
    * `Text.sameName`
    * `Text.isWordChar`
-/

namespace Failover

namespace Text

------------------------------------------------------------
-- Folding
------------------------------------------------------------

/- The lower-case form of an ASCII letter. -/
def foldChar (c : Char) : Char :=
  if 'A' ≤ c ∧ c ≤ 'Z' then Char.ofNat (c.toNat + 32) else c

/- A text with its ASCII letters in lower case. -/
def fold (s : String) : String :=
  String.ofList (s.toList.map foldChar)

/- Two names are the same up to ASCII case. -/
def sameName
    (a b : String) : Bool :=
  a.toList.map foldChar == b.toList.map foldChar

/- Being the same name is equality of the folded names. -/
theorem sameName_iff
    (a b : String) :
    sameName a b = true ↔
      a.toList.map foldChar = b.toList.map foldChar := by
  simp [sameName]

theorem sameName_refl (a : String) :
    sameName a a = true := by
  simp [sameName_iff]

theorem sameName_comm
    (a b : String) :
    sameName a b = sameName b a := by
  unfold sameName
  exact Bool.beq_comm

theorem sameName_trans
    {a b c : String}
    (hab : sameName a b = true)
    (hbc : sameName b c = true) :
    sameName a c = true := by
  rw [sameName_iff] at *
  exact hab.trans hbc

------------------------------------------------------------
-- Classes
------------------------------------------------------------

/- An ASCII letter. -/
def isLetter (c : Char) : Bool :=
  ('a' ≤ c && c ≤ 'z') || ('A' ≤ c && c ≤ 'Z')

/- An ASCII digit. -/
def isDigit (c : Char) : Bool :=
  '0' ≤ c && c ≤ '9'

/- The characters of which SQL names are made. -/
def isWordChar (c : Char) : Bool :=
  isLetter c || isDigit c || c == '_'

end Text

end Failover
