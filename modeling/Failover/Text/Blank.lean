/-
  White space, in the sense of the Unicode property
  White_Space, and trimming.

  Key definitions include:
    * `Text.isBlank`
    * `Text.trimLeft`
    * `Text.trimBoth`
    * `Text.trim`
-/

namespace Failover

namespace Text

/- The characters with the property White_Space. -/
def isBlank (c : Char) : Bool :=
  let n := c.toNat
  (9 ≤ n && n ≤ 13) || n == 0x20 || n == 0x85 ||
    n == 0xA0 || n == 0x1680 ||
    (0x2000 ≤ n && n ≤ 0x200A) ||
    n == 0x2028 || n == 0x2029 || n == 0x202F ||
    n == 0x205F || n == 0x3000

/- Leading characters of a class are dropped. -/
def trimLeft
    (p : Char → Bool)
    (cs : List Char) : List Char :=
  cs.dropWhile p

/- Leading and trailing characters of a class are dropped. -/
def trimBoth
    (p : Char → Bool)
    (cs : List Char) : List Char :=
  ((cs.dropWhile p).reverse.dropWhile p).reverse

/- A text without the white space around it. -/
def trim (s : String) : String :=
  String.ofList (trimBoth isBlank s.toList)

/- Text without a blank at either end is not changed. -/
theorem trimBoth_eq_self
    (p : Char → Bool)
    (cs : List Char)
    (hHead : ∀ c ∈ cs.head?, p c = false)
    (hLast : ∀ c ∈ cs.getLast?, p c = false) :
    trimBoth p cs = cs := by
  have drop (l : List Char)
      (h : ∀ c ∈ l.head?, p c = false) :
      l.dropWhile p = l := by
    cases l with
    | nil => rfl
    | cons c r => simp [h c (by simp)]
  unfold trimBoth
  rw [drop cs hHead, drop cs.reverse (by simpa using hLast),
    List.reverse_reverse]

end Text

end Failover
