import Failover.Text.Fold
import Failover.Text.Utf8
import Mathlib.Data.Nat.Basic

/-
  The UTF-8 form of text.  A text is read back from its form:
  a character of ASCII is one byte, and all bytes of any other
  character are above ASCII.  Places in a text are counted in
  bytes, and it can be cut only between two characters.

  Key definitions include:
    * `Utf8.form`, `Utf8.size`
    * `Utf8.code`, `Utf8.isOf`
    * `Utf8.splitAt?`

  Main statements:
    * `Utf8.pieces_encodeChar`
    * `Utf8.decodeLossy_encode`
    * `Utf8.splitAt?_eq_some_iff`
    * `Utf8.form_getElem?`
    * `Utf8.eq_code_iff`, `Utf8.isOf_eq`
-/

namespace Failover

namespace Utf8

------------------------------------------------------------
-- Characters
------------------------------------------------------------

/- Small numbers are bytes as they are. -/
theorem toNat_byte
    {n : Nat}
    (h : n < 256) : n.toUInt8.toNat = n :=
  UInt8.toNat_ofNat_of_lt' h

/- A byte is the code of a character. -/
theorem toNat_ofNat_byte (b : UInt8) :
    (Char.ofNat b.toNat).toNat = b.toNat := by
  have hByte : b.toNat < 256 := b.toNat_lt
  have hValid : b.toNat.isValidChar := Or.inl (by omega)
  rw [Char.ofNat, dif_pos hValid]
  rfl

/- Codes of characters end before 0x110000. -/
theorem toNat_char_lt (c : Char) : c.toNat < 0x110000 := by
  have hValid : c.toNat < 0xD800 ∨
      0xDFFF < c.toNat ∧ c.toNat < 0x110000 := c.valid
  omega

/- An ASCII character is its own byte. -/
theorem encodeChar_ascii
    {c : Char}
    (h : c.toNat < 0x80) :
    encodeChar c = [c.toNat.toUInt8] := by
  simp only [encodeChar, if_pos h]

/- The bytes of all other characters are not ASCII. -/
theorem high_encodeChar
    {c : Char}
    (h : 0x80 ≤ c.toNat) :
    ∀ b ∈ encodeChar c, 0x80 ≤ b.toNat := by
  have hMax := toNat_char_lt c
  intro b
  unfold encodeChar
  simp only
  split
  · omega
  · split
    · simp only [List.mem_cons, List.not_mem_nil, or_false]
      rintro (rfl | rfl) <;> rw [toNat_byte (by omega)] <;> omega
    · split
      · simp only [List.mem_cons, List.not_mem_nil, or_false]
        rintro (rfl | rfl | rfl) <;>
          rw [toNat_byte (by omega)] <;> omega
      · simp only [List.mem_cons, List.not_mem_nil, or_false]
        rintro (rfl | rfl | rfl | rfl) <;>
          rw [toNat_byte (by omega)] <;> omega

/- Every character has a byte. -/
theorem encodeChar_ne_nil (c : Char) : encodeChar c ≠ [] := by
  unfold encodeChar
  simp only
  split
  · simp
  · split
    · simp
    · split <;> simp

------------------------------------------------------------
-- Reading
------------------------------------------------------------

/- How many bytes there are to be, by the first of them. -/
theorem announced_eq (b : UInt8) :
    announced b =
      if b.toNat < 0x80 then 1
      else if 0xC2 ≤ b.toNat ∧ b.toNat ≤ 0xDF then 2
      else if 0xE0 ≤ b.toNat ∧ b.toNat ≤ 0xEF then 3
      else if 0xF0 ≤ b.toNat ∧ b.toNat ≤ 0xF4 then 4
      else 0 := by
  simp [announced, UInt8.lt_iff_toNat_lt, UInt8.le_iff_toNat_le]

/- The bytes that may go on with a character. -/
theorem isTail_iff (b : UInt8) :
    isTail b = true ↔ 0x80 ≤ b.toNat ∧ b.toNat ≤ 0xBF := by
  simp [isTail, UInt8.le_iff_toNat_le]

/- The second byte is bounded by the first one. -/
theorem isSecond_iff (first b : UInt8) :
    isSecond first b = true ↔
      0x80 ≤ b.toNat ∧ b.toNat ≤ 0xBF ∧
      (first.toNat = 0xE0 → 0xA0 ≤ b.toNat) ∧
      (first.toNat = 0xED → b.toNat ≤ 0x9F) ∧
      (first.toNat = 0xF0 → 0x90 ≤ b.toNat) ∧
      (first.toNat = 0xF4 → b.toNat ≤ 0x8F) := by
  simp only [isSecond, isTail, ← UInt8.toNat_inj,
    UInt8.le_iff_toNat_le, UInt8.reduceToNat]
  split
  · simp only [Bool.and_eq_true, decide_eq_true_eq]
    omega
  · split
    · simp only [Bool.and_eq_true, decide_eq_true_eq]
      omega
    · split
      · simp only [Bool.and_eq_true, decide_eq_true_eq]
        omega
      · split <;>
          simp only [Bool.and_eq_true, decide_eq_true_eq] <;>
          omega

section Pieces

variable {a b c d : UInt8}

/- A character of one byte. -/
theorem pieces_one
    (hFirst : announced a = 1)
    (r : Bytes) :
    pieces (a :: r) = some (Char.ofNat a.toNat) :: pieces r := by
  conv => lhs; unfold pieces
  simp [hFirst]

/- A character of two bytes. -/
theorem pieces_two
    (hFirst : announced a = 2)
    (hSecond : isSecond a b = true)
    (r : Bytes) :
    pieces (a :: b :: r) =
      some (Char.ofNat (a.toNat % 32 * 64 + low b)) ::
        pieces r := by
  conv => lhs; unfold pieces
  simp [hFirst, hSecond]

/- A character of three bytes. -/
theorem pieces_three
    (hFirst : announced a = 3)
    (hSecond : isSecond a b = true)
    (hThird : isTail c = true)
    (r : Bytes) :
    pieces (a :: b :: c :: r) =
      some (Char.ofNat (a.toNat % 16 * 4096 + low b * 64 +
        low c)) :: pieces r := by
  conv => lhs; unfold pieces
  simp [hFirst, hSecond, hThird]

/- A character of four bytes. -/
theorem pieces_four
    (hFirst : announced a = 4)
    (hSecond : isSecond a b = true)
    (hThird : isTail c = true)
    (hFourth : isTail d = true)
    (r : Bytes) :
    pieces (a :: b :: c :: d :: r) =
      some (Char.ofNat (a.toNat % 8 * 262144 + low b * 4096 +
        low c * 64 + low d)) :: pieces r := by
  conv => lhs; unfold pieces
  simp [hFirst, hSecond, hThird, hFourth]

end Pieces

/-
  The bytes of a character are read as this character.  The
  cases are those of the length of its form.
-/
theorem pieces_encodeChar
    (c : Char)
    (bs : Bytes) :
    pieces (encodeChar c ++ bs) = some c :: pieces bs := by
  have hValid : c.toNat < 0xD800 ∨
      0xDFFF < c.toNat ∧ c.toNat < 0x110000 := c.valid
  have hByte (n : Nat) (h : n < 256) := toNat_byte h
  have hChar {n : Nat} (h : n = c.toNat) : Char.ofNat n = c := by
    rw [h, Char.ofNat_toNat]
  unfold encodeChar
  simp only
  split
  · have hOne := hByte c.toNat (by omega)
    rw [List.singleton_append,
      pieces_one (by rw [announced_eq, if_pos (by omega)])]
    exact congrArg (some · :: _) (hChar hOne)
  · split
    · have hA := hByte (0xC0 + c.toNat / 64) (by omega)
      have hB := hByte (0x80 + c.toNat % 64) (by omega)
      rw [List.cons_append, List.singleton_append, pieces_two]
      · refine congrArg (some · :: _) (hChar ?_)
        rw [low, hA, hB]
        omega
      · rw [announced_eq, hA, if_neg (by omega), if_pos (by omega)]
      · rw [isSecond_iff, hA, hB]
        omega
    · split
      · have hA := hByte (0xE0 + c.toNat / 4096) (by omega)
        have hB := hByte (0x80 + c.toNat / 64 % 64) (by omega)
        have hC := hByte (0x80 + c.toNat % 64) (by omega)
        rw [List.cons_append, List.cons_append,
          List.singleton_append, pieces_three]
        · refine congrArg (some · :: _) (hChar ?_)
          rw [low, low, hA, hB, hC]
          omega
        · rw [announced_eq, hA, if_neg (by omega),
            if_neg (by omega), if_pos (by omega)]
        · rw [isSecond_iff, hA, hB]
          omega
        · rw [isTail_iff, hC]
          omega
      · have hA := hByte (0xF0 + c.toNat / 262144) (by omega)
        have hB := hByte (0x80 + c.toNat / 4096 % 64) (by omega)
        have hC := hByte (0x80 + c.toNat / 64 % 64) (by omega)
        have hD := hByte (0x80 + c.toNat % 64) (by omega)
        rw [List.cons_append, List.cons_append, List.cons_append,
          List.singleton_append, pieces_four]
        · refine congrArg (some · :: _) (hChar ?_)
          rw [low, low, low, hA, hB, hC, hD]
          omega
        · rw [announced_eq, hA, if_neg (by omega),
            if_neg (by omega), if_neg (by omega),
            if_pos (by omega)]
        · rw [isSecond_iff, hA, hB]
          omega
        · rw [isTail_iff, hC]
          omega
        · rw [isTail_iff, hD]
          omega

/- Characters that are encoded are decoded again. -/
theorem pieces_flatMap (cs : List Char) :
    pieces (cs.flatMap encodeChar) = cs.map some := by
  induction cs with
  | nil => rfl
  | cons c cs ih =>
      rw [List.flatMap_cons, pieces_encodeChar, ih, List.map_cons]

/- A text is read back from its own form. -/
theorem decodeLossy_encode (s : String) :
    decodeLossy (encode s) = s := by
  unfold decodeLossy encode
  rw [pieces_flatMap, List.map_map]
  have hSame : ((fun o : Option Char => o.getD (Char.ofNat 0xFFFD)) ∘
      some) = id := rfl
  rw [hSame, List.map_id, String.ofList_toList]

------------------------------------------------------------
-- Sizes
------------------------------------------------------------

/- The bytes of some characters. -/
def form (cs : List Char) : Bytes :=
  cs.flatMap encodeChar

/- The number of bytes of some characters. -/
def size (cs : List Char) : Nat :=
  (form cs).length

@[simp]
theorem size_nil : size [] = 0 :=
  rfl

/- Texts are encoded one after the other. -/
theorem form_append (a b : List Char) :
    form (a ++ b) = form a ++ form b :=
  List.flatMap_append

@[simp]
/- The sizes of texts add up. -/
theorem size_append (a b : List Char) :
    size (a ++ b) = size a + size b := by
  rw [size, form_append, List.length_append]
  rfl

theorem size_singleton (c : Char) :
    size [c] = (encodeChar c).length := by
  simp [size, form]

theorem size_cons (c : Char) (cs : List Char) :
    size (c :: cs) = size [c] + size cs :=
  size_append [c] cs

/- Every character has a byte at least. -/
theorem size_char_pos (c : Char) : 0 < size [c] := by
  rw [size_singleton]
  exact List.length_pos_iff.mpr (encodeChar_ne_nil c)

/- The empty text is the only one without bytes. -/
theorem size_eq_zero {cs : List Char} : size cs = 0 ↔ cs = [] := by
  cases cs with
  | nil => simp
  | cons c cs =>
      have hPos := size_char_pos c
      rw [size_cons c cs]
      simp only [reduceCtorEq, iff_false]
      omega

/- An ASCII character takes one byte. -/
theorem size_ascii
    {c : Char}
    (h : c.toNat < 0x80) : size [c] = 1 := by
  rw [size_singleton, encodeChar_ascii h]
  rfl

theorem size_cons_ascii
    {c : Char}
    (h : c.toNat < 0x80)
    (cs : List Char) : size (c :: cs) = 1 + size cs := by
  rw [size_cons c cs, size_ascii h]

------------------------------------------------------------
-- Cutting
------------------------------------------------------------

/- A text cut after some bytes, unless a character is cut. -/
def splitAt? :
    Nat → List Char → Option (List Char × List Char)
  | 0, cs => some ([], cs)
  | _ + 1, [] => none
  | n + 1, c :: r =>
      if size [c] ≤ n + 1 then
        (splitAt? (n + 1 - size [c]) r).map fun p =>
          (c :: p.1, p.2)
      else none

/- A text is cut where its first part ends. -/
theorem splitAt?_append (a b : List Char) :
    splitAt? (size a) (a ++ b) = some (a, b) := by
  induction a with
  | nil => simp [splitAt?]
  | cons c a ih =>
      have hPos := size_char_pos c
      obtain ⟨n, hN⟩ : ∃ n, size (c :: a) = n + 1 :=
        ⟨size (c :: a) - 1, by rw [size_cons c a]; omega⟩
      have hRest : n + 1 - size [c] = size a := by
        rw [← hN, size_cons c a]
        omega
      have hFits : size [c] ≤ n + 1 := by
        rw [← hN, size_cons c a]
        omega
      rw [hN, List.cons_append, splitAt?, if_pos hFits, hRest, ih]
      rfl

/- The places of cuts are the sizes of what is in front. -/
theorem splitAt?_eq_some_iff
    {n : Nat}
    {cs a b : List Char} :
    splitAt? n cs = some (a, b) ↔ cs = a ++ b ∧ n = size a := by
  constructor
  · intro h
    fun_induction splitAt? n cs generalizing a with
    | case1 cs =>
        simp only [Option.some.injEq, Prod.mk.injEq] at h
        obtain ⟨rfl, rfl⟩ := h
        exact ⟨rfl, rfl⟩
    | case2 => cases h
    | case3 n c r hFits ih =>
        obtain ⟨⟨a', b'⟩, hRest, hPair⟩ := Option.map_eq_some_iff.mp h
        simp only [Prod.mk.injEq] at hPair
        obtain ⟨rfl, rfl⟩ := hPair
        obtain ⟨rfl, hSize⟩ := ih hRest
        refine ⟨rfl, ?_⟩
        rw [size_cons c a']
        omega
    | case4 => cases h
  · rintro ⟨rfl, rfl⟩
    exact splitAt?_append a b

------------------------------------------------------------
-- Bytes
------------------------------------------------------------

/- The byte of an ASCII character. -/
def code (c : Char) : UInt8 :=
  c.toNat.toUInt8

/- A byte is an ASCII character of a class. -/
def isOf (p : Char → Bool) (b : UInt8) : Bool :=
  p (Char.ofNat b.toNat)

section Bytes

variable {c x : Char} {b : UInt8} {before : List Char}

/-
  The bytes of a character stand behind those of the
  characters before it.
-/
theorem form_getElem?
    (before : List Char)
    (c : Char)
    (rest : List Char)
    {k : Nat}
    (hK : k < size [c]) :
    ∃ b ∈ encodeChar c,
      (form (before ++ c :: rest))[size before + k]? = some b := by
  rw [size_singleton] at hK
  refine ⟨(encodeChar c)[k], List.getElem_mem hK, ?_⟩
  have hForm : form (before ++ c :: rest) =
      form before ++ (encodeChar c ++ form rest) := by
    simp [form]
  rw [hForm, size, List.getElem?_append_right (by omega),
    Nat.add_sub_cancel_left, List.getElem?_append_left hK,
    List.getElem?_eq_getElem hK]

/- The bytes of a character tell if it is one of ASCII. -/
theorem eq_code_iff
    (hX : x.toNat < 0x80)
    (hB : b ∈ encodeChar c) : b = code x ↔ c = x := by
  have hCode : (code x).toNat = x.toNat := toNat_byte (by omega)
  by_cases hC : c.toNat < 0x80
  · rw [encodeChar_ascii hC, List.mem_singleton] at hB
    subst hB
    have hSame : (c.toNat.toUInt8).toNat = c.toNat :=
      toNat_byte (by omega)
    rw [← UInt8.toNat_inj, hSame, hCode, Char.toNat_inj]
  · have hHigh := high_encodeChar (by omega) b hB
    constructor
    · rintro rfl
      omega
    · rintro rfl
      omega

/- The byte of an ASCII character is its code. -/
theorem code_mem
    (hX : x.toNat < 0x80) : code x ∈ encodeChar x := by
  rw [encodeChar_ascii hX]
  exact List.mem_singleton_self _

/-
  The bytes of a character tell whether it is in a class that
  is the same for all above ASCII.
-/
theorem isOf_eq
    {p : Char → Bool}
    {above : Bool}
    (hAbove : ∀ d : Char, 0x80 ≤ d.toNat → p d = above)
    (hB : b ∈ encodeChar c) : isOf p b = p c := by
  unfold isOf
  by_cases hC : c.toNat < 0x80
  · rw [encodeChar_ascii hC, List.mem_singleton] at hB
    rw [hB, toNat_byte (by omega), Char.ofNat_toNat]
  · have hHigh := high_encodeChar (by omega) b hB
    have hChar := toNat_ofNat_byte b
    rw [hAbove c (by omega), hAbove _ (by omega)]

end Bytes

/- No character above ASCII belongs to a name. -/
theorem isLetter_above
    {c : Char}
    (h : 0x80 ≤ c.toNat) : Text.isLetter c = false := by
  have hLower : ¬ c ≤ 'z' := by
    intro hLess
    have hNat : c.toNat ≤ 'z'.toNat := hLess
    have hZ : 'z'.toNat = 122 := rfl
    omega
  have hUpper : ¬ c ≤ 'Z' := fun hLess =>
    hLower (Char.le_trans hLess (by decide))
  simp [Text.isLetter, hLower, hUpper]

/- Words are in ASCII. -/
theorem isWordChar_above
    {c : Char}
    (h : 0x80 ≤ c.toNat) : Text.isWordChar c = false := by
  have hDigit : ¬ c ≤ '9' := by
    intro hLess
    have hNat : c.toNat ≤ '9'.toNat := hLess
    have hNine : '9'.toNat = 57 := rfl
    omega
  have hLine : c ≠ '_' := by
    rintro rfl
    exact absurd h (by decide)
  simp [Text.isWordChar, isLetter_above h, Text.isDigit, hDigit,
    hLine]

end Utf8

end Failover
