/-
  The UTF-8 form of text.  Reading splits bytes into
  characters and ill-formed pieces, where a piece is the
  longest beginning of a character that goes no further.

  Key definitions include:
    * `Bytes`
    * `Utf8.encode`
    * `Utf8.pieces`
    * `Utf8.decode?`
    * `Utf8.decodeLossy`
-/

namespace Failover

/- A string of bytes. -/
abbrev Bytes := List UInt8

namespace Utf8

/- The UTF-8 form of one character. -/
def encodeChar (c : Char) : Bytes :=
  let n := c.toNat
  if n < 0x80 then [n.toUInt8]
  else if n < 0x800 then
    [(0xC0 + n / 64).toUInt8, (0x80 + n % 64).toUInt8]
  else if n < 0x10000 then
    [(0xE0 + n / 4096).toUInt8,
      (0x80 + n / 64 % 64).toUInt8,
      (0x80 + n % 64).toUInt8]
  else
    [(0xF0 + n / 262144).toUInt8,
      (0x80 + n / 4096 % 64).toUInt8,
      (0x80 + n / 64 % 64).toUInt8,
      (0x80 + n % 64).toUInt8]

/- The UTF-8 form of a text. -/
def encode (s : String) : Bytes :=
  s.toList.flatMap encodeChar

------------------------------------------------------------
-- Reading
------------------------------------------------------------

/- The bytes that go on a character after its second one. -/
def isTail (b : UInt8) : Bool :=
  0x80 ≤ b && b ≤ 0xBF

/-
  The second bytes that may follow the first one.  Longer
  forms than needed, surrogates and values past the last code
  point are excluded here.
-/
def isSecond (first b : UInt8) : Bool :=
  if first = 0xE0 then 0xA0 ≤ b && b ≤ 0xBF
  else if first = 0xED then 0x80 ≤ b && b ≤ 0x9F
  else if first = 0xF0 then 0x90 ≤ b && b ≤ 0xBF
  else if first = 0xF4 then 0x80 ≤ b && b ≤ 0x8F
  else isTail b

/- The number of bytes that a first byte announces. -/
def announced (b : UInt8) : Nat :=
  if b < 0x80 then 1
  else if 0xC2 ≤ b && b ≤ 0xDF then 2
  else if 0xE0 ≤ b && b ≤ 0xEF then 3
  else if 0xF0 ≤ b && b ≤ 0xF4 then 4
  else 0

/- The low six bits of a later byte. -/
def low (b : UInt8) : Nat :=
  b.toNat % 64

/-
  The characters of a byte string in order, with `none` for
  each ill-formed piece.
-/
def pieces : Bytes → List (Option Char)
  | [] => []
  | a :: r =>
      if announced a = 1 then
        some (Char.ofNat a.toNat) :: pieces r
      else if announced a = 0 then
        none :: pieces r
      else
        match r with
        | [] => [none]
        | b :: r₁ =>
            if !isSecond a b then none :: pieces (b :: r₁)
            else if announced a = 2 then
              some (Char.ofNat (a.toNat % 32 * 64 + low b))
                :: pieces r₁
            else
              match r₁ with
              | [] => [none]
              | c :: r₂ =>
                  if !isTail c then
                    none :: pieces (c :: r₂)
                  else if announced a = 3 then
                    some (Char.ofNat
                      (a.toNat % 16 * 4096 + low b * 64 +
                        low c)) :: pieces r₂
                  else
                    match r₂ with
                    | [] => [none]
                    | d :: r₃ =>
                        if !isTail d then
                          none :: pieces (d :: r₃)
                        else
                          some (Char.ofNat
                            (a.toNat % 8 * 262144 +
                              low b * 4096 + low c * 64 +
                              low d)) :: pieces r₃

/- The text of well-formed bytes. -/
def decode? (bs : Bytes) : Option String :=
  (pieces bs).mapM id |>.map String.ofList

/-
  The text of any bytes, with a replacement character for
  each ill-formed piece.
-/
def decodeLossy (bs : Bytes) : String :=
  String.ofList
    ((pieces bs).map (·.getD (Char.ofNat 0xFFFD)))

example :
    pieces [0x61, 0xE2, 0x82, 0x41, 0xC3, 0xA9, 0xF0] =
      [some 'a', none, some 'A', some 'é', none] := by
  decide

end Utf8

end Failover
