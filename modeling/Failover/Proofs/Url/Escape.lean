import Failover.Proofs.Text.Utf8
import Failover.Url.Form
import Failover.Proofs.Url.Password

/-
  Percent encoded text.  Encoding leaves no character of its
  set, so encoding again changes nothing; and the pairs of a
  query are read back from their form.

  Key definitions include:
    * `Percent.IsEscape`
    * `Percent.Spares`
    * `Form.sent`

  Main statements:
    * `Percent.encode_spared`
    * `Percent.encode_eq_self`
    * `Form.pairs_write`
    * `Form.write_spared`
-/

namespace Failover

namespace Url

/- Schemes have no control characters. -/
theorem isControl_of_isSchemeChar
    {c : Char}
    (h : isSchemeChar c = true) : Percent.isControl c = false := by
  have hBetween (a b : Char) (hA : a ≤ c) (hB : c ≤ b)
      (hFirst : 0x20 ≤ a.toNat) (hLast : b.toNat < 0x7F) :
      Percent.isControl c = false := by
    have hLow : a.toNat ≤ c.toNat := hA
    have hHigh : c.toNat ≤ b.toNat := hB
    simp only [Percent.isControl, Bool.or_eq_false_iff,
      decide_eq_false_iff_not]
    omega
  simp only [isSchemeChar, Text.isLetter, Text.isDigit,
    Bool.or_eq_true, Bool.and_eq_true, decide_eq_true_eq,
    beq_iff_eq] at h
  rcases h with ((((h | h) | h) | rfl) | rfl) | rfl
  · exact hBetween 'a' 'z' h.1 h.2 (by decide) (by decide)
  · exact hBetween 'A' 'Z' h.1 h.2 (by decide) (by decide)
  · exact hBetween '0' '9' h.1 h.2 (by decide) (by decide)
  all_goals rfl

end Url

------------------------------------------------------------
-- Encoding
------------------------------------------------------------

namespace Percent

/- The characters that escapes are made of. -/
def IsEscape (c : Char) : Prop :=
  c = '%' ∨ ∃ n < 16, c = Hex.upperDigit n

/- A set has none of the characters that escapes are made of. -/
def Spares (set : Char → Bool) : Prop :=
  ∀ c, IsEscape c → set c = false

/- A text without any character of a set. -/
def IsFree
    (set : Char → Bool)
    (cs : List Char) : Prop :=
  ∀ c ∈ cs, set c = false

/- A set spares escapes that has neither sign nor digits. -/
theorem spares_of_digits
    {set : Char → Bool}
    (hSign : set '%' = false)
    (hDigits : ∀ n < 16, set (Hex.upperDigit n) = false) :
    Spares set := by
  rintro c (rfl | ⟨n, hN, rfl⟩)
  · exact hSign
  · exact hDigits n hN

/- Escapes are not escaped again in users. -/
theorem spares_inUser : Spares inUser :=
  spares_of_digits rfl (by decide)

/- Escapes are not escaped again in paths. -/
theorem spares_inPath : Spares inPath :=
  spares_of_digits rfl (by decide)

/- Escapes are not escaped again in fragments. -/
theorem spares_inFragment : Spares inFragment :=
  spares_of_digits rfl (by decide)

/- Escapes are not escaped again in queries. -/
theorem spares_inQuery : Spares inQuery :=
  spares_of_digits rfl (by decide)

/- Escapes are not escaped again in opaque hosts. -/
theorem spares_isControl : Spares isControl :=
  spares_of_digits rfl (by decide)

section Encode

variable {set p : Char → Bool} {cs : List Char} {c d : Char}

/- An escaped byte is written in characters of escapes. -/
theorem isEscape_of_mem_encodeByte
    {b : UInt8}
    (h : c ∈ encodeByte b) : IsEscape c := by
  have hByte := b.toNat_lt
  simp only [encodeByte, List.mem_cons, List.not_mem_nil,
    or_false] at h
  rcases h with rfl | rfl | rfl
  · exact .inl rfl
  · exact .inr ⟨_, by omega, rfl⟩
  · exact .inr ⟨_, by omega, rfl⟩

/-
  A character of an encoded text was there before or belongs
  to an escape.
-/
theorem mem_encode
    (h : c ∈ encode set cs) :
    (c ∈ cs ∧ set c = false) ∨ IsEscape c := by
  unfold encode at h
  obtain ⟨d, hD, hC⟩ := List.mem_flatMap.mp h
  split at hC
  · obtain ⟨b, -, hByte⟩ := List.mem_flatMap.mp hC
    exact .inr (isEscape_of_mem_encodeByte hByte)
  · next hSet =>
    rw [List.mem_singleton] at hC
    subst hC
    exact .inl ⟨hD, by simpa using hSet⟩

/- An encoded text has no character of the set. -/
theorem encode_spared
    (hSpares : Spares set)
    (cs : List Char) : IsFree set (encode set cs) := by
  intro c hC
  rcases mem_encode hC with ⟨-, hSet⟩ | hEscape
  · exact hSet
  · exact hSpares c hEscape

/- Encoding adds characters of escapes only. -/
theorem encode_free
    (hSpares : Spares p)
    (hFree : IsFree p cs) : IsFree p (encode set cs) := by
  intro c hC
  rcases mem_encode hC with ⟨hMem, -⟩ | hEscape
  · exact hFree c hMem
  · exact hSpares c hEscape

/- A text without characters of the set is left as it is. -/
theorem encode_eq_self
    (hFree : IsFree set cs) : encode set cs = cs := by
  induction cs with
  | nil => rfl
  | cons c cs ih =>
      have hC : set c = false := hFree c List.mem_cons_self
      have hRest := ih fun d hD =>
        hFree d (List.mem_cons_of_mem _ hD)
      unfold encode at hRest ⊢
      rw [List.flatMap_cons, hRest, hC]
      rfl

/- A text is empty exactly if it is encoded as the empty text. -/
theorem encode_eq_nil
    (set : Char → Bool)
    (cs : List Char) : encode set cs = [] ↔ cs = [] := by
  constructor
  · intro h
    cases cs with
    | nil => rfl
    | cons c cs =>
        unfold encode at h
        rw [List.flatMap_cons, List.append_eq_nil_iff] at h
        revert h
        split
        · obtain ⟨b, r, hBytes⟩ :=
            List.exists_cons_of_ne_nil (Utf8.encodeChar_ne_nil c)
          simp [hBytes, encodeByte]
        · simp
  · rintro rfl
    rfl

end Encode

end Percent

------------------------------------------------------------
-- Forms
------------------------------------------------------------

namespace Form

/- What a written name or value holds none of. -/
def isMark (c : Char) : Bool :=
  c == '&' || c == '=' || Percent.inQuery c

/- Marks of forms spare escapes. -/
theorem spares_isMark : Percent.Spares isMark :=
  Percent.spares_of_digits rfl (by decide)

theorem isMark_of_isSchemeChar
    {c : Char}
    (h : Url.isSchemeChar c = true) : isMark c = false := by
  have hNe (d : Char) (hD : Url.isSchemeChar d = false) :
      c ≠ d := by
    rintro rfl
    rw [hD] at h
    exact absurd h (by decide)
  simp [isMark, Percent.inQuery, Url.isControl_of_isSchemeChar h,
    hNe '&' rfl, hNe '=' rfl, hNe ' ' rfl, hNe '"' rfl,
    hNe '#' rfl, hNe '<' rfl, hNe '>' rfl]

/- A byte that stands for itself is no mark of a form. -/
theorem isMark_of_isPlain
    {b : UInt8}
    (h : isPlain b = true) :
    isMark (Char.ofNat b.toNat) = false := by
  simp only [isPlain, Bool.or_eq_true, List.contains_eq_mem,
    decide_eq_true_eq, List.mem_cons, List.not_mem_nil,
    or_false] at h
  rcases h with hWord | hMark | hMark | hMark | hMark
  · apply isMark_of_isSchemeChar
    simp [Url.isSchemeChar, hWord]
  all_goals
    rw [hMark]
    rfl

/- A byte is written as a plain character or in an escape. -/
theorem encodeByte_spared (b : UInt8) :
    Percent.IsFree isMark (encodeByte b) := by
  intro c hC
  unfold encodeByte at hC
  split at hC
  · next hPlain =>
    rw [List.mem_singleton.mp hC]
    exact isMark_of_isPlain hPlain
  · split at hC
    · rw [List.mem_singleton.mp hC]
      rfl
    · exact spares_isMark c (Percent.isEscape_of_mem_encodeByte hC)

/- A text of a form is written without marks. -/
theorem encodeText_spared (s : String) :
    Percent.IsFree isMark (encodeText s) := by
  intro c hC
  obtain ⟨b, -, hByte⟩ := List.mem_flatMap.mp hC
  exact encodeByte_spared b c hByte

/- The bytes of a text whose plus signs are spaces. -/
def sent (cs : List Char) : Bytes :=
  (cs.map fun c => if c = '+' then ' ' else c).flatMap
    Utf8.encodeChar

/- Texts are sent one after the other. -/
theorem sent_append (a b : List Char) :
    sent (a ++ b) = sent a ++ sent b := by
  simp [sent]

/- A hexadecimal digit is sent as one byte. -/
theorem sent_digit :
    ∀ n < 16, sent [Hex.upperDigit n] =
      [(Hex.upperDigit n).toNat.toUInt8] := by
  decide

/- An upper-case hexadecimal digit is read as its value. -/
theorem value?_upperDigit :
    ∀ n < 16, Hex.value? (Char.ofNat
      (Hex.upperDigit n).toNat.toUInt8.toNat) = some n := by
  decide

/- An escaped byte is sent as three. -/
theorem sent_escape (b : UInt8) :
    sent (Percent.encodeByte b) =
      [0x25, (Hex.upperDigit (b.toNat / 16)).toNat.toUInt8,
        (Hex.upperDigit (b.toNat % 16)).toNat.toUInt8] := by
  have hByte := b.toNat_lt
  have hDigits := sent_append [Hex.upperDigit (b.toNat / 16)]
    [Hex.upperDigit (b.toNat % 16)]
  rw [sent_digit _ (by omega), sent_digit _ (by omega)] at hDigits
  exact (sent_append ['%'] _).trans (congrArg (_ ++ ·) hDigits)

theorem ne_of_isPlain
    {b d : UInt8}
    (h : isPlain b = true)
    (hD : isPlain d = false) : b ≠ d := by
  rintro rfl
  rw [hD] at h
  exact absurd h (by decide)

/- A plain byte is sent as itself. -/
theorem sent_plain
    {b : UInt8}
    (h : isPlain b = true) :
    sent [Char.ofNat b.toNat] = [b] := by
  have hCode := Utf8.toNat_ofNat_byte b
  have hPlus : Char.ofNat b.toNat ≠ '+' := by
    intro hSame
    rw [hSame] at hCode
    exact ne_of_isPlain (d := 0x2B) h rfl
      (UInt8.toNat_inj.mp hCode.symm)
  have hAscii : (Char.ofNat b.toNat).toNat < 0x80 := by
    have hMark := isMark_of_isPlain h
    simp only [isMark, Percent.inQuery, Percent.isControl,
      Bool.or_eq_false_iff, decide_eq_false_iff_not] at hMark
    omega
  have hSame : b.toNat.toUInt8 = b := UInt8.ofNat_toNat
  simp only [sent, List.map_singleton, if_neg hPlus,
    List.flatMap_singleton, Utf8.encodeChar_ascii hAscii, hCode,
    hSame]

/- Only a percent sign begins an escape. -/
theorem decode_other
    {b : UInt8}
    (h : b ≠ 0x25)
    (r : Bytes) :
    Percent.decode (b :: r) = b :: Percent.decode r := by
  rcases r with _ | ⟨x, _ | ⟨y, r⟩⟩ <;>
    simp [Percent.decode, h]

/- An escape stands for its byte. -/
theorem decode_escape
    (b : UInt8)
    (r : Bytes) :
    Percent.decode (sent (Percent.encodeByte b) ++ r) =
      b :: Percent.decode r := by
  have hByte := b.toNat_lt
  have hSame : b.toNat.toUInt8 = b := UInt8.ofNat_toNat
  have hHigh := value?_upperDigit (b.toNat / 16) (by omega)
  have hLow := value?_upperDigit (b.toNat % 16) (by omega)
  have hSum : b.toNat / 16 * 16 + b.toNat % 16 = b.toNat := by
    omega
  rw [sent_escape]
  change Percent.decode (0x25 :: _ :: _ :: r) = _
  rw [Percent.decode]
  simp only [hHigh, hLow, hSum, hSame]

/- A byte is read back. -/
theorem decode_sent
    (b : UInt8)
    (r : Bytes) :
    Percent.decode (sent (encodeByte b) ++ r) =
      b :: Percent.decode r := by
  unfold encodeByte
  split
  · next hPlain =>
    rw [sent_plain hPlain]
    exact decode_other (ne_of_isPlain hPlain rfl) r
  · split
    · next hSpace =>
      subst hSpace
      exact decode_other (by decide) r
    · exact decode_escape b r

/- Bytes come back from what was sent of them. -/
theorem decode_sent_flatMap (bs : Bytes) :
    Percent.decode (sent (bs.flatMap encodeByte)) = bs := by
  induction bs with
  | nil => rfl
  | cons b bs ih =>
      rw [List.flatMap_cons, sent_append, decode_sent, ih]

/- A text is read back. -/
theorem decodeText_encodeText (s : String) :
    decodeText (encodeText s) = s := by
  change Utf8.decodeLossy (Percent.decode (sent _)) = s
  rw [encodeText, decode_sent_flatMap, Utf8.decodeLossy_encode]

/- A pair comes back from its text. -/
theorem decodePair_writePair (p : String × String) :
    decodePair (writePair p) = p := by
  have hName : '=' ∉ encodeText p.1 := fun h =>
    absurd (encodeText_spared p.1 _ h) (by decide)
  unfold decodePair writePair
  rw [Url.splitAtFirst?_append hName, Text.splitAtFirst?,
    if_pos rfl]
  simp only [Option.map_some, List.append_nil,
    decodeText_encodeText]

/- Every pair is written, with an equals sign at least. -/
theorem writePair_ne_nil (p : String × String) :
    writePair p ≠ [] := by
  simp [writePair]

/- Besides that sign a pair is written without marks. -/
theorem mem_writePair
    {p : String × String}
    {c : Char}
    (h : c ∈ writePair p) : c = '=' ∨ isMark c = false := by
  simp only [writePair, List.mem_append, List.mem_cons] at h
  rcases h with h | h | h
  · exact .inr (encodeText_spared p.1 c h)
  · exact .inl h
  · exact .inr (encodeText_spared p.2 c h)

/- The pairs of a query are read back. -/
theorem pairs_write (ps : List (String × String)) :
    pairs (write ps) = ps := by
  cases ps with
  | nil => rfl
  | cons p ps =>
      have hParts : Text.splitOn '&' (write (p :: ps)) =
          (p :: ps).map writePair := by
        rw [Text.splitOn_eq_list_splitOn]
        refine List.splitOn_intercalate '&' ?_ (by simp)
        intro part hPart hMark
        obtain ⟨q, -, rfl⟩ := List.mem_map.mp hPart
        rcases mem_writePair hMark with hSame | hNone
        · exact absurd hSame (by decide)
        · exact absurd hNone (by decide)
      have hAll : ((p :: ps).map writePair).filter
          (fun part => !part.isEmpty) = (p :: ps).map writePair := by
        refine List.filter_eq_self.mpr ?_
        intro part hPart
        obtain ⟨q, -, rfl⟩ := List.mem_map.mp hPart
        simp [writePair_ne_nil]
      rw [pairs, hParts, hAll, List.map_map]
      have hSame : decodePair ∘ writePair = id :=
        funext decodePair_writePair
      rw [hSame, List.map_id]

/- Between parts there is nothing but the mark. -/
theorem mem_intercalate
    {mark c : Char}
    {parts : List (List Char)}
    (h : c ∈ [mark].intercalate parts) :
    c = mark ∨ ∃ p ∈ parts, c ∈ p := by
  induction parts with
  | nil => simp at h
  | cons p ps ih =>
      cases ps with
      | nil => exact .inr ⟨p, by simp, by simpa using h⟩
      | cons q qs =>
          simp only [List.intercalate_cons_cons, List.mem_append,
            List.mem_singleton] at h
          rcases h with (hHere | hMark) | hLater
          · exact .inr ⟨p, by simp, hHere⟩
          · exact .inl hMark
          · rcases ih hLater with hMark | ⟨x, hX, hMem⟩
            · exact .inl hMark
            · exact .inr ⟨x, List.mem_cons_of_mem _ hX, hMem⟩

/- A written query holds nothing that queries encode. -/
theorem write_spared (ps : List (String × String)) :
    Percent.IsFree Percent.inQuery (write ps) := by
  intro c hC
  rcases mem_intercalate hC with rfl | ⟨part, hPart, hMem⟩
  · rfl
  · obtain ⟨p, -, rfl⟩ := List.mem_map.mp hPart
    rcases mem_writePair hMem with rfl | hNone
    · rfl
    · simp only [isMark, Bool.or_eq_false_iff] at hNone
      exact hNone.2

end Form

end Failover
