import Failover.Proofs.Config.Valid
import Failover.Proofs.Text.Utf8
import Failover.Proofs.Url.Address
import Failover.Proofs.Url.Escape

/-
  What the parts of a URL are like after it has been read.
  They hold nothing that would be encoded once more, no mark
  at which another part begins, and no segment that stands
  for another place.

  Key definitions include:
    * `Url.IsScheme`, `Url.IsHost`, `Url.IsSegment`
    * `Url.Authority.IsNormal`, `Url.Path.IsNormal`
    * `Url.IsNormal`

  Main statements:
    * `Url.readAuthority_isNormal`
    * `Url.normalise_isSegment`
    * `Url.ofText_isNormal`
-/

namespace Failover

namespace Url

open Percent (IsFree IsEscape Spares)

------------------------------------------------------------
-- Parts
------------------------------------------------------------

/- A scheme in lower case. -/
structure IsScheme (cs : List Char) : Prop where
  begins : ∃ c r, cs = c :: r ∧ Text.isLetter c = true
  chars : ∀ c ∈ cs, isSchemeChar c = true
  folded : cs.map Text.foldChar = cs

/- A name without marks, or an address in brackets. -/
inductive IsHost : List Char → Prop where
  | name
      {cs : List Char}
      (hFree : IsFree isForbiddenHost cs)
      (hControl : IsFree Percent.isControl cs) : IsHost cs
  | address
      {a : Address}
      (hA : a.IsAddress) : IsHost ('[' :: (a.write ++ [']']))

/- Without a host there is nothing else. -/
structure Authority.IsNormal (a : Authority) : Prop where
  user : IsFree Percent.inUser a.user
  password : ∀ p ∈ a.password,
    p ≠ [] ∧ IsFree Percent.inUser p
  host : IsHost a.host
  number : ∀ n ∈ a.portNumber, n ≤ 65535
  alone : a.host = [] →
    a.user = [] ∧ a.password = none ∧ a.portNumber = none

/- A segment that stands for a place below. -/
structure IsSegment (s : List Char) : Prop where
  free : IsFree Percent.inPath s
  slash : '/' ∉ s
  dot : isDot s = false
  dots : isDoubleDot s = false

/-
  Text that is no path stands where no authority is, and a
  path has segments there.
-/
inductive Path.IsNormal (hasAuthority : Bool) : Path → Prop where
  | text
      {text : List Char}
      (hAlone : hasAuthority = false)
      (hFree : IsFree Percent.isControl text)
      (hBegins : ∀ c ∈ text.head?, c ≠ '/')
      (hQuery : '?' ∉ text)
      (hFragment : '#' ∉ text) : IsNormal hasAuthority (.opaqueText text)
  | segments
      {parts : List (List Char)}
      (hParts : ∀ s ∈ parts, IsSegment s)
      (hSome : hasAuthority = false → parts ≠ []) :
      IsNormal hasAuthority (.segments parts)

/- No space is at the end of a URL. -/
structure IsNormal (u : Url) : Prop where
  scheme : IsScheme u.scheme
  authority : ∀ a ∈ u.authority, a.IsNormal
  path : u.path.IsNormal u.authority.isSome
  query : ∀ q ∈ u.query, IsFree Percent.inQuery q
  fragment : ∀ f ∈ u.fragment, IsFree Percent.inFragment f
  ends : u.query = none → u.fragment = none →
    ∀ text, u.path = .opaqueText text → text.getLast? ≠ some ' '

------------------------------------------------------------
-- Sets of characters
------------------------------------------------------------

section Sets

variable {c : Char} {cs : List Char}

/-
  A character that fragments do not encode is no control
  character.
-/
theorem isControl_of_inFragment
    (h : Percent.inFragment c = false) :
    Percent.isControl c = false := by
  simp only [Percent.inFragment, Bool.or_eq_false_iff] at h
  exact h.1

/-
  A character that queries do not encode is no control
  character.
-/
theorem isControl_of_inQuery
    (h : Percent.inQuery c = false) :
    Percent.isControl c = false := by
  simp only [Percent.inQuery, Bool.or_eq_false_iff] at h
  exact h.1

/- A mark of a set is not in a text that is free of the set. -/
theorem not_mem_of_free
    {set : Char → Bool}
    (hFree : IsFree set cs)
    (hMark : set c = true) : c ∉ cs := by
  intro hMem
  rw [hFree c hMem] at hMark
  exact absurd hMark (by decide)

theorem spares_isForbiddenHost : Spares isForbiddenHost :=
  Percent.spares_of_digits rfl (by decide)

/- A character that is no part of an escape comes from outside. -/
theorem not_mem_encode
    {set : Char → Bool}
    (hMem : c ∉ cs)
    (hEscape : ¬ IsEscape c) : c ∉ Percent.encode set cs := by
  intro h
  rcases Percent.mem_encode h with ⟨hThere, -⟩ | hMade
  · exact hMem hThere
  · exact hEscape hMade

/- Only the sign and hexadecimal digits make up escapes. -/
theorem not_isEscape
    (hSign : c ≠ '%')
    (hDigits : ∀ n < 16, c ≠ Hex.upperDigit n) :
    ¬ IsEscape c := by
  rintro (hSame | ⟨n, hN, hSame⟩)
  · exact hSign hSame
  · exact hDigits n hN hSame

end Sets

------------------------------------------------------------
-- Scheme
------------------------------------------------------------

/- A letter is one in any case. -/
theorem isLetter_foldChar (c : Char) :
    Text.isLetter (Text.foldChar c) = Text.isLetter c :=
  Text.apply_foldChar Text.isLetter (by decide) c

theorem isSchemeChar_foldChar (c : Char) :
    isSchemeChar (Text.foldChar c) = isSchemeChar c :=
  Text.apply_foldChar isSchemeChar (by decide) c

/- Folding a character twice is folding it once. -/
theorem foldChar_foldChar (c : Char) :
    Text.foldChar (Text.foldChar c) = Text.foldChar c :=
  Text.apply_foldChar Text.foldChar (by decide) c

/- A scheme that is found stands in front of its colon. -/
theorem scheme?_isScheme
    {cs scheme r : List Char}
    (h : scheme? cs = some (scheme, r)) :
    IsScheme scheme ∧ ∃ before, cs = before ++ ':' :: r := by
  unfold scheme? at h
  cases cs with
  | nil => cases h
  | cons c cs =>
      simp only at h
      cases hLetter : Text.isLetter c with
      | false =>
          rw [hLetter] at h
          cases h
      | true =>
          simp only [hLetter, Bool.not_true, Bool.false_eq_true,
            if_false] at h
          split at h
          · next r' hDrop =>
            cases h
            have hSplit := List.takeWhile_append_dropWhile
              (p := isSchemeChar) (l := c :: cs)
            rw [hDrop] at hSplit
            refine ⟨⟨?_, ?_, ?_⟩, _, hSplit.symm⟩
            · have hChar : isSchemeChar c = true := by
                simp [isSchemeChar, hLetter]
              rw [List.takeWhile_cons_of_pos hChar]
              exact ⟨_, _, rfl, by rw [isLetter_foldChar, hLetter]⟩
            · intro d hD
              obtain ⟨e, hE, rfl⟩ := List.mem_map.mp hD
              rw [isSchemeChar_foldChar]
              exact List.mem_takeWhile_imp hE
            · rw [List.map_map]
              exact List.map_congr_left fun d _ =>
                foldChar_foldChar d
          · cases h

------------------------------------------------------------
-- Authority
------------------------------------------------------------

/- A host that is read is a host. -/
theorem readHost_isHost
    {cs host : List Char}
    (h : readHost cs = .ok host) : IsHost host := by
  unfold readHost at h
  split at h
  · split at h
    · split at h
      · next a hA =>
        cases h
        exact .address (Address.ofChars?_isAddress hA)
      · cases h
    · cases h
  · split at h
    · cases h
    · next hNone =>
      cases h
      have hFree : IsFree isForbiddenHost cs := by
        simpa [IsFree] using hNone
      exact .name
        (Percent.encode_free spares_isForbiddenHost hFree)
        (Percent.encode_spared Percent.spares_isControl cs)

/- A port is at most 65535. -/
theorem readPortNumber_le
    {cs left : List Char}
    {n : Nat}
    (h : readPortNumber cs = .ok (some n, left)) :
    n ≤ 65535 := by
  unfold readPortNumber at h
  simp only at h
  split at h
  · cases h
  · next hLess =>
    have hNumber (o : Option Nat)
        (hO : (if (cs.takeWhile Text.isDigit).isEmpty = true
          then none
          else some (Decimal.ofDigits
            (cs.takeWhile Text.isDigit))) = o)
        (hN : o = some n) : n ≤ 65535 := by
      subst hO
      split at hN
      · cases hN
      · cases hN
        omega
    split at h
    · simp only [Except.ok.injEq, Prod.mk.injEq] at h
      exact hNumber _ rfl h.1
    · simp only [Except.ok.injEq, Prod.mk.injEq] at h
      exact hNumber _ rfl h.1
    · cases h

/- A user and a password are escaped as they are read. -/
theorem readUser_free (cs : List Char) :
    IsFree Percent.inUser (readUser cs).1 ∧
    ∀ p ∈ (readUser cs).2, p ≠ [] ∧ IsFree Percent.inUser p := by
  have hEncoded (cs : List Char) :
      IsFree Percent.inUser (Percent.encode Percent.inUser cs) :=
    Percent.encode_spared Percent.spares_inUser cs
  unfold readUser
  simp only
  split
  · exact ⟨hEncoded _, nofun⟩
  · exact ⟨hEncoded _, nofun⟩
  · next user password hSome _ =>
    refine ⟨hEncoded _, ?_⟩
    rintro p hP
    obtain rfl : Percent.encode Percent.inUser password = p := by
      simpa using hP
    exact ⟨mt (Percent.encode_eq_nil _ _).mp hSome, hEncoded _⟩

/- User and password need a host at the end as well. -/
theorem finish_eq_ok
    {user host left left' : List Char}
    {password : Option (List Char)}
    {number : Option Nat}
    {a : Authority}
    (h : (do
      if host.isEmpty && (!user.isEmpty || password.isSome) then
        throw ParseError.emptyHost
      return ((⟨user, password, host, number⟩ : Authority), left) :
        Except ParseError (Authority × List Char)) =
          .ok (a, left')) :
    a = ⟨user, password, host, number⟩ ∧
    (host = [] → user = [] ∧ password = none) := by
  split at h
  · cases h
  · next hSome =>
    cases h
    refine ⟨rfl, ?_⟩
    rintro rfl
    simpa using hSome

/- An authority that is read is normal. -/
theorem readAuthority_isNormal
    {cs left : List Char}
    {more : Bool}
    {a : Authority}
    (h : readAuthority cs more = .ok (a, left)) :
    a.IsNormal := by
  unfold readAuthority at h
  generalize cutUser cs = cut at h
  obtain ⟨user?, hostPort⟩ := cut
  simp only at h
  have hParts := readUser_free (user?.getD [])
  generalize readUser (user?.getD []) = parts at h hParts
  obtain ⟨user, password⟩ := parts
  generalize cutHost false hostPort = cut at h
  obtain ⟨hostText, r⟩ := cut
  simp only at h hParts
  split at h
  · cases h
  obtain ⟨host, hHost, h⟩ := bind_eq_ok_iff.mp h
  split at h
  · cases h
  next hSome =>
  cases r with
  | nil =>
      obtain ⟨rfl, hAlone⟩ := finish_eq_ok h
      refine ⟨hParts.1, hParts.2, readHost_isHost hHost, ?_,
        fun hNil => ⟨(hAlone hNil).1, (hAlone hNil).2, rfl⟩⟩
      rintro n ⟨⟩
  | cons c r =>
      obtain ⟨⟨number, after⟩, hNumber, h⟩ := bind_eq_ok_iff.mp h
      obtain ⟨rfl, -⟩ := finish_eq_ok h
      have hHere : host ≠ [] := by
        rintro rfl
        exact hSome rfl
      refine ⟨hParts.1, hParts.2, readHost_isHost hHost, ?_,
        fun hNil => absurd hNil hHere⟩
      rintro n rfl
      exact readPortNumber_le hNumber

------------------------------------------------------------
-- Path
------------------------------------------------------------

/- Whatever is an escape in a text is one of a dot. -/
def HasDots (cs : List Char) : Prop :=
  ∀ before a b after, cs = before ++ '%' :: a :: b :: after →
    Text.foldChar a = '2' ∧ Text.foldChar b = 'e'

section Dots

variable {a b c : Char} {cs r : List Char}

/- The empty text has no escapes but of dots. -/
theorem hasDots_nil : HasDots [] := by
  intro before a b after h
  simp at h

/- A dot in front adds no escape. -/
theorem HasDots.dot (hR : HasDots r) : HasDots ('.' :: r) := by
  intro before a b after h
  cases before with
  | nil => cases h
  | cons x before => exact hR before a b after (List.cons.inj h).2

/- An escaped dot in front adds an escape of a dot. -/
theorem HasDots.escape
    (hB : Text.foldChar b = '2')
    (hC : Text.foldChar c = 'e')
    (hR : HasDots r) : HasDots (a :: b :: c :: r) := by
  intro before x y after h
  rcases before with _ | ⟨_, _ | ⟨_, _ | ⟨_, before⟩⟩⟩
  · cases h
    exact ⟨hB, hC⟩
  · cases h
    exact absurd hB (by decide)
  · cases h
    exact absurd hC (by decide)
  · simp only [List.cons_append, List.cons.injEq] at h
    exact hR before x y after h.2.2.2

/- A single dot is one, or its escape. -/
theorem isDot_cases (h : isDot cs = true) :
    cs = ['.'] ∨ ∃ a b c, cs = [a, b, c] ∧
      Text.foldChar b = '2' ∧ Text.foldChar c = 'e' := by
  simp only [isDot, Bool.or_eq_true, beq_iff_eq] at h
  refine h.imp_right fun hFold => ?_
  rcases cs with _ | ⟨a, _ | ⟨b, _ | ⟨c, _ | ⟨d, r⟩⟩⟩⟩ <;>
    simp only [List.map_cons, List.map_nil, List.cons.injEq,
      reduceCtorEq, and_false, and_true] at hFold
  exact ⟨a, b, c, rfl, hFold.2⟩

/- A segment of dots has no escapes but of dots. -/
theorem hasDots_of_isDot
    (h : isDot cs = true) : HasDots cs := by
  rcases isDot_cases h with rfl | ⟨a, b, c, rfl, hB, hC⟩
  · exact hasDots_nil.dot
  · exact hasDots_nil.escape hB hC

/- A double dot has no escapes but of dots. -/
theorem hasDots_of_isDoubleDot
    (h : isDoubleDot cs = true) : HasDots cs := by
  unfold isDoubleDot at h
  split at h
  · exact (hasDots_of_isDot h).dot
  · next a b c r _ =>
    rw [Bool.and_eq_true] at h
    rcases isDot_cases h.1 with hOne | ⟨a', b', c', hThree, hB, hC⟩
    · cases hOne
    · cases hThree
      exact (hasDots_of_isDot h.2).escape hB hC
  · cases h

/- The digits of a byte are those of a dot only for a dot. -/
theorem byte_of_dot
    {b : UInt8}
    (hHigh : Text.foldChar (Hex.upperDigit (b.toNat / 16)) = '2')
    (hLow : Text.foldChar (Hex.upperDigit (b.toNat % 16)) = 'e') :
    b = Utf8.code '.' := by
  have hByte := b.toNat_lt
  have hTwo : ∀ n < 16,
      Text.foldChar (Hex.upperDigit n) = '2' → n = 2 := by decide
  have hLast : ∀ n < 16,
      Text.foldChar (Hex.upperDigit n) = 'e' → n = 14 := by decide
  have hFirst := hTwo (b.toNat / 16) (by omega) hHigh
  have hSecond := hLast (b.toNat % 16) (by omega) hLow
  rw [← UInt8.toNat_inj]
  change b.toNat = 46
  omega

/-
  A segment whose escapes after encoding are all of dots has
  nothing to be encoded.
-/
theorem encode_of_hasDots
    {s : List Char}
    (h : HasDots (Percent.encode Percent.inPath s)) :
    Percent.encode Percent.inPath s = s := by
  refine Percent.encode_eq_self fun c hC => ?_
  by_contra hSet
  rw [Bool.not_eq_false] at hSet
  obtain ⟨before, after, rfl⟩ := List.append_of_mem hC
  obtain ⟨byte, bytes, hBytes⟩ :=
    List.exists_cons_of_ne_nil (Utf8.encodeChar_ne_nil c)
  have hEncode : Percent.encode Percent.inPath
      (before ++ c :: after) =
        Percent.encode Percent.inPath before ++ '%' ::
          Hex.upperDigit (byte.toNat / 16) ::
          Hex.upperDigit (byte.toNat % 16) ::
          (bytes.flatMap Percent.encodeByte ++
            Percent.encode Percent.inPath after) := by
    simp [Percent.encode, hSet, hBytes, Percent.encodeByte]
  obtain ⟨hHigh, hLow⟩ := h _ _ _ _ hEncode
  have hDot : c = '.' :=
    (Utf8.eq_code_iff (by decide) (by simp [hBytes])).mp
      (byte_of_dot hHigh hLow)
  subst hDot
  exact absurd hSet (by decide)

/- A segment that is no dot stays one when it is encoded. -/
theorem isSegment_encode
    {s : List Char}
    (hSlash : '/' ∉ s)
    (hDot : isDot s = false)
    (hDots : isDoubleDot s = false) :
    IsSegment (Percent.encode Percent.inPath s) where
  free := Percent.encode_spared Percent.spares_inPath s
  slash := not_mem_encode hSlash
    (not_isEscape (by decide) (by decide))
  dot := by
    by_contra h
    rw [Bool.not_eq_false] at h
    rw [encode_of_hasDots (hasDots_of_isDot h), hDot] at h
    exact absurd h (by decide)
  dots := by
    by_contra h
    rw [Bool.not_eq_false] at h
    rw [encode_of_hasDots (hasDots_of_isDoubleDot h), hDots] at h
    exact absurd h (by decide)

end Dots

theorem isSegment_nil : IsSegment [] where
  free := nofun
  slash := List.not_mem_nil
  dot := rfl
  dots := rfl

/- Going up leaves segments. -/
theorem parent_isSegment
    {done : List (List Char)}
    (hDone : ∀ s ∈ done, IsSegment s) :
    ∀ s ∈ parent done, IsSegment s := by
  intro s hS
  unfold parent at hS
  split at hS
  · split at hS
    · exact hDone s hS
    · exact hDone s (List.dropLast_subset _ hS)
  · cases hS

/- A segment more is one of the path. -/
theorem append_isSegment
    {done : List (List Char)}
    {s : List Char}
    (hDone : ∀ s ∈ done, IsSegment s)
    (hS : IsSegment s) : ∀ x ∈ done ++ [s], IsSegment x := by
  intro x hX
  rcases List.mem_append.mp hX with hMem | hMem
  · exact hDone x hMem
  · rwa [List.mem_singleton.mp hMem]

/- Segments are left, and at least one. -/
theorem normalise_isSegment
    {done ss : List (List Char)}
    (hDone : ∀ s ∈ done, IsSegment s)
    (hSlash : ∀ s ∈ ss, '/' ∉ s) :
    (∀ s ∈ normalise done ss, IsSegment s) ∧
      (ss ≠ [] → normalise done ss ≠ []) := by
  fun_induction normalise done ss with
  | case1 => exact ⟨hDone, fun h => absurd rfl h⟩
  | case2 done s hDots =>
      exact ⟨append_isSegment (parent_isSegment hDone)
        isSegment_nil, fun _ => by simp⟩
  | case3 done s hDots hDot =>
      exact ⟨append_isSegment hDone isSegment_nil,
        fun _ => by simp⟩
  | case4 done s hDots hDot =>
      rw [List.forall_mem_singleton] at hSlash
      rw [Bool.not_eq_true] at hDot hDots
      exact ⟨append_isSegment hDone
        (isSegment_encode hSlash hDot hDots), fun _ => by simp⟩
  | case5 done s r hSome hDots ih =>
      rw [List.forall_mem_cons] at hSlash
      have hRest := ih (parent_isSegment hDone) hSlash.2
      exact ⟨hRest.1, fun _ => hRest.2 hSome⟩
  | case6 done s r hSome hDots hDot ih =>
      rw [List.forall_mem_cons] at hSlash
      have hRest := ih hDone hSlash.2
      exact ⟨hRest.1, fun _ => hRest.2 hSome⟩
  | case7 done s r hSome hDots hDot ih =>
      rw [List.forall_mem_cons] at hSlash
      rw [Bool.not_eq_true] at hDot hDots
      have hRest := ih (append_isSegment hDone
        (isSegment_encode hSlash.1 hDot hDots)) hSlash.2
      exact ⟨hRest.1, fun _ => hRest.2 hSome⟩

/- A path that is read segment by segment is normal. -/
theorem readSegments_isNormal
    (hasAuthority : Bool)
    (cs : List Char) :
    (readSegments cs).IsNormal hasAuthority := by
  obtain ⟨hParts, hSome⟩ := @normalise_isSegment []
    (Text.splitOn '/' cs) nofun (Text.mark_not_mem '/' cs)
  exact .segments hParts
    fun _ => hSome (Text.splitOn_ne_nil '/' cs)

/- A path that is read from the root on is normal. -/
theorem readRooted_isNormal (cs : List Char) :
    (readRooted cs).IsNormal true := by
  unfold readRooted
  split
  · exact .segments nofun nofun
  · exact readSegments_isNormal true _
  · exact readSegments_isNormal true _

------------------------------------------------------------
-- Whole texts
------------------------------------------------------------

section Cuts

variable {mark : Char} {a : List Char}

/- A text is cut at its mark, or not at all. -/
theorem cutAt_writeOptional
    (hMark : mark ∉ a)
    (o : Option (List Char)) :
    cutAt mark (a ++ writeOptional mark o) = (a, o) := by
  rw [cutAt_append hMark]
  cases o <;>
    simp [cutAt, Text.splitAtFirst?, writeOptional]

/- A text is what stands before a mark, and perhaps the rest. -/
theorem exists_cut
    (mark : Char)
    (cs : List Char) :
    ∃ a o, mark ∉ a ∧ cs = a ++ writeOptional mark o := by
  by_cases hMem : mark ∈ cs
  · obtain ⟨a, b, rfl, hA⟩ := List.eq_append_cons_of_mem hMem
    exact ⟨a, some b, hA, rfl⟩
  · exact ⟨cs, none, hMem, (List.append_nil cs).symm⟩

end Cuts

/- A text that has been cleaned does not end with a space. -/
theorem clean_getLast?
    {cs : List Char}
    {c : Char}
    (h : (clean cs).getLast? = some c) : isEdge c = false := by
  have hTrimmed : ∀ d ∈ (Text.trimBoth isEdge cs).getLast?,
      isEdge d = false := by
    intro d hD
    rw [Text.trimBoth, List.getLast?_reverse] at hD
    have hHead := List.head?_dropWhile_not isEdge
      (cs.dropWhile isEdge).reverse
    rw [Option.mem_def.mp hD] at hHead
    simpa using hHead
  unfold clean at h
  rcases List.eq_nil_or_concat (Text.trimBoth isEdge cs) with
    hNil | ⟨before, d, hText⟩
  · rw [hNil] at h
    cases h
  · have hEdge := hTrimmed d (by simp [hText])
    have hKept : (!isIgnored d) = true := by
      rw [Bool.not_eq_true']
      by_contra hIgnored
      rw [Bool.not_eq_false] at hIgnored
      rw [isEdge_of_isIgnored hIgnored] at hEdge
      exact absurd hEdge (by decide)
    rw [hText, List.concat_eq_append, List.filter_append,
      List.filter_singleton, hKept] at h
    simp only [cond_true, List.getLast?_append_cons,
      List.getLast?_singleton, Option.some.injEq] at h
    rwa [← h]

/- Texts are escaped one after the other. -/
theorem encode_append
    (set : Char → Bool)
    (a b : List Char) :
    Percent.encode set (a ++ b) =
      Percent.encode set a ++ Percent.encode set b :=
  List.flatMap_append

/- A mark at the head or the end of a text was there before. -/
theorem mem_encode_singleton
    {set : Char → Bool}
    {c d : Char}
    (hEscape : ¬ IsEscape d)
    (h : d ∈ Percent.encode set [c]) : c = d := by
  rcases Percent.mem_encode h with ⟨hMem, -⟩ | hMade
  · exact (List.mem_singleton.mp hMem).symm
  · exact absurd hMade hEscape

/- A first character that is no escape was there before. -/
theorem head?_encode
    {set : Char → Bool}
    {cs : List Char}
    {d : Char}
    (hEscape : ¬ IsEscape d)
    (h : (Percent.encode set cs).head? = some d) :
    cs.head? = some d := by
  cases cs with
  | nil => cases h
  | cons c cs =>
      have hSome : Percent.encode set [c] ≠ [] :=
        mt (Percent.encode_eq_nil set [c]).mp (List.cons_ne_nil c [])
      rw [← List.singleton_append, encode_append,
        List.head?_append_of_ne_nil _ hSome] at h
      rw [mem_encode_singleton hEscape (List.mem_of_mem_head? h)]
      rfl

/-
  What comes last in an encoded text, and is of no escape,
  came last before.
-/
theorem getLast?_encode
    {set : Char → Bool}
    {cs : List Char}
    {d : Char}
    (hEscape : ¬ IsEscape d)
    (h : (Percent.encode set cs).getLast? = some d) :
    cs.getLast? = some d := by
  rcases List.eq_nil_or_concat cs with rfl | ⟨before, c, rfl⟩
  · cases h
  · have hSome : Percent.encode set [c] ≠ [] :=
      mt (Percent.encode_eq_nil set [c]).mp (List.cons_ne_nil c [])
    rw [List.concat_eq_append] at h ⊢
    rw [encode_append, List.getLast?_append_of_ne_nil _ hSome] at h
    rw [mem_encode_singleton hEscape (List.mem_of_getLast? h)]
    simp

/- An encoded part of a URL has no character of the set. -/
theorem map_encode_free
    {set : Char → Bool}
    (hSpares : Spares set)
    (o : Option (List Char)) :
    ∀ cs ∈ o.map (Percent.encode set), IsFree set cs := by
  intro cs hCs
  obtain ⟨x, -, rfl⟩ := Option.map_eq_some_iff.mp hCs
  exact Percent.encode_spared hSpares x

/- Text that begins with no slash is no path. -/
theorem opaqueText_isNormal
    {cs : List Char}
    (hMark : '?' ∉ cs)
    (hHash : '#' ∉ cs)
    (hBegins : ∀ r, cs ≠ '/' :: r) :
    Path.IsNormal false
      (.opaqueText (Percent.encode Percent.isControl cs)) := by
  refine .text rfl
    (Percent.encode_spared Percent.spares_isControl cs) ?_
    (not_mem_encode hMark (not_isEscape (by decide) (by decide)))
    (not_mem_encode hHash (not_isEscape (by decide) (by decide)))
  rintro c hC rfl
  have hHead := head?_encode
    (not_isEscape (by decide) (by decide)) hC
  cases cs with
  | nil => cases hHead
  | cons d r =>
      cases hHead
      exact hBegins r rfl

/-
  What is read after a scheme is normal, if the text does not
  end with a space.  The cases are those of what the text
  begins with.
-/
theorem readAfterScheme_isNormal
    {scheme cs : List Char}
    {u : Url}
    (hScheme : IsScheme scheme)
    (hEnd : cs.getLast? ≠ some ' ')
    (h : readAfterScheme scheme cs = .ok u) : u.IsNormal := by
  obtain ⟨before, fragment, hHash, rfl⟩ := exists_cut '#' cs
  obtain ⟨front, query, hMark, rfl⟩ := exists_cut '?' before
  have hQuery := map_encode_free Percent.spares_inQuery query
  have hFragment :=
    map_encode_free Percent.spares_inFragment fragment
  unfold readAfterScheme at h
  simp only [cutAt_writeOptional hHash,
    cutAt_writeOptional hMark] at h
  split at h
  · obtain ⟨⟨a, left⟩, hA, h⟩ := bind_eq_ok_iff.mp h
    cases h
    refine ⟨hScheme, ?_, readRooted_isNormal _, hQuery, hFragment,
      ?_⟩
    · intro a' hSame
      cases hSame
      exact readAuthority_isNormal hA
    · rintro - - text hText
      unfold readRooted at hText
      split at hText <;> cases hText
  · cases h
    refine ⟨hScheme, nofun, readSegments_isNormal false _, hQuery,
      hFragment, ?_⟩
    rintro - - text hText
    cases hText
  · next hNot hBegins =>
    cases h
    have hFront : '#' ∉ front := fun hMem =>
      hHash (List.mem_append_left _ hMem)
    refine ⟨hScheme, nofun,
      opaqueText_isNormal hMark hFront hBegins,
      hQuery, hFragment, ?_⟩
    rintro hNoQuery hNoFragment text hText hSpace
    cases hText
    rw [Option.map_eq_none_iff] at hNoQuery hNoFragment
    subst hNoQuery hNoFragment
    have hLast := getLast?_encode
      (not_isEscape (by decide) (by decide)) hSpace
    simp only [writeOptional, List.append_nil] at hEnd
    exact hEnd hLast

/- A URL that was read is normal. -/
theorem ofText_isNormal
    {s : String}
    {u : Url}
    (h : ofText s = .ok u) : u.IsNormal := by
  unfold ofText at h
  split at h
  · cases h
  · next scheme r hScheme =>
    obtain ⟨hIs, before, hText⟩ := scheme?_isScheme hScheme
    refine readAfterScheme_isNormal hIs ?_ h
    intro hSpace
    have hSome : r ≠ [] := by
      rintro rfl
      cases hSpace
    have hLast : (clean s.toList).getLast? = some ' ' := by
      rw [hText, List.getLast?_append_of_ne_nil _
        (List.cons_ne_nil _ _)]
      obtain ⟨c, cs, rfl⟩ := List.exists_cons_of_ne_nil hSome
      rw [List.getLast?_cons_cons]
      exact hSpace
    exact absurd (clean_getLast? hLast) (by decide)

end Url

end Failover
