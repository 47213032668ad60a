import Failover.Proofs.Number.Digits
import Failover.Proofs.Url.Normal
import Mathlib.Data.List.DropRight

/-
  URLs read back from their written form.  The marks in the
  text of a normal URL are those between its parts, so that it
  is cut where it was put together, and no part is changed by
  being read again.

  Key definitions include:
    * `Url.writeFront`
    * `Url.IsQuery`, `Url.ReadsBack`

  Main statements:
    * `Url.readAuthority_write`
    * `Url.readRooted_writeSegments`
    * `Url.ofText_write`
    * `Url.ofText_readsBack`
-/

namespace Failover

namespace Url

open Percent (IsFree IsEscape Spares)

------------------------------------------------------------
-- Characters of an authority
------------------------------------------------------------

/- The characters that would end an authority or be lost. -/
def endsEarly (c : Char) : Bool :=
  Percent.isControl c || endsAuthority c || c == ' '

section Characters

variable {c : Char} {cs : List Char}

/- A character that user names leave as it is ends nothing. -/
theorem endsEarly_of_inUser
    (h : Percent.inUser c = false) : endsEarly c = false := by
  simp only [Percent.inUser, Percent.inPath, Percent.inFragment,
    Bool.or_eq_false_iff, List.contains_eq_mem,
    decide_eq_false_iff_not, List.mem_cons, not_or] at h
  simp [endsEarly, endsAuthority, h]

/- No character that hosts may have ends an authority. -/
theorem endsEarly_of_host
    (hFree : isForbiddenHost c = false)
    (hControl : Percent.isControl c = false) :
    endsEarly c = false := by
  simp only [isForbiddenHost, List.contains_eq_mem,
    decide_eq_false_iff_not, List.mem_cons, not_or] at hFree
  simp [endsEarly, endsAuthority, hFree, hControl]

/- The characters that an address has none of. -/
def isNoAddress (c : Char) : Bool :=
  endsEarly c || ['@', '[', ']'].contains c

/- A hexadecimal digit is ASCII, so it is one of a few. -/
theorem isNoAddress_of_isHex
    (h : Address.isHex c = true) : isNoAddress c = false := by
  have hDigits : ∀ n < 128, Address.isHex (Char.ofNat n) = true →
      isNoAddress (Char.ofNat n) = false := by decide
  have hLess : c.toNat < 128 := by
    unfold Address.isHex Hex.value? at h
    split at h
    · next hC =>
      have hLast : c.toNat ≤ 57 := hC.2
      omega
    · split at h
      · next hC =>
        have hLast : c.toNat ≤ 102 := hC.2
        omega
      · split at h
        · next hC =>
          have hLast : c.toNat ≤ 70 := hC.2
          omega
        · cases h
  have hC := hDigits c.toNat hLess
  rw [Char.ofNat_toNat] at hC
  exact hC h

/- A decimal digit is a hexadecimal one. -/
theorem isHex_of_isDigit
    (h : Text.isDigit c = true) : Address.isHex c = true := by
  simp only [Text.isDigit, Bool.and_eq_true,
    decide_eq_true_eq] at h
  rw [Address.isHex, Hex.value?, if_pos h]
  rfl

/- An address is written without marks of other parts. -/
theorem isNoAddress_of_mem
    {a : Address}
    (h : c ∈ a.write) : isNoAddress c = false := by
  rcases Address.mem_write h with rfl | hHex
  · rfl
  · exact isNoAddress_of_isHex hHex

/- The characters of addresses end nothing. -/
theorem endsEarly_of_isNoAddress
    (h : isNoAddress c = false) : endsEarly c = false := by
  simp only [isNoAddress, Bool.or_eq_false_iff] at h
  exact h.1

/- A host has no character that ends it. -/
theorem endsEarly_of_isHost
    (hHost : IsHost cs)
    (h : c ∈ cs) : endsEarly c = false := by
  cases hHost with
  | name hFree hControl =>
      exact endsEarly_of_host (hFree c h) (hControl c h)
  | address hA =>
      simp only [List.mem_cons, List.mem_append,
        List.not_mem_nil, or_false] at h
      rcases h with rfl | h | rfl
      · rfl
      · exact endsEarly_of_isNoAddress (isNoAddress_of_mem h)
      · rfl

end Characters

/- The number of an authority with its colon. -/
def writeNumber : Option Nat → List Char
  | some n => ':' :: Decimal.digits n
  | none => []

/- An authority is its user, its host and its port. -/
theorem Authority.write_eq (a : Authority) :
    a.write = a.writeUser ++
      (a.host ++ writeNumber a.portNumber) := by
  rw [Authority.write, List.append_assoc]
  cases a.portNumber <;> rfl

/- A port is a colon and digits. -/
theorem mem_writeNumber
    {o : Option Nat}
    {c : Char}
    (h : c ∈ writeNumber o) :
    c = ':' ∨ isNoAddress c = false := by
  cases o with
  | none => cases h
  | some n =>
      rcases List.mem_cons.mp h with rfl | hDigit
      · exact .inl rfl
      · exact .inr (isNoAddress_of_isHex (isHex_of_isDigit
          (Decimal.isDigit_of_mem_digits hDigit)))

section Authorities

variable {a : Authority} {c : Char}

/- No character of an authority ends it. -/
theorem endsEarly_of_mem_write
    (hA : a.IsNormal)
    (h : c ∈ a.write) : endsEarly c = false := by
  have hUser : c ∈ a.writeUser → endsEarly c = false := by
    intro hMem
    unfold Authority.writeUser at hMem
    split at hMem
    · next p hP =>
      simp only [List.mem_append, List.mem_cons,
        List.not_mem_nil, or_false] at hMem
      rcases hMem with hMem | rfl | hMem | rfl
      · exact endsEarly_of_inUser (hA.user c hMem)
      · rfl
      · exact endsEarly_of_inUser ((hA.password p hP).2 c hMem)
      · rfl
    · split at hMem
      · cases hMem
      · rcases List.mem_append.mp hMem with hMem | hMem
        · exact endsEarly_of_inUser (hA.user c hMem)
        · rw [List.mem_singleton.mp hMem]
          rfl
  rw [Authority.write_eq, List.mem_append, List.mem_append] at h
  rcases h with h | h | h
  · exact hUser h
  · exact endsEarly_of_isHost hA.host h
  · rcases mem_writeNumber h with rfl | hMem
    · rfl
    · exact endsEarly_of_isNoAddress hMem

------------------------------------------------------------
-- Authorities read back
------------------------------------------------------------

/- Without an at sign there is no user. -/
theorem cutUser_none
    {cs : List Char}
    (h : '@' ∉ cs) : cutUser cs = (none, cs) := by
  have hDrop : cs.reverse.dropWhile (· != '@') = [] := by
    rw [List.dropWhile_eq_nil_iff]
    intro c hC
    rw [bne_iff_ne]
    rintro rfl
    exact h (List.mem_reverse.mp hC)
  unfold cutUser
  simp only [hDrop]

/- No at sign is in a host. -/
theorem at_not_mem_host
    {host : List Char}
    (hHost : IsHost host) : '@' ∉ host := by
  intro h
  cases hHost with
  | name hFree _ => exact absurd (hFree _ h) (by decide)
  | address hAddress =>
      simp only [List.mem_cons, List.mem_append,
        List.not_mem_nil, or_false] at h
      rcases h with hMark | hMem | hMark
      · exact absurd hMark (by decide)
      · exact absurd (isNoAddress_of_mem hMem) (by decide)
      · exact absurd hMark (by decide)

/- No at sign is in a host with its port. -/
theorem at_not_mem_place (hA : a.IsNormal) :
    '@' ∉ a.host ++ writeNumber a.portNumber := by
  intro h
  rcases List.mem_append.mp h with hHost | hNumber
  · exact at_not_mem_host hA.host hHost
  · rcases mem_writeNumber hNumber with hMark | hMem
    · exact absurd hMark (by decide)
    · exact absurd hMem (by decide)

/- User and password are found in front of the host. -/
theorem cutUser_write (hA : a.IsNormal) :
    ∃ user?, cutUser a.write =
        (user?, a.host ++ writeNumber a.portNumber) ∧
      user? ≠ some [] ∧
      readUser (user?.getD []) = (a.user, a.password) := by
  have hPlace := at_not_mem_place hA
  have hNone := cutUser_none hPlace
  have hMore : moreUser (a.host ++ writeNumber a.portNumber) =
      [] := by
    rw [moreUser, hNone]
  have hColon : ':' ∉ a.user := not_mem_of_free hA.user rfl
  have hSame := Percent.encode_eq_self hA.user
  rw [Authority.write_eq, Authority.writeUser]
  cases hP : a.password with
  | some p =>
      obtain ⟨hSome, hFree⟩ := hA.password p hP
      refine ⟨some (a.user ++ ':' :: p), ?_, by simp, ?_⟩
      · have hText : a.user ++ ':' :: (p ++ ['@']) ++
            (a.host ++ writeNumber a.portNumber) =
              (a.user ++ ':' :: p) ++ '@' ::
                (a.host ++ writeNumber a.portNumber) := by
          simp
        simp only [hText, cutUser_append, hMore, hNone,
          List.append_nil]
      · rw [Option.getD_some, readUser_append hColon hSome, hSame,
          Percent.encode_eq_self hFree]
  | none =>
      by_cases hUser : a.user = []
      · refine ⟨none, ?_, by simp, ?_⟩
        · simp only [hUser, List.isEmpty_nil, if_true,
            List.nil_append, hNone]
        · rw [hUser]
          rfl
      · refine ⟨some a.user, ?_, by simpa using hUser, ?_⟩
        · have hFull : a.user.isEmpty = false := by
            simpa using hUser
          simp only [hFull, Bool.false_eq_true, if_false,
            List.append_assoc, List.singleton_append,
            cutUser_append, hMore, hNone, List.append_nil]
        · have hCut := splitAtFirst?_append hColon []
          rw [List.append_nil] at hCut
          simp only [readUser, Option.getD_some, hCut,
            Text.splitAtFirst?, Option.map_none, hSame]

/- A name goes on up to a colon or a bracket. -/
theorem cutHost_plain
    {cs : List Char}
    (h : ∀ c ∈ cs, c ≠ ':' ∧ c ≠ '[' ∧ c ≠ ']')
    (r : List Char) :
    cutHost false (cs ++ r) =
      (cs ++ (cutHost false r).1, (cutHost false r).2) := by
  induction cs with
  | nil => rfl
  | cons c cs ih =>
      obtain ⟨⟨hColon, hOpen, hClose⟩, hRest⟩ :=
        List.forall_mem_cons.mp h
      simp [cutHost, hColon, hOpen, hClose, ih hRest]

/- Between brackets a colon is part of the host. -/
theorem cutHost_inside
    {cs : List Char}
    (h : ∀ c ∈ cs, c ≠ '[' ∧ c ≠ ']')
    (r : List Char) :
    cutHost true (cs ++ ']' :: r) =
      (cs ++ ']' :: (cutHost false r).1, (cutHost false r).2) := by
  induction cs with
  | nil => simp [cutHost]
  | cons c cs ih =>
      obtain ⟨⟨hOpen, hClose⟩, hRest⟩ := List.forall_mem_cons.mp h
      simp [cutHost, hOpen, hClose, ih hRest]

/- A port that is written is no part of the host. -/
theorem cutHost_writeNumber (o : Option Nat) :
    cutHost false (writeNumber o) = ([], writeNumber o) := by
  cases o <;> simp [writeNumber, cutHost]

/- A host is found in front of its number, and stays as it is. -/
theorem cutHost_host
    {host : List Char}
    (hHost : IsHost host)
    (o : Option Nat) :
    cutHost false (host ++ writeNumber o) =
        (host, writeNumber o) ∧
      readHost host = .ok host := by
  cases hHost with
  | name hFree hControl =>
      have hMarks : ∀ c ∈ host, c ≠ ':' ∧ c ≠ '[' ∧ c ≠ ']' := by
        intro c hC
        refine ⟨?_, ?_, ?_⟩ <;> rintro rfl <;>
          exact absurd (hFree _ hC) (by decide)
      constructor
      · rw [cutHost_plain hMarks, cutHost_writeNumber,
          List.append_nil]
      · have hNone : ¬ host.any isForbiddenHost = true := by
          simpa [IsFree] using hFree
        unfold readHost
        split
        · exact absurd rfl (hMarks '[' List.mem_cons_self).2.1
        · rw [if_neg hNone, Percent.encode_eq_self hControl]
  | @address a hA =>
      have hMarks : ∀ c ∈ a.write, c ≠ '[' ∧ c ≠ ']' := by
        intro c hC
        have hNot := isNoAddress_of_mem hC
        refine ⟨?_, ?_⟩ <;> rintro rfl <;>
          exact absurd hNot (by decide)
      constructor
      · have hInside := cutHost_inside hMarks (writeNumber o)
        rw [cutHost_writeNumber] at hInside
        simp [cutHost, hInside]
      · simp [readHost, Address.ofChars?_write hA]

/- The digits of a port are read as its number. -/
theorem readPortNumber_digits
    {n : Nat}
    (h : n ≤ 65535) :
    readPortNumber (Decimal.digits n) = .ok (some n, []) := by
  have hAll : ∀ c ∈ Decimal.digits n, Text.isDigit c = true :=
    fun c hC => Decimal.isDigit_of_mem_digits hC
  have hTake : (Decimal.digits n).takeWhile Text.isDigit =
      Decimal.digits n := List.takeWhile_eq_self_iff.mpr hAll
  have hDrop : (Decimal.digits n).dropWhile Text.isDigit = [] :=
    List.dropWhile_eq_nil_iff.mpr hAll
  have hSome : (Decimal.digits n).isEmpty = false := by
    simpa using Decimal.digits_ne_nil n
  unfold readPortNumber
  simp only [hTake, hDrop, Decimal.ofDigits_digits, hSome]
  rw [if_neg (by omega)]
  rfl

/- An authority is read back, and leaves nothing to the path. -/
theorem readAuthority_write
    (hA : a.IsNormal)
    (more : Bool) :
    readAuthority a.write more = .ok (a, []) := by
  obtain ⟨user?, hCut, hSome, hUser⟩ := cutUser_write hA
  obtain ⟨hHostCut, hHost⟩ := cutHost_host hA.host a.portNumber
  unfold readAuthority
  simp only [hCut, hHostCut, hHost, hUser]
  rw [if_neg fun h => hSome h.1]
  obtain ⟨user, password, host, number⟩ := a
  by_cases hNone : host = []
  · obtain ⟨rfl, rfl, rfl⟩ := hA.alone hNone
    subst hNone
    rfl
  · have hFull : host.isEmpty = false := by simpa using hNone
    simp only [hFull, Bool.false_and, Bool.false_eq_true,
      if_false, bind, Except.bind]
    cases number with
    | none => rfl
    | some n =>
        simp only [writeNumber,
          readPortNumber_digits (hA.number n rfl)]
        rfl

end Authorities

------------------------------------------------------------
-- Paths read back
------------------------------------------------------------

section Paths

variable {s : List Char} {ss done : List (List Char)}

/- Normal segments stay as they are. -/
theorem normalise_eq_append
    (h : ∀ s ∈ ss, IsSegment s) :
    normalise done ss = done ++ ss := by
  induction ss generalizing done with
  | nil => simp [normalise]
  | cons s ss ih =>
      obtain ⟨hS, hRest⟩ := List.forall_mem_cons.mp h
      have hSame := Percent.encode_eq_self hS.free
      cases ss with
      | nil => simp [normalise, hS.dot, hS.dots, hSame]
      | cons t ss =>
          have hStep : normalise done (s :: t :: ss) =
              normalise (done ++ [s]) (t :: ss) := by
            simp [normalise, hS.dot, hS.dots, hSame]
          rw [hStep, ih hRest, List.append_assoc]
          rfl

/- Segments are joined by slashes. -/
theorem append_writeSegments
    (s : List Char)
    (ss : List (List Char)) :
    s ++ writeSegments ss = ['/'].intercalate (s :: ss) := by
  induction ss generalizing s with
  | nil => simp [writeSegments]
  | cons t ss ih =>
      rw [List.intercalate_cons_cons, ← ih]
      simp [writeSegments]

/- A path falls into its segments. -/
theorem splitOn_writeSegments
    (hS : '/' ∉ s)
    (hSs : ∀ t ∈ ss, '/' ∉ t) :
    Text.splitOn '/' (s ++ writeSegments ss) = s :: ss := by
  rw [Text.splitOn_eq_list_splitOn, append_writeSegments]
  refine List.splitOn_intercalate '/' ?_ (List.cons_ne_nil s ss)
  exact List.forall_mem_cons.mpr ⟨hS, hSs⟩

/- Segments that are written are read as they were. -/
theorem readSegments_write
    (h : ∀ t ∈ s :: ss, IsSegment t) :
    readSegments (s ++ writeSegments ss) =
      .segments (s :: ss) := by
  obtain ⟨hS, hSs⟩ := List.forall_mem_cons.mp h
  rw [readSegments,
    splitOn_writeSegments hS.slash fun t hT => (hSs t hT).slash,
    normalise_eq_append h, List.nil_append]

/- A dot in front of segments is left out again. -/
theorem readSegments_dot
    (hSome : ss ≠ [])
    (h : ∀ t ∈ ss, IsSegment t) :
    readSegments ('.' :: writeSegments ss) = .segments ss := by
  have hSplit := splitOn_writeSegments (s := ['.'])
    (by decide) fun t hT => (h t hT).slash
  have hStep : normalise [] (['.'] :: ss) = normalise [] ss := by
    obtain ⟨t, ts, rfl⟩ := List.exists_cons_of_ne_nil hSome
    simp [normalise, isDot, isDoubleDot]
  rw [List.singleton_append] at hSplit
  rw [readSegments, hSplit, hStep, normalise_eq_append h,
    List.nil_append]

/- Rooted paths read back, segment by segment. -/
theorem readRooted_writeSegments
    (h : ∀ t ∈ ss, IsSegment t) :
    readRooted (writeSegments ss) = .segments ss := by
  cases ss with
  | nil => rfl
  | cons s ss => exact readSegments_write h

end Paths

------------------------------------------------------------
-- Whole URLs
------------------------------------------------------------

/- The text between the scheme and the query. -/
def writeFront (u : Url) : List Char :=
  (match u.authority with
    | some a => '/' :: '/' :: a.write
    | none => []) ++
    writePath u.authority.isSome u.path

/- A URL is its front, its query and its fragment. -/
theorem writeChars_eq (u : Url) :
    u.writeChars = u.scheme ++ ':' ::
      (writeFront u ++ writeOptional '?' u.query ++
        writeOptional '#' u.fragment) :=
  rfl

/- A character that no part of a URL ends at and none loses. -/
def isKept (c : Char) : Bool :=
  !(Percent.isControl c || ['?', '#'].contains c)

section Kept

variable {c : Char}

/- Characters that end nothing are not cleaned away. -/
theorem isKept_of_endsEarly
    (h : endsEarly c = false) : isKept c = true ∧ c ≠ ' ' := by
  simp only [endsEarly, endsAuthority, Bool.or_eq_false_iff,
    beq_eq_false_iff_ne] at h
  simp [isKept, h]

/-
  Characters that a path leaves as they are are no control
  characters and no spaces.
-/
theorem isKept_of_inPath
    (h : Percent.inPath c = false) : isKept c = true ∧ c ≠ ' ' := by
  simp only [Percent.inPath, Percent.inFragment,
    Bool.or_eq_false_iff, List.contains_eq_mem,
    decide_eq_false_iff_not, List.mem_cons, not_or] at h
  simp [isKept, h]

/- A written path loses nothing to cleaning. -/
theorem isKept_of_mem_segments
    {ss : List (List Char)}
    (h : ∀ s ∈ ss, IsSegment s)
    (hC : c ∈ writeSegments ss) : isKept c = true ∧ c ≠ ' ' := by
  obtain ⟨s, hS, hMem⟩ := List.mem_flatMap.mp hC
  rcases List.mem_cons.mp hMem with rfl | hMem
  · decide
  · exact isKept_of_inPath ((h s hS).free c hMem)

/- A path is its segments, perhaps behind a dot. -/
theorem writePath_segments
    (b : Bool)
    (ss : List (List Char)) :
    writePath b (.segments ss) = writeSegments ss ∨
      writePath b (.segments ss) =
        '/' :: '.' :: writeSegments ss := by
  unfold writePath
  split
  · next h => cases h
  · next h =>
    cases h
    split
    · split
      · exact .inl rfl
      · exact .inr rfl
    · exact .inl rfl

/- Behind an authority, segments are written as they are. -/
theorem writePath_rooted (ss : List (List Char)) :
    writePath true (.segments ss) = writeSegments ss := by
  unfold writePath
  split
  · next h => cases h
  · next h =>
    cases h
    split <;> rfl

/- Only a path that is opaque text may have spaces. -/
theorem isKept_of_mem_path
    {b : Bool}
    {p : Path}
    (hP : p.IsNormal b)
    (hC : c ∈ writePath b p) :
    isKept c = true ∧
      (c = ' ' → ∃ text, p = .opaqueText text) := by
  cases hP with
  | @text text _ hFree _ hQuery hFragment =>
      have hControl := hFree c hC
      have hMark : c ≠ '?' := ne_of_mem_of_not_mem hC hQuery
      have hHash : c ≠ '#' := ne_of_mem_of_not_mem hC hFragment
      exact ⟨by simp [isKept, hControl, hMark, hHash],
        fun _ => ⟨text, rfl⟩⟩
  | @segments ss hParts _ =>
      have hKept : isKept c = true ∧ c ≠ ' ' := by
        rcases writePath_segments b ss with hWrite | hWrite
        · rw [hWrite] at hC
          exact isKept_of_mem_segments hParts hC
        · rw [hWrite, List.mem_cons, List.mem_cons] at hC
          rcases hC with rfl | rfl | hC
          · decide
          · decide
          · exact isKept_of_mem_segments hParts hC
      exact ⟨hKept.1, fun hSpace => absurd hSpace hKept.2⟩

variable {u : Url}

/- The front has no blanks but those of opaque text. -/
theorem isKept_of_mem_front
    (hU : u.IsNormal)
    (h : c ∈ writeFront u) :
    isKept c = true ∧
      (c = ' ' → ∃ text, u.path = .opaqueText text) := by
  rcases List.mem_append.mp h with hHost | hPath
  · have hKept : isKept c = true ∧ c ≠ ' ' := by
      cases hA : u.authority with
      | none =>
          rw [hA] at hHost
          cases hHost
      | some a =>
          rw [hA] at hHost
          simp only [List.mem_cons] at hHost
          rcases hHost with rfl | rfl | hMem
          · decide
          · decide
          · exact isKept_of_endsEarly
              (endsEarly_of_mem_write (hU.authority a hA) hMem)
    exact ⟨hKept.1, fun hSpace => absurd hSpace hKept.2⟩
  · exact isKept_of_mem_path hU.path hPath

end Kept

/-
  Where no authority is, a path begins with one slash, and no
  other text does.
-/
theorem writePath_cases
    {p : Path}
    (hP : p.IsNormal false) :
    (∃ r, writePath false p = '/' :: r ∧
      (∀ r', r ≠ '/' :: r') ∧ readSegments r = p) ∨
    ∃ text, p = .opaqueText text ∧
      IsFree Percent.isControl text ∧ ∀ r, text ≠ '/' :: r := by
  cases hP with
  | @text text _ hFree hBegins _ _ =>
      refine .inr ⟨text, rfl, hFree, ?_⟩
      rintro r rfl
      exact hBegins '/' rfl rfl
  | @segments ss hParts hSome =>
      obtain ⟨s, ss, rfl⟩ :=
        List.exists_cons_of_ne_nil (hSome rfl)
      left
      rcases s with _ | ⟨c, s⟩
      · rcases ss with _ | ⟨t, ss⟩
        · exact ⟨[], rfl, nofun, rfl⟩
        · exact ⟨_, rfl, nofun,
            readSegments_dot (List.cons_ne_nil _ _) hParts⟩
      · refine ⟨c :: s ++ writeSegments ss, rfl, ?_,
          readSegments_write hParts⟩
        intro r hSame
        have hSlash := (hParts _ List.mem_cons_self).slash
        rw [(List.cons.inj hSame).1] at hSlash
        exact hSlash List.mem_cons_self

section Whole

variable {u : Url}

/-
  A part of a URL without characters of the set is left as it
  is.
-/
theorem map_encode_eq_self
    {set : Char → Bool}
    {o : Option (List Char)}
    (h : ∀ cs ∈ o, IsFree set cs) :
    o.map (Percent.encode set) = o := by
  cases o with
  | none => rfl
  | some cs => exact congrArg some (Percent.encode_eq_self (h cs rfl))

/- No question mark stands before the query. -/
theorem mark_not_mem_front
    (hU : u.IsNormal) : '?' ∉ writeFront u := fun h =>
  absurd (isKept_of_mem_front hU h).1 (by decide)

/- No number sign stands before the fragment. -/
theorem hash_not_mem_before
    (hU : u.IsNormal) :
    '#' ∉ writeFront u ++ writeOptional '?' u.query := by
  intro h
  rcases List.mem_append.mp h with hFront | hQuery
  · exact absurd (isKept_of_mem_front hU hFront).1 (by decide)
  · cases hQ : u.query with
    | none =>
        rw [hQ] at hQuery
        cases hQuery
    | some q =>
        rw [hQ] at hQuery
        rcases List.mem_cons.mp hQuery with hSame | hMem
        · exact absurd hSame (by decide)
        · exact absurd (hU.query q hQ _ hMem) (by decide)

/- An authority ends where the first segment begins. -/
theorem span_authority
    {a : Authority}
    (hA : a.IsNormal)
    (ss : List (List Char)) :
    (a.write ++ writeSegments ss).takeWhile
        (fun c => !endsAuthority c) = a.write ∧
      (a.write ++ writeSegments ss).dropWhile
        (fun c => !endsAuthority c) = writeSegments ss := by
  have hInside : ∀ c ∈ a.write, (!endsAuthority c) = true := by
    intro c hC
    have hNot := endsEarly_of_mem_write hA hC
    simp only [endsEarly, Bool.or_eq_false_iff] at hNot
    rw [hNot.1.2]
    rfl
  rw [List.takeWhile_append_of_pos hInside,
    List.dropWhile_append_of_pos hInside]
  cases ss with
  | nil => exact ⟨List.append_nil _, rfl⟩
  | cons s ss => exact ⟨List.append_nil _, rfl⟩

/- The text after the scheme is read back. -/
theorem readAfterScheme_write
    (hU : u.IsNormal) :
    readAfterScheme u.scheme
        (writeFront u ++ writeOptional '?' u.query ++
          writeOptional '#' u.fragment) = .ok u := by
  unfold readAfterScheme
  simp only [cutAt_writeOptional (hash_not_mem_before hU),
    cutAt_writeOptional (mark_not_mem_front hU),
    map_encode_eq_self hU.query, map_encode_eq_self hU.fragment]
  obtain ⟨scheme, authority, path, query, fragment⟩ := u
  have hPath := hU.path
  simp only [writeFront] at hPath ⊢
  cases authority with
  | some a =>
      have hA : a.IsNormal := hU.authority a rfl
      cases hPath with
      | text hAlone => cases hAlone
      | @segments ss hParts _ =>
          obtain ⟨hInside, hAfter⟩ := span_authority hA ss
          simp only [Option.isSome_some, writePath_rooted,
            List.cons_append]
          rw [hInside, hAfter, readAuthority_write hA]
          simp only [bind, Except.bind, List.nil_append,
            readRooted_writeSegments hParts]
          rfl
  | none =>
      simp only [Option.isSome_none, List.nil_append]
      rcases writePath_cases hPath with
        ⟨r, hWrite, hSingle, hRead⟩ |
        ⟨text, rfl, hFree, hBegins⟩
      · rw [hWrite]
        split
        · next h => exact absurd (List.cons.inj h).2 (hSingle _)
        · next h =>
          rw [← (List.cons.inj h).2, hRead]
          rfl
        · next h => exact absurd rfl (h r)
      · simp only [writePath]
        split
        · next h => exact absurd rfl (hBegins _)
        · next h => exact absurd rfl (hBegins _)
        · rw [Percent.encode_eq_self hFree]
          rfl

------------------------------------------------------------
-- Ends
------------------------------------------------------------

/-
  A character at the ends that is no control character is a
  space.
-/
theorem isEdge_of_isControl
    {c : Char}
    (hControl : Percent.isControl c = false)
    (hEdge : isEdge c = true) : c = ' ' := by
  simp only [Percent.isControl, Bool.or_eq_false_iff,
    decide_eq_false_iff_not] at hControl
  simp only [isEdge, decide_eq_true_eq] at hEdge
  have hNat : c.toNat = ' '.toNat := by
    have hSpace : ' '.toNat = 32 := rfl
    omega
  exact Char.toNat_inj.mp hNat

/- A text without such characters and edges is clean. -/
theorem clean_eq_self
    {cs : List Char}
    (hControl : IsFree Percent.isControl cs)
    (hHead : ∀ c ∈ cs.head?, isEdge c = false)
    (hLast : cs.getLast? ≠ some ' ') : clean cs = cs := by
  have hEnd : ∀ c ∈ cs.getLast?, isEdge c = false := by
    intro c hC
    by_contra hEdge
    rw [Bool.not_eq_false] at hEdge
    have hMem := List.mem_of_getLast? hC
    rw [isEdge_of_isControl (hControl c hMem) hEdge] at hC
    exact hLast hC
  rw [clean, Text.trimBoth_eq_self isEdge cs hHead hEnd]
  refine List.filter_eq_self.mpr fun c hC => ?_
  rw [Bool.not_eq_true']
  by_contra hIgnored
  rw [Bool.not_eq_false] at hIgnored
  simp only [isIgnored, Bool.or_eq_true, beq_iff_eq] at hIgnored
  have hNot := hControl c hC
  rcases hIgnored with (rfl | rfl) | rfl <;>
    exact absurd hNot (by decide)

/- What follows the front has no control and no space. -/
theorem writeOptional_free
    {mark : Char}
    {o : Option (List Char)}
    (hMark : Percent.isControl mark = false ∧ mark ≠ ' ')
    (h : ∀ cs ∈ o, ∀ c ∈ cs,
      Percent.isControl c = false ∧ c ≠ ' ') :
    ∀ c ∈ writeOptional mark o,
      Percent.isControl c = false ∧ c ≠ ' ' := by
  intro c hC
  cases o with
  | none => cases hC
  | some cs =>
      rcases List.mem_cons.mp hC with rfl | hMem
      · exact hMark
      · exact h cs rfl c hMem

/- A query is free of blanks. -/
theorem query_free
    (hU : u.IsNormal) :
    ∀ c ∈ writeOptional '?' u.query,
      Percent.isControl c = false ∧ c ≠ ' ' := by
  refine writeOptional_free (by decide) fun q hQ c hC => ?_
  have hFree := hU.query q hQ c hC
  refine ⟨isControl_of_inQuery hFree, ?_⟩
  rintro rfl
  exact absurd hFree (by decide)

/- No control character and no space is in a fragment. -/
theorem fragment_free
    (hU : u.IsNormal) :
    ∀ c ∈ writeOptional '#' u.fragment,
      Percent.isControl c = false ∧ c ≠ ' ' := by
  refine writeOptional_free (by decide) fun f hF c hC => ?_
  have hFree := hU.fragment f hF c hC
  refine ⟨isControl_of_inFragment hFree, ?_⟩
  rintro rfl
  exact absurd hFree (by decide)

/- A whole URL is written without control characters. -/
theorem writeChars_free
    (hU : u.IsNormal) : IsFree Percent.isControl u.writeChars := by
  intro c hC
  rw [writeChars_eq] at hC
  simp only [List.mem_append, List.mem_cons] at hC
  rcases hC with hScheme | rfl | (hFront | hQuery) | hFragment
  · exact isControl_of_isSchemeChar (hU.scheme.chars c hScheme)
  · rfl
  · have hKept := (isKept_of_mem_front hU hFront).1
    simp only [isKept, Bool.not_eq_true', Bool.or_eq_false_iff]
      at hKept
    exact hKept.1
  · exact (query_free hU c hQuery).1
  · exact (fragment_free hU c hFragment).1

/- A normal URL does not end with a space. -/
theorem writeChars_getLast?
    (hU : u.IsNormal) : u.writeChars.getLast? ≠ some ' ' := by
  rw [writeChars_eq, List.append_assoc, ← List.cons_append,
    ← List.append_assoc]
  by_cases hTail : writeOptional '?' u.query ++
      writeOptional '#' u.fragment = []
  · obtain ⟨hQuery, hFragment⟩ := List.append_eq_nil_iff.mp hTail
    have hNone {mark : Char} {o : Option (List Char)}
        (h : writeOptional mark o = []) : o = none := by
      cases o with
      | none => rfl
      | some cs => cases h
    rw [hTail, List.append_nil,
      List.getLast?_append_of_ne_nil _ (List.cons_ne_nil _ _)]
    intro hLast
    have hSome : writeFront u ≠ [] := by
      intro hNil
      rw [hNil] at hLast
      exact absurd hLast (by decide)
    rw [← List.singleton_append,
      List.getLast?_append_of_ne_nil _ hSome] at hLast
    obtain ⟨text, hText⟩ := (isKept_of_mem_front hU
      (List.mem_of_getLast? hLast)).2 rfl
    have hPath := hU.path
    rw [hText] at hPath
    cases hPath with
    | text hAlone =>
        have hFront : writeFront u = text := by
          rw [Option.isSome_eq_false_iff,
            Option.isNone_iff_eq_none] at hAlone
          rw [writeFront, hAlone, hText]
          rfl
        rw [hFront] at hLast
        exact hU.ends (hNone hQuery) (hNone hFragment) text hText
          hLast
  · rw [List.getLast?_append_of_ne_nil _ hTail]
    intro hLast
    rcases List.mem_append.mp (List.mem_of_getLast? hLast) with
      hMem | hMem
    · exact (query_free hU _ hMem).2 rfl
    · exact (fragment_free hU _ hMem).2 rfl

/- A normal URL is read back from its text. -/
theorem ofText_write
    (hU : u.IsNormal) : ofText u.write = .ok u := by
  obtain ⟨c, r, hBegins, hLetter⟩ := hU.scheme.begins
  have hHead : ∀ d ∈ u.writeChars.head?, isEdge d = false := by
    intro d hD
    rw [writeChars_eq, hBegins] at hD
    obtain rfl : c = d := by simpa using hD
    apply not_isEdge_of_isSchemeChar
    simp [isSchemeChar, hLetter]
  have hScheme := scheme?_of_chars hU.scheme.begins
    hU.scheme.chars
      (writeFront u ++ writeOptional '?' u.query ++
        writeOptional '#' u.fragment)
  rw [hU.scheme.folded, ← writeChars_eq] at hScheme
  rw [ofText, write, String.toList_ofList,
    clean_eq_self (writeChars_free hU) hHead
      (writeChars_getLast? hU), hScheme]
  exact readAfterScheme_write hU

------------------------------------------------------------
-- Another query
------------------------------------------------------------

/- No query, or one that is written from pairs. -/
def IsQuery (query : Option (List Char)) : Prop :=
  query = none ∨ ∃ ps, query = some (Form.write ps)

/-
  URLs that were read are read back when their query has been
  taken away or written anew.
-/
def ReadsBack
    (read : String → Except ParseError Url) : Prop :=
  ∀ text u query, read text = .ok u → IsQuery query →
    read (u.withQuery query).write = .ok (u.withQuery query)

/-
  A text without the spaces at its end is the beginning of the
  text.
-/
theorem dropEndSpaces_begins (cs : List Char) :
    dropEndSpaces cs <+: cs := by
  rw [dropEndSpaces, ← List.reverse_suffix, List.reverse_reverse]
  exact List.dropWhile_suffix _

/-
  A text without the spaces at its end does not end in a
  space.
-/
theorem dropEndSpaces_getLast? (cs : List Char) :
    (dropEndSpaces cs).getLast? ≠ some ' ' := by
  rw [dropEndSpaces, List.getLast?_reverse]
  intro h
  have hHead := List.head?_dropWhile_not (· == ' ') cs.reverse
  rw [h] at hHead
  exact absurd hHead (by decide)

/- Dropping spaces twice is dropping them once. -/
theorem dropEndSpaces_dropEndSpaces (cs : List Char) :
    dropEndSpaces (dropEndSpaces cs) = dropEndSpaces cs := by
  simp [dropEndSpaces, List.dropWhile_idempotent]

/- The path stays but for spaces at the end of an opaque one. -/
theorem withQuery_path
    (u : Url)
    (query : Option (List Char)) :
    (u.withQuery query).path = u.path ∨
      ∃ text, u.path = .opaqueText text ∧
        query = none ∧ u.fragment = none ∧
        (u.withQuery query).path =
          .opaqueText (dropEndSpaces text) := by
  unfold withQuery
  simp only
  split
  · next h => exact .inr ⟨_, h, rfl, ‹_›, rfl⟩
  · exact .inl rfl

/- The last query is the one that counts. -/
theorem withQuery_withQuery
    (u : Url)
    (query : Option (List Char)) :
    (u.withQuery query).withQuery query = u.withQuery query := by
  obtain ⟨scheme, authority, path, old, fragment⟩ := u
  cases query <;> cases fragment <;> cases path <;>
    simp [withQuery, dropEndSpaces_dropEndSpaces]

/- A shorter opaque path is as good. -/
theorem path_isNormal_of_prefix
    {b : Bool}
    {text short : List Char}
    (hPrefix : short <+: text)
    (h : (Path.opaqueText text).IsNormal b) :
    (Path.opaqueText short).IsNormal b := by
  cases h with
  | text hAlone hFree hBegins hQuery hFragment =>
      refine .text hAlone (fun c hC => hFree c (hPrefix.subset hC))
        ?_ (fun hC => hQuery (hPrefix.subset hC))
        (fun hC => hFragment (hPrefix.subset hC))
      obtain ⟨r, rfl⟩ := hPrefix
      intro c hC
      cases short with
      | nil => cases hC
      | cons d short => exact hBegins c hC

/- A normal URL with another query is normal. -/
theorem withQuery_isNormal
    {query : Option (List Char)}
    (hU : u.IsNormal)
    (hQuery : IsQuery query) : (u.withQuery query).IsNormal := by
  have hFree : ∀ q ∈ query, IsFree Percent.inQuery q := by
    rintro q hQ
    rcases hQuery with rfl | ⟨ps, rfl⟩
    · cases hQ
    · cases hQ
      exact Form.write_spared ps
  refine ⟨hU.scheme, hU.authority, ?_, hFree, hU.fragment, ?_⟩
  · rcases withQuery_path u query with
      hSame | ⟨text, hText, -, -, hPath⟩
    · rw [hSame]
      exact hU.path
    · have hNormal := hU.path
      rw [hText] at hNormal
      rw [hPath]
      exact path_isNormal_of_prefix (dropEndSpaces_begins text)
        hNormal
  · intro hNone hNoFragment text hText
    change query = none at hNone
    change u.fragment = none at hNoFragment
    subst hNone
    simp only [withQuery, hNoFragment] at hText
    split at hText
    · cases hText
      exact dropEndSpaces_getLast? _
    · next hOther => exact absurd hText (hOther text rfl rfl)

/- A normal URL reads back without a base. -/
theorem ofText_readsBack : ReadsBack ofText := by
  intro text u query hRead hQuery
  exact ofText_write (withQuery_isNormal (ofText_isNormal hRead)
    hQuery)

end Whole

end Url

end Failover
