import Failover.Url.Address
import Mathlib.Algebra.Group.Nat.Defs
import Mathlib.Data.List.Induction
import Mathlib.Data.List.TakeWhile

/-
  Addresses read back from their written form.  A run of zeros
  is left out when an address is written, and it is put back
  where it was left out.

  Key definitions include:
    * `Address.IsAddress`
    * `Address.IsRun`

  Main statements:
    * `Address.ofChars?_isAddress`
    * `Address.ofChars?_write`
-/

namespace Failover

namespace Address

/- Eight groups of 16 bits. -/
structure IsAddress (a : Address) : Prop where
  count : a.length = 8
  small : ∀ g ∈ a, g < 65536

------------------------------------------------------------
-- What is read
------------------------------------------------------------

/- The groups read so far have 16 bits. -/
def AllSmall (gs : List Nat) : Prop :=
  ∀ g ∈ gs, g < 65536

/- Groups of two parts are small if those of each are. -/
theorem AllSmall.append
    {as bs : List Nat}
    (hAs : AllSmall as)
    (hBs : AllSmall bs) : AllSmall (as ++ bs) := by
  intro g hG
  rcases List.mem_append.mp hG with hMem | hMem
  · exact hAs g hMem
  · exact hBs g hMem

theorem AllSmall.singleton
    {n : Nat}
    (h : n < 65536) : AllSmall [n] := by
  intro g hG
  rwa [List.mem_singleton.mp hG]

/- A hexadecimal digit is less than sixteen. -/
theorem value?_lt
    {c : Char}
    {n : Nat}
    (h : Hex.value? c = some n) : n < 16 := by
  unfold Hex.value? at h
  split at h
  · next hC =>
    have hLast : c.toNat ≤ 57 := hC.2
    simp only [Option.some.injEq] at h
    omega
  · split at h
    · next hC =>
      have hLast : c.toNat ≤ 102 := hC.2
      simp only [Option.some.injEq] at h
      omega
    · split at h
      · next hC =>
        have hLast : c.toNat ≤ 70 := hC.2
        simp only [Option.some.injEq] at h
        omega
      · cases h

/- A digit more makes sixteen times as much of the rest. -/
theorem hexValue_append
    (cs : List Char)
    (c : Char) :
    hexValue (cs ++ [c]) =
      hexValue cs * 16 + (Hex.value? c).getD 0 := by
  simp [hexValue]

/- A number has no more than its digits can say. -/
theorem hexValue_lt (cs : List Char) :
    hexValue cs < 16 ^ cs.length := by
  induction cs using List.reverseRecOn with
  | nil => decide
  | append_singleton cs c ih =>
      have hDigit : (Hex.value? c).getD 0 < 16 := by
        cases hC : Hex.value? c with
        | none => decide
        | some n => exact value?_lt hC
      rw [hexValue_append, List.length_append,
        List.length_singleton, Nat.pow_succ]
      omega

/- At most four hexadecimal digits make up 16 bits. -/
theorem hexValue_take_lt
    (p : Char → Bool)
    (cs : List Char) :
    hexValue ((cs.take 4).takeWhile p) < 65536 := by
  have hShort : ((cs.take 4).takeWhile p).length ≤ 4 :=
    (List.takeWhile_prefix p).length_le.trans
      (List.length_take_le 4 cs)
  exact (hexValue_lt _).trans_le
    (Nat.pow_le_pow_right (by decide) hShort)

/- Parts with dots between are bytes. -/
theorem octet?_lt
    {cs : List Char}
    {n : Nat}
    (h : octet? cs = some n) : n < 256 := by
  unfold octet? at h
  split at h
  · cases h
  · cases h
  · split at h
    · next hLess =>
      simp only [Option.some.injEq] at h
      omega
    · cases h

/- Two numbers of a dotted address make up a group of 16 bits. -/
theorem dotted?_small
    {cs : List Char}
    {gs : List Nat}
    (h : dotted? cs = some gs) : AllSmall gs := by
  simp only [dotted?, bind, Option.bind_eq_some_iff] at h
  obtain ⟨_, -, _, -, _, -, h⟩ := h
  split at h
  · cases h
  · simp only [Option.bind_eq_some_iff, pure,
      Option.some.injEq] at h
    obtain ⟨a, hA, b, hB, c, hC, d, hD, rfl⟩ := h
    have hA := octet?_lt hA
    have hB := octet?_lt hB
    have hC := octet?_lt hC
    have hD := octet?_lt hD
    exact (AllSmall.singleton (by omega)).append
      (AllSmall.singleton (by omega))

/- The groups that are read have 16 bits each. -/
theorem groups?_small
    {fuel : Nat}
    {done gs : List Nat}
    {gap place : Option Nat}
    {cs : List Char}
    (hDone : AllSmall done)
    (h : groups? fuel done gap cs = some (gs, place)) :
    AllSmall gs := by
  fun_induction groups? fuel done gap cs with
  | case1 => cases h
  | case2 =>
      cases h
      exact hDone
  | case3 => cases h
  | case4 => cases h
  | case5 _ _ _ _ _ _ _ ih =>
      exact ih (hDone.append (AllSmall.singleton (by decide))) h
  | case6 =>
      cases h
      exact hDone.append (AllSmall.singleton
        (hexValue_take_lt _ _))
  | case7 => cases h
  | case8 =>
      obtain ⟨p, hDotted, hPair⟩ := Option.map_eq_some_iff.mp h
      cases hPair
      exact hDone.append (dotted?_small hDotted)
  | case9 => cases h
  | case10 _ _ _ _ _ _ _ _ _ _ _ _ _ ih =>
      exact ih (hDone.append (AllSmall.singleton
        (hexValue_take_lt _ _))) h
  | case11 => cases h

/- Zeros that are put in make up eight groups. -/
theorem fill_isAddress
    {gs : List Nat}
    {gap : Option Nat}
    {a : Address}
    (hSmall : AllSmall gs)
    (h : fill (gs, gap) = some a) : IsAddress a := by
  cases gap with
  | none =>
      rw [fill] at h
      split at h
      · next hCount =>
        cases h
        exact ⟨hCount, hSmall⟩
      · cases h
  | some k =>
      rw [fill] at h
      split at h
      · cases h
      · next hLess =>
        cases h
        constructor
        · simp only [List.length_append, List.length_take,
            List.length_replicate, List.length_drop]
          omega
        · intro g hG
          simp only [List.mem_append, List.mem_replicate] at hG
          rcases hG with (hG | hG) | hG
          · exact hSmall g (List.mem_of_mem_take hG)
          · omega
          · exact hSmall g (List.mem_of_mem_drop hG)

/- A text that is read as an address gives one. -/
theorem ofChars?_isAddress
    {cs : List Char}
    {a : Address}
    (h : ofChars? cs = some a) : IsAddress a := by
  unfold ofChars? at h
  split at h
  · obtain ⟨⟨gs, gap⟩, hGroups, hFill⟩ :=
      Option.bind_eq_some_iff.mp h
    exact fill_isAddress (groups?_small
      (AllSmall.singleton (by decide)) hGroups) hFill
  · cases h
  · obtain ⟨⟨gs, gap⟩, hGroups, hFill⟩ :=
      Option.bind_eq_some_iff.mp h
    exact fill_isAddress (groups?_small
      (fun _ hG => absurd hG List.not_mem_nil) hGroups) hFill
  · cases h

------------------------------------------------------------
-- Groups read back
------------------------------------------------------------

/- A hexadecimal digit. -/
def isHex (c : Char) : Bool :=
  (Hex.value? c).isSome

/- A digit is read as the value it was written for. -/
theorem value?_digitChar :
    ∀ n < 16, Hex.value? n.digitChar = some n := by
  decide

/- The digits of a number denote it. -/
theorem hexValue_toDigits (n : Nat) :
    hexValue (Nat.toDigits 16 n) = n ∧
      ∀ c ∈ Nat.toDigits 16 n, isHex c = true := by
  induction n using Nat.strongRecOn with
  | _ n ih =>
      by_cases hLess : n < 16
      · have hDigit := value?_digitChar n hLess
        rw [Nat.toDigits_of_lt_base hLess]
        constructor
        · simp [hexValue, hDigit]
        · intro c hC
          rw [List.mem_singleton.mp hC, isHex, hDigit]
          rfl
      · have hDigit := value?_digitChar (n % 16) (by omega)
        obtain ⟨hTop, hAll⟩ := ih (n / 16) (by omega)
        rw [Nat.toDigits_of_base_le (by decide) (by omega)]
        constructor
        · rw [hexValue_append, hTop, hDigit, Option.getD_some]
          omega
        · intro c hC
          rcases List.mem_append.mp hC with hMem | hMem
          · exact hAll c hMem
          · rw [List.mem_singleton.mp hMem, isHex, hDigit]
            rfl

section Groups

variable {g fuel : Nat} {gs done : List Nat} {gap : Option Nat}
variable {rest : List Char}

/- The digits of a group are read as far as they go. -/
theorem digits_of_group
    (hSmall : g < 65536)
    (hRest : ∀ c ∈ rest.head?, isHex c = false) :
    ((Nat.toDigits 16 g ++ rest).take 4).takeWhile isHex =
      Nat.toDigits 16 g := by
  have hAll := (hexValue_toDigits g).2
  have hShort : (Nat.toDigits 16 g).length ≤ 4 :=
    (Nat.length_toDigits_le_iff (by decide) (by decide)).mpr hSmall
  rw [List.take_append, List.take_of_length_le hShort,
    List.takeWhile_append_of_pos hAll]
  cases rest with
  | nil => simp
  | cons c r =>
      have hNot : isHex c = false := hRest c rfl
      cases 4 - (Nat.toDigits 16 g).length with
      | zero => simp
      | succ k => simp [hNot]

/-
  One group is read at the beginning of a text; what follows
  it decides how reading goes on.
-/
theorem groups?_group
    (hSmall : g < 65536)
    (hRoom : done.length < 8)
    (hRest : rest = [] ∨ ∃ c r, rest = ':' :: c :: r) :
    groups? (fuel + 1) done gap (Nat.toDigits 16 g ++ rest) =
      match rest with
      | [] => some (done ++ [g], gap)
      | _ :: r => groups? fuel (done ++ [g]) gap r := by
  have hHead : ∀ c ∈ rest.head?, isHex c = false := by
    rcases hRest with rfl | ⟨c, r, rfl⟩
    · nofun
    · intro d hD
      obtain rfl : d = ':' := by simpa using hD.symm
      decide
  have hDigits := digits_of_group hSmall hHead
  obtain ⟨hValue, hAll⟩ := hexValue_toDigits g
  obtain ⟨d, ds, hText⟩ := List.exists_cons_of_ne_nil
    (List.ne_nil_of_length_pos (Nat.length_toDigits_pos (b := 16)
      (n := g)))
  have hNe : d ≠ ':' := by
    have hHex : isHex d = true := hAll d (by simp [hText])
    rintro rfl
    exact absurd hHex (by decide)
  have hFull : ¬ done.length = 8 := by omega
  rw [hText] at hDigits hValue ⊢
  unfold isHex at hDigits
  rw [List.cons_append] at hDigits ⊢
  conv => lhs; unfold groups?
  simp only [if_neg hFull, if_neg hNe, hDigits, hValue]
  have hDrop : (d :: (ds ++ rest)).drop (d :: ds).length = rest := by
    rw [← List.cons_append, List.drop_left]
  rw [hDrop]
  rcases hRest with rfl | ⟨c, r, rfl⟩ <;> rfl

/- A run left out is read as one zero and its place. -/
theorem groups?_colon
    (hRoom : done.length < 8)
    (rest : List Char) :
    groups? (fuel + 1) done none (':' :: rest) =
      groups? fuel (done ++ [0]) (some (done.length + 1)) rest := by
  have hFull : ¬ done.length = 8 := by omega
  conv => lhs; unfold groups?
  simp [hFull]

theorem writeGroups_singleton (g : Nat) :
    writeGroups [g] = Nat.toDigits 16 g := by
  simp [writeGroups]

theorem writeGroups_cons
    (g h : Nat)
    (gs : List Nat) :
    writeGroups (g :: h :: gs) =
      Nat.toDigits 16 g ++ ':' :: writeGroups (h :: gs) := by
  simp [writeGroups, List.intercalate_cons_cons]

/- Groups begin with a digit. -/
theorem writeGroups_eq_cons
    (g : Nat)
    (gs : List Nat) :
    ∃ c r, writeGroups (g :: gs) = c :: r ∧ isHex c = true := by
  obtain ⟨d, ds, hText⟩ := List.exists_cons_of_ne_nil
    (List.ne_nil_of_length_pos (Nat.length_toDigits_pos (b := 16)
      (n := g)))
  have hHex : isHex d = true :=
    (hexValue_toDigits g).2 d (by simp [hText])
  cases gs with
  | nil => exact ⟨d, ds, by simp [writeGroups, hText], hHex⟩
  | cons h gs =>
      rw [writeGroups_cons, hText]
      exact ⟨d, _, rfl, hHex⟩

/- Each group takes a character at least. -/
theorem length_le_writeGroups (gs : List Nat) :
    gs.length ≤ (writeGroups gs).length := by
  induction gs with
  | nil => exact Nat.zero_le _
  | cons g gs ih =>
      obtain ⟨c, r, hText, -⟩ := writeGroups_eq_cons g gs
      cases gs with
      | nil => simp [hText]
      | cons h gs =>
          have hFirst :=
            Nat.length_toDigits_pos (b := 16) (n := g)
          have hRest : (':' :: writeGroups (h :: gs)).length =
              (writeGroups (h :: gs)).length + 1 := rfl
          rw [writeGroups_cons, List.length_append, hRest,
            List.length_cons]
          omega

/- The groups of a text that is all groups. -/
theorem groups?_writeGroups
    (hSmall : AllSmall gs)
    (hRoom : done.length + gs.length ≤ 8)
    (hFuel : gs.length < fuel) :
    groups? fuel done gap (writeGroups gs) =
      some (done ++ gs, gap) := by
  induction gs generalizing done fuel with
  | nil =>
      cases fuel with
      | zero => exact absurd hFuel (Nat.not_lt_zero _)
      | succ fuel =>
          rw [List.append_nil]
          rfl
  | cons g gs ih =>
      obtain ⟨hG, hGs⟩ := List.forall_mem_cons.mp hSmall
      have hNext : (done ++ [g]).length = done.length + 1 :=
        List.length_append
      rw [List.length_cons] at hRoom hFuel
      cases fuel with
      | zero => exact absurd hFuel (Nat.not_lt_zero _)
      | succ fuel =>
          cases gs with
          | nil =>
              have hGroup : groups? (fuel + 1) done gap
                  (Nat.toDigits 16 g ++ []) =
                    some (done ++ [g], gap) :=
                groups?_group hG (by omega) (.inl rfl)
              rw [List.append_nil] at hGroup
              rwa [writeGroups_singleton]
          | cons h gs =>
              obtain ⟨c, r, hText, -⟩ := writeGroups_eq_cons h gs
              have hGroup : groups? (fuel + 1) done gap
                  (Nat.toDigits 16 g ++
                    ':' :: writeGroups (h :: gs)) =
                    groups? fuel (done ++ [g]) gap
                      (writeGroups (h :: gs)) :=
                groups?_group hG (by omega)
                  (.inr ⟨c, r, by rw [hText]⟩)
              rw [writeGroups_cons, hGroup,
                ih hGs (by omega) (by omega), List.append_assoc]
              rfl

/- The groups in front of a run that is left out. -/
theorem groups?_gap
    (hSome : gs ≠ [])
    (hSmall : AllSmall gs)
    (hRoom : done.length + gs.length < 8)
    (rest : List Char) :
    groups? (fuel + gs.length + 1) done none
        (writeGroups gs ++ ':' :: ':' :: rest) =
      groups? fuel (done ++ gs ++ [0])
        (some (done.length + gs.length + 1)) rest := by
  induction gs generalizing done with
  | nil => exact absurd rfl hSome
  | cons g gs ih =>
      obtain ⟨hG, hGs⟩ := List.forall_mem_cons.mp hSmall
      have hNext : (done ++ [g]).length = done.length + 1 :=
        List.length_append
      rw [List.length_cons] at hRoom
      cases gs with
      | nil =>
          have hGroup : groups? (fuel + 1 + 1) done none
              (Nat.toDigits 16 g ++ ':' :: ':' :: rest) =
                groups? (fuel + 1) (done ++ [g]) none
                  (':' :: rest) :=
            groups?_group hG (by omega) (.inr ⟨':', rest, rfl⟩)
          have hColon := @groups?_colon fuel (done ++ [g])
            (by omega) rest
          rw [hNext] at hColon
          rw [writeGroups_singleton, List.length_singleton]
          exact hGroup.trans hColon
      | cons h gs =>
          obtain ⟨c, r, hText, -⟩ := writeGroups_eq_cons h gs
          have hGroup : groups? (fuel + (h :: gs).length + 1 + 1)
              done none (Nat.toDigits 16 g ++ ':' ::
                (writeGroups (h :: gs) ++ ':' :: ':' :: rest)) =
                groups? (fuel + (h :: gs).length + 1)
                  (done ++ [g]) none
                  (writeGroups (h :: gs) ++ ':' :: ':' :: rest) :=
            groups?_group hG (by omega)
              (.inr ⟨c, _, by rw [hText]; rfl⟩)
          have hRest := ih (List.cons_ne_nil h gs) hGs
            (by omega : (done ++ [g]).length + _ < 8)
          have hPlace : done.length + 1 + (h :: gs).length + 1 =
              done.length + (g :: h :: gs).length + 1 := by
            simp only [List.length_cons]
            omega
          rw [hNext, hPlace] at hRest
          rw [writeGroups_cons, List.append_assoc,
            List.cons_append]
          refine (hGroup.trans hRest).trans ?_
          simp

end Groups

------------------------------------------------------------
-- Runs of zeros
------------------------------------------------------------

/- At a place there is a run of zeros of a length. -/
def IsRun
    (gs : List Nat)
    (run : Nat × Nat) : Prop :=
  gs = gs.take run.1 ++
    (List.replicate run.2 0 ++ gs.drop (run.1 + run.2))

/- The zeros from a place on are a run of them. -/
theorem isRun_zeros
    (gs : List Nat)
    (i : Nat) : IsRun gs (i, zeros (gs.drop i)) := by
  have hZeros : (gs.drop i).takeWhile (· == 0) =
      List.replicate (zeros (gs.drop i)) 0 := by
    refine List.eq_replicate_iff.mpr ⟨rfl, ?_⟩
    intro g hG
    simpa using List.mem_takeWhile_imp hG
  have hBoth := List.takeWhile_append_dropWhile
    (p := (· == 0)) (l := gs.drop i)
  have hRest := @List.drop_left _
    ((gs.drop i).takeWhile (· == 0))
    ((gs.drop i).dropWhile (· == 0))
  rw [hBoth, List.drop_drop] at hRest
  rw [← hRest, hZeros, List.length_replicate] at hBoth
  exact (List.take_append_drop i gs).symm.trans
    (congrArg (gs.take i ++ ·) hBoth.symm)

/- The longest run of zeros is a run. -/
theorem isRun_longestRun (gs : List Nat) :
    IsRun gs (longestRun gs) := by
  unfold longestRun
  refine List.foldlRecOn _ _ ?_ ?_
  · simp [IsRun]
  intro best hBest i _
  simp only
  split
  · exact isRun_zeros gs i
  · exact hBest

------------------------------------------------------------
-- Addresses read back
------------------------------------------------------------

/- A text that begins with a digit begins with a group. -/
theorem ofChars?_of_digit
    {c : Char}
    {cs r : List Char}
    (hText : cs = c :: r)
    (hC : isHex c = true)
    (hMore : r ≠ []) :
    ofChars? cs =
      (groups? (cs.length + 1) [] none cs).bind fill := by
  have hNe : c ≠ ':' := by
    rintro rfl
    exact absurd hC (by decide)
  obtain ⟨d, r, rfl⟩ := List.exists_cons_of_ne_nil hMore
  subst hText
  unfold ofChars?
  split
  · next h => exact absurd (List.cons.inj h).1 hNe
  · next h => exact absurd (List.cons.inj h).1 hNe
  · rfl
  · next h => exact absurd rfl (h c d r)

/- A gap is filled with the zeros it stands for. -/
theorem fill_gap
    {before after : List Nat}
    {n : Nat}
    (hCount : before.length + (n + 1) + after.length = 8) :
    fill (before ++ [0] ++ after, some (before.length + 1)) =
      some (before ++
        (List.replicate (n + 1) 0 ++ after)) := by
  have hLength : (before ++ [0] ++ after).length =
      before.length + 1 + after.length := by
    simp only [List.length_append, List.length_singleton]
  have hFirst : (before ++ [0]).length = before.length + 1 :=
    List.length_append
  have hMore : 8 - (before ++ [0] ++ after).length = n := by
    omega
  rw [fill, if_neg (by omega), hMore, ← hFirst,
    List.take_left, List.drop_left, List.replicate_succ]
  simp

/- Eight groups that are all written are read back. -/
theorem ofChars?_writeGroups
    {a : Address}
    (h : IsAddress a) : ofChars? (writeGroups a) = some a := by
  obtain ⟨hCount, hSmall⟩ := h
  have hLong := length_le_writeGroups a
  obtain ⟨g, gs, rfl⟩ := List.exists_cons_of_ne_nil
    (List.ne_nil_of_length_pos (by omega : 0 < a.length))
  obtain ⟨c, r, hText, hC⟩ := writeGroups_eq_cons g gs
  have hMore : r ≠ [] := by
    rintro rfl
    rw [hText, List.length_singleton] at hLong
    omega
  have hGroups : groups? ((writeGroups (g :: gs)).length + 1) []
      none (writeGroups (g :: gs)) = some ([] ++ g :: gs, none) :=
    groups?_writeGroups hSmall (by simpa using hCount.le) (by omega)
  rw [ofChars?_of_digit hText hC hMore, hGroups]
  exact if_pos hCount

/- Groups around a run that is left out are read back. -/
theorem ofChars?_run
    {before after : List Nat}
    {n : Nat}
    (hBefore : AllSmall before)
    (hAfter : AllSmall after)
    (hCount : before.length + (n + 1) + after.length = 8) :
    ofChars? (writeGroups before ++
        ':' :: ':' :: writeGroups after) =
      some (before ++
        (List.replicate (n + 1) 0 ++ after)) := by
  have hLong := length_le_writeGroups before
  have hLongAfter := length_le_writeGroups after
  rw [← fill_gap hCount]
  cases before with
  | nil =>
      have hGroups : groups? ((writeGroups after).length + 1) [0]
          (some 1) (writeGroups after) =
            some ([0] ++ after, some 1) :=
        groups?_writeGroups hAfter
          (by rw [List.length_singleton]
              rw [List.length_nil] at hCount
              omega) (by omega)
      change (groups? _ [0] (some 1) (writeGroups after)).bind
        fill = _
      rw [hGroups]
      rfl
  | cons g gs =>
      let text := writeGroups (g :: gs) ++
        ':' :: ':' :: writeGroups after
      have hLength : text.length =
          (writeGroups (g :: gs)).length +
            ((writeGroups after).length + 2) := by
        simp only [text, List.length_append, List.length_cons]
      obtain ⟨c, r, hFirst, hC⟩ := writeGroups_eq_cons g gs
      have hText : text =
          c :: (r ++ ':' :: ':' :: writeGroups after) := by
        simp only [text, hFirst, List.cons_append]
      obtain ⟨k, hK⟩ : ∃ k, text.length = k + (g :: gs).length :=
        ⟨text.length - (g :: gs).length, by omega⟩
      have hGap : groups? (k + (g :: gs).length + 1) [] none text =
          groups? k ([] ++ (g :: gs) ++ [0])
            (some (([] : List Nat).length + (g :: gs).length + 1))
            (writeGroups after) :=
        groups?_gap (List.cons_ne_nil g gs) hBefore
          (by rw [List.length_nil]; omega) _
      have hGroups : groups? k (g :: gs ++ [0])
          (some ((g :: gs).length + 1)) (writeGroups after) =
            some (g :: gs ++ [0] ++ after,
              some ((g :: gs).length + 1)) :=
        groups?_writeGroups hAfter
          (by rw [List.length_append, List.length_singleton]
              omega)
          (by omega)
      rw [List.nil_append, List.length_nil, Nat.zero_add] at hGap
      change ofChars? text = _
      rw [ofChars?_of_digit hText hC (by simp), hK, hGap, hGroups]
      rfl

/- An address is read back. -/
theorem ofChars?_write
    {a : Address}
    (h : IsAddress a) : ofChars? (write a) = some a := by
  have hRun := isRun_longestRun a
  unfold write
  generalize longestRun a = run at hRun ⊢
  obtain ⟨i, n⟩ := run
  have hZeros : a = a.take i ++
      (List.replicate n 0 ++ a.drop (i + n)) := hRun
  simp only
  by_cases hShort : n < 2
  · rw [if_pos hShort]
    exact ofChars?_writeGroups h
  · obtain ⟨m, rfl⟩ : ∃ m, n = m + 1 := ⟨n - 1, by omega⟩
    rw [if_neg hShort]
    have hCount := congrArg List.length hZeros
    rw [h.count, List.length_append, List.length_append,
      List.length_replicate] at hCount
    have hBack := @ofChars?_run (a.take i) (a.drop (i + (m + 1)))
      m (fun g hG => h.small g (List.mem_of_mem_take hG))
      (fun g hG => h.small g (List.mem_of_mem_drop hG))
      (by omega)
    rwa [← hZeros] at hBack

/- The characters of an address are digits and colons. -/
theorem mem_writeGroups
    {gs : List Nat}
    {c : Char}
    (h : c ∈ writeGroups gs) : c = ':' ∨ isHex c = true := by
  induction gs with
  | nil => simp [writeGroups] at h
  | cons g gs ih =>
      cases gs with
      | nil =>
          rw [writeGroups_singleton] at h
          exact .inr ((hexValue_toDigits g).2 c h)
      | cons k gs =>
          rw [writeGroups_cons, List.mem_append,
            List.mem_cons] at h
          rcases h with h | h | h
          · exact .inr ((hexValue_toDigits g).2 c h)
          · exact .inl h
          · exact ih h

/- Addresses have digits and colons only. -/
theorem mem_write
    {a : Address}
    {c : Char}
    (h : c ∈ write a) : c = ':' ∨ isHex c = true := by
  unfold write at h
  simp only at h
  split at h
  · exact mem_writeGroups h
  · simp only [List.mem_append, List.mem_cons] at h
    rcases h with h | h | h | h
    · exact mem_writeGroups h
    · exact .inl h
    · exact .inl h
    · exact mem_writeGroups h

end Address

end Failover
