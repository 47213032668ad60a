import Failover.Url.Parse
import Mathlib.Data.List.TakeWhile

/-
  Addresses with a user and a password, and what is shown of
  them.  Whether such a text is a URL at all is decided by
  what stands behind the user: only then is the password
  hidden.

  Key definitions include:
    * `Url.isPlain`, `Url.IsPlainScheme`
    * `Url.address`
    * `Url.readPlace`, `Url.HasPlace`

  Main statements:
    * `Url.ofText_address`
    * `Url.hides_password_iff`
-/

namespace Failover

namespace Url

------------------------------------------------------------
-- Plain characters
------------------------------------------------------------

/- An ASCII letter or digit. -/
def isPlain (c : Char) : Bool :=
  Text.isLetter c || Text.isDigit c

/- A mark is no plain character. -/
theorem ne_of_isPlain
    {c mark : Char}
    (hC : isPlain c = true)
    (hMark : isPlain mark = false) : c ≠ mark := by
  intro hSame
  rw [hSame, hMark] at hC
  exact absurd hC (by decide)

/- No mark of a URL is in a plain text. -/
theorem not_mem_of_plain
    {cs : List Char}
    {mark : Char}
    (hCs : ∀ c ∈ cs, isPlain c = true)
    (hMark : isPlain mark = false) : mark ∉ cs :=
  fun hMem => ne_of_isPlain (hCs mark hMem) hMark rfl

/- The schemes that have rules of their own. -/
def specialSchemes : List String :=
  ["file", "ftp", "http", "https", "ws", "wss"]

/- A scheme that has no rules of its own, in any case. -/
structure IsPlainScheme (cs : List Char) : Prop where
  begins : ∃ c r, cs = c :: r ∧ Text.isLetter c = true
  chars : ∀ c ∈ cs, isSchemeChar c = true
  plain : String.ofList (cs.map Text.foldChar) ∉ specialSchemes

/- A user and a password, up to the at sign behind them. -/
def login (user password : List Char) : List Char :=
  user ++ ':' :: (password ++ ['@'])

/- A user and a password of plain characters. -/
structure IsLogin (user password : List Char) : Prop where
  plainUser : ∀ c ∈ user, isPlain c = true
  plainPassword : ∀ c ∈ password, isPlain c = true
  hasPassword : password ≠ []

section Login

variable {user password : List Char} {c : Char}

/- A login has plain characters, colons and at signs only. -/
theorem IsLogin.mem
    (h : IsLogin user password)
    (hC : c ∈ login user password) :
    isPlain c = true ∨ c = ':' ∨ c = '@' := by
  simp only [login, List.mem_append, List.mem_cons,
    List.not_mem_nil, or_false] at hC
  rcases hC with hC | hC | hC | hC
  · exact .inl (h.plainUser c hC)
  · exact .inr (.inl hC)
  · exact .inl (h.plainPassword c hC)
  · exact .inr (.inr hC)

theorem IsLogin.not_mem
    (h : IsLogin user password)
    (hPlain : isPlain c = false)
    (hColon : c ≠ ':')
    (hAt : c ≠ '@') : c ∉ login user password := by
  intro hC
  rcases h.mem hC with hMem | hMem | hMem
  · exact absurd (hPlain.symm.trans hMem) (by decide)
  · exact hColon hMem
  · exact hAt hMem

/- No character of a login ends the authority. -/
theorem IsLogin.goes_on
    (h : IsLogin user password)
    (hC : c ∈ login user password) : endsAuthority c = false := by
  rcases h.mem hC with hPlain | rfl | rfl
  · have hNe (mark : Char) (hMark : isPlain mark = false) :=
      ne_of_isPlain hPlain hMark
    simp [endsAuthority, hNe '/' rfl, hNe '?' rfl, hNe '#' rfl]
  · rfl
  · rfl

end Login

------------------------------------------------------------
-- Cutting
------------------------------------------------------------

section Cutting

variable {mark : Char} {a : List Char}

theorem splitAtFirst?_append
    (hMark : mark ∉ a)
    (b : List Char) :
    Text.splitAtFirst? mark (a ++ b) =
      (Text.splitAtFirst? mark b).map fun x =>
        (a ++ x.1, x.2) := by
  induction a with
  | nil => simp
  | cons c a ih =>
      obtain ⟨hNe, hMark⟩ := not_or.mp (mt List.mem_cons.mpr hMark)
      rw [List.cons_append, Text.splitAtFirst?,
        if_neg (Ne.symm hNe), ih hMark, Option.map_map]
      rfl

/- Text without the mark stays in front of the cut. -/
theorem cutAt_append
    (hMark : mark ∉ a)
    (b : List Char) :
    cutAt mark (a ++ b) =
      (a ++ (cutAt mark b).1, (cutAt mark b).2) := by
  unfold cutAt
  rw [splitAtFirst?_append hMark]
  cases Text.splitAtFirst? mark b <;> rfl

end Cutting

/- An at sign that is not the last one belongs to the user. -/
def moreUser (cs : List Char) : List Char :=
  match (cutUser cs).1 with
  | some more => '@' :: more
  | none => []

/- The user goes on to the last at sign. -/
theorem cutUser_append (a b : List Char) :
    cutUser (a ++ '@' :: b) =
      (some (a ++ moreUser b), (cutUser b).2) := by
  have hReverse : (a ++ '@' :: b).reverse =
      b.reverse ++ '@' :: a.reverse := by simp
  have hBoth : b.reverse.takeWhile (· != '@') ++
      b.reverse.dropWhile (· != '@') = b.reverse :=
    List.takeWhile_append_dropWhile
  unfold moreUser cutUser
  rw [hReverse, List.dropWhile_append, List.takeWhile_append]
  rcases hDrop : b.reverse.dropWhile (· != '@') with _ | ⟨c, r⟩
  · rw [hDrop, List.append_nil] at hBoth
    simp [hBoth]
  · have hShort : (b.reverse.takeWhile (· != '@')).length ≠
        b.reverse.length := by
      have hLength := congrArg List.length hBoth
      rw [hDrop, List.length_append, List.length_cons] at hLength
      omega
    have hFirst : c = '@' := by
      have hHead := List.head?_dropWhile_not (· != '@') b.reverse
      rw [hDrop] at hHead
      simpa using hHead
    rw [if_neg hShort]
    simp [hFirst]

/- A password that is not empty follows the first colon. -/
theorem readUser_append
    {user password : List Char}
    (hUser : ':' ∉ user)
    (hPassword : password ≠ []) :
    readUser (user ++ ':' :: password) =
      (Percent.encode Percent.inUser user,
        some (Percent.encode Percent.inUser password)) := by
  unfold readUser
  rw [splitAtFirst?_append hUser, Text.splitAtFirst?,
    if_pos rfl, Option.map_some, List.append_nil]
  cases password with
  | nil => exact absurd rfl hPassword
  | cons => rfl

------------------------------------------------------------
-- Places
------------------------------------------------------------

/-
  The place that a user is at: a host that is not empty, with
  a number or none, and what is left for the path.
-/
def readPlace
    (cs : List Char) :
    Except ParseError (List Char × Option Nat × List Char) := do
  let (hostText, r) := cutHost false cs
  let host ← readHost hostText
  if host.isEmpty then throw .emptyHost
  match r with
  | [] => return (host, none, [])
  | _ :: r =>
      let (number, left) ← readPortNumber r
      return (host, number, left)

/- A user and a password ask for a place and nothing else. -/
theorem readAuthority_append
    {user password : List Char}
    (hLogin : IsLogin user password)
    (cs : List Char)
    (more : Bool) :
    readAuthority (login user password ++ cs) more =
      (readPlace (cutUser cs).2).map fun x =>
        (⟨Percent.encode Percent.inUser user,
          some (Percent.encode Percent.inUser
            (password ++ moreUser cs)), x.1, x.2.1⟩, x.2.2) := by
  have hColon : ':' ∉ user := not_mem_of_plain hLogin.plainUser rfl
  have hText : login user password ++ cs =
      (user ++ ':' :: password) ++ '@' :: cs := by simp [login]
  have hNext : password ++ moreUser cs ≠ [] := by
    simp [hLogin.hasPassword]
  unfold readAuthority
  rw [hText, cutUser_append]
  simp only [List.append_assoc, List.cons_append,
    Option.getD_some, readUser_append hColon hNext]
  unfold readPlace
  rcases cutHost false (cutUser cs).2 with ⟨hostText, r⟩
  cases hHost : readHost hostText with
  | error e => simp [hHost, bind, Except.bind, Except.map]
  | ok host =>
      by_cases hEmpty : host = []
      · cases r <;>
          simp [hHost, hEmpty, bind, Except.bind, Except.map,
            throw, throwThe, MonadExceptOf.throw, pure, Except.pure]
      · cases r with
        | nil =>
            simp [hHost, hEmpty, bind, Except.bind, Except.map,
              pure, Except.pure]
        | cons c r =>
            cases hNumber : readPortNumber r <;>
              simp [hHost, hEmpty, hNumber, bind, Except.bind,
                Except.map, pure, Except.pure]

------------------------------------------------------------
-- Whole addresses
------------------------------------------------------------

/- The text up to its query or fragment. -/
def front (cs : List Char) : List Char :=
  (cutAt '?' (cutAt '#' cs).1).1

/- The text that is up to the path, query or fragment. -/
def ahead (cs : List Char) : List Char :=
  (front cs).takeWhile fun c => !endsAuthority c

/- The place that stands at the beginning of a text. -/
def place? (cs : List Char) :
    Except ParseError (List Char × Option Nat × List Char) :=
  readPlace (cutUser (ahead cs)).2

/- The URL of a user and a password at a place. -/
def atPlace
    (scheme user password cs : List Char)
    (x : List Char × Option Nat × List Char) : Url where
  scheme
  authority := some
    ⟨Percent.encode Percent.inUser user,
      some (Percent.encode Percent.inUser
        (password ++ moreUser (ahead cs))), x.1, x.2.1⟩
  path := readRooted
    (x.2.2 ++ (front cs).dropWhile fun c => !endsAuthority c)
  query := (cutAt '?' (cutAt '#' cs).1).2.map
    (Percent.encode Percent.inQuery)
  fragment := (cutAt '#' cs).2.map
    (Percent.encode Percent.inFragment)

/- A login is split off the address that follows the scheme. -/
theorem readAfterScheme_address
    {user password : List Char}
    (hLogin : IsLogin user password)
    (scheme cs : List Char) :
    readAfterScheme scheme
        ('/' :: '/' :: (login user password ++ cs)) =
      (place? cs).map (atPlace scheme user password cs) := by
  let before := '/' :: '/' :: login user password
  have hCut (mark : Char) (hPlain : isPlain mark = false)
      (hSlash : mark ≠ '/') (hColon : mark ≠ ':')
      (hAt : mark ≠ '@') (r : List Char) :
      cutAt mark (before ++ r) =
        (before ++ (cutAt mark r).1, (cutAt mark r).2) := by
    refine cutAt_append ?_ r
    simp [before, hSlash, hLogin.not_mem hPlain hColon hAt]
  have hInside : ∀ c ∈ login user password,
      (!endsAuthority c) = true := by
    intro c hC
    rw [hLogin.goes_on hC]
    rfl
  have hText : '/' :: '/' :: (login user password ++ cs) =
      before ++ cs := rfl
  simp only [readAfterScheme, hText,
    hCut '#' rfl (by decide) (by decide) (by decide),
    hCut '?' rfl (by decide) (by decide) (by decide)]
  simp only [before, List.cons_append]
  rw [List.takeWhile_append_of_pos hInside,
    List.dropWhile_append_of_pos hInside,
    readAuthority_append hLogin]
  change (do
    let x ← (place? cs).map _
    _) = _
  cases place? cs <;> rfl

/- The scheme of a text that begins with one. -/
theorem scheme?_of_chars
    {scheme : List Char}
    (hBegins : ∃ c r, scheme = c :: r ∧ Text.isLetter c = true)
    (hChars : ∀ c ∈ scheme, isSchemeChar c = true)
    (cs : List Char) :
    scheme? (scheme ++ ':' :: cs) =
      some (scheme.map Text.foldChar, cs) := by
  obtain ⟨c, r, rfl, hLetter⟩ := hBegins
  have hEnd : isSchemeChar ':' = false := rfl
  unfold scheme?
  rw [List.dropWhile_append_of_pos hChars,
    List.takeWhile_append_of_pos hChars]
  simp [hLetter, hEnd]

/- What is read of a text behind an at sign. -/
def cleanEnd (cs : List Char) : List Char :=
  ((cs.reverse.dropWhile isEdge).reverse).filter
    fun c => !isIgnored c

theorem isEdge_of_isIgnored
    {c : Char}
    (h : isIgnored c = true) : isEdge c = true := by
  simp only [isIgnored, Bool.or_eq_true, beq_iff_eq] at h
  rcases h with (rfl | rfl) | rfl <;> rfl

/-
  Cleaning leaves a text without spaces and control characters
  as it is.
-/
theorem clean_append
    {a : List Char}
    (hSome : a ≠ [])
    (hRead : ∀ c ∈ a, isEdge c = false)
    (cs : List Char) :
    clean (a ++ cs) = a ++ cleanEnd cs := by
  have hStays (r : List Char)
      (hR : ∀ c ∈ r, isEdge c = false) :
      r.dropWhile isEdge = r := by
    cases r with
    | nil => rfl
    | cons c r =>
        rw [List.dropWhile_cons_of_neg]
        simp [hR c (List.mem_cons_self ..)]
  have hFront : (a ++ cs).dropWhile isEdge = a ++ cs := by
    rw [List.dropWhile_append, hStays a hRead]
    simp [hSome]
  have hBack : (cs.reverse ++ a.reverse).dropWhile isEdge =
      cs.reverse.dropWhile isEdge ++ a.reverse := by
    rw [List.dropWhile_append]
    split
    · next hNone =>
      rw [List.isEmpty_iff.mp hNone, List.nil_append]
      exact hStays _ fun c hC => hRead c (List.mem_reverse.mp hC)
    · rfl
  have hKept : a.filter (fun c => !isIgnored c) = a := by
    refine List.filter_eq_self.mpr fun c hC => ?_
    by_contra hIgnored
    have hEdge : isEdge c = true :=
      isEdge_of_isIgnored (by simpa using hIgnored)
    rw [hRead c hC] at hEdge
    exact absurd hEdge (by decide)
  unfold clean Text.trimBoth cleanEnd
  rw [hFront, List.reverse_append, hBack, List.reverse_append,
    List.reverse_reverse, List.filter_append, hKept]

theorem not_isEdge_of_isSchemeChar
    {c : Char}
    (h : isSchemeChar c = true) : isEdge c = false := by
  have hAbove (d : Char) (hD : d ≤ c) (hMore : 0x20 < d.toNat) :
      isEdge c = false := by
    have hNat : d.toNat ≤ c.toNat := hD
    rw [isEdge, decide_eq_false_iff_not]
    omega
  simp only [isSchemeChar, Text.isLetter, Text.isDigit,
    Bool.or_eq_true, Bool.and_eq_true, decide_eq_true_eq,
    beq_iff_eq] at h
  rcases h with ((((h | h) | h) | rfl) | rfl) | rfl
  · exact hAbove 'a' h.1 (by decide)
  · exact hAbove 'A' h.1 (by decide)
  · exact hAbove '0' h.1 (by decide)
  all_goals rfl

/- Plain characters are not cut off at the ends. -/
theorem not_isEdge_of_isPlain
    {c : Char}
    (h : isPlain c = true) : isEdge c = false := by
  apply not_isEdge_of_isSchemeChar
  simp only [isPlain, Bool.or_eq_true] at h
  simp [isSchemeChar, h]

------------------------------------------------------------
-- Hiding
------------------------------------------------------------

/- A URL with a user, a password, and any text behind them. -/
def address (scheme user password rest : String) : String :=
  scheme ++ "://" ++ user ++ ":" ++ password ++ "@" ++ rest

/- A place can be read at the beginning of a text. -/
def HasPlace (rest : String) : Prop :=
  ∃ x, place? (cleanEnd rest.toList) = .ok x

variable {scheme user password other : String}

/- An address is read with its scheme, its login and its place. -/
theorem ofText_address
    (hScheme : IsPlainScheme scheme.toList)
    (hLogin : IsLogin user.toList password.toList)
    (rest : String) :
    ofText (address scheme user password rest) =
      (place? (cleanEnd rest.toList)).map
        (atPlace (scheme.toList.map Text.foldChar) user.toList
          password.toList (cleanEnd rest.toList)) := by
  have hText : (address scheme user password rest).toList =
      (scheme.toList ++ ':' :: '/' :: '/' ::
        login user.toList password.toList) ++ rest.toList := by
    simp [address, login]
  have hRead : ∀ c ∈ scheme.toList ++ ':' :: '/' :: '/' ::
      login user.toList password.toList, isEdge c = false := by
    intro c hC
    simp only [List.mem_append, List.mem_cons] at hC
    rcases hC with hC | rfl | rfl | rfl | hC
    · exact not_isEdge_of_isSchemeChar (hScheme.chars c hC)
    · rfl
    · rfl
    · rfl
    · rcases hLogin.mem hC with hPlain | rfl | rfl
      · exact not_isEdge_of_isPlain hPlain
      · rfl
      · rfl
  unfold ofText
  rw [hText, clean_append (by simp) hRead]
  simp only [List.append_assoc, List.cons_append]
  rw [scheme?_of_chars hScheme.begins hScheme.chars]
  exact readAfterScheme_address hLogin _ _

theorem atPlace_hasPassword
    (scheme user password cs : List Char)
    (x : List Char × Option Nat × List Char) :
    (atPlace scheme user password cs x).password?.isSome = true :=
  rfl

/- Another password takes the place of the one that was read. -/
theorem withPassword_atPlace
    (new : String)
    (password other scheme user cs : List Char)
    (x : List Char × Option Nat × List Char) :
    withPassword (atPlace scheme user password cs x) new =
      withPassword (atPlace scheme user other cs x) new :=
  rfl

/- The URL that is shown in place of an address. -/
theorem maskPassword_address
    (hScheme : IsPlainScheme scheme.toList)
    (hLogin : IsLogin user.toList password.toList)
    (rest : String) :
    maskPassword (address scheme user password rest) =
      match place? (cleanEnd rest.toList) with
      | .ok x =>
          (withPassword (atPlace (scheme.toList.map Text.foldChar)
            user.toList [] (cleanEnd rest.toList) x)
            "****").write
      | .error _ => address scheme user password rest := by
  unfold maskPassword
  rw [ofText_address hScheme hLogin]
  cases place? (cleanEnd rest.toList) with
  | ok x =>
      simp only [Except.map]
      rw [if_pos (atPlace_hasPassword ..),
        withPassword_atPlace "****" _ []]
  | error e => rfl

/- Addresses with different passwords are different. -/
theorem address_inj
    (rest : String)
    (h : address scheme user password rest =
      address scheme user other rest) : password = other := by
  have hChars := congrArg String.toList h
  simp only [address, String.toList_append,
    List.append_cancel_left_eq, List.append_cancel_right_eq,
    String.toList_inj] at hChars
  exact hChars

/-
  The password is hidden exactly if a place follows it.  If
  none does the address is no URL and is shown as it is.
-/
theorem hides_password_iff
    (hScheme : IsPlainScheme scheme.toList)
    (hLogin : IsLogin user.toList password.toList)
    (hOther : IsLogin user.toList other.toList)
    (rest : String) :
    (maskPassword (address scheme user password rest) =
      maskPassword (address scheme user other rest) ↔
        password = other ∨ HasPlace rest) ∧
    (¬ HasPlace rest →
      maskPassword (address scheme user password rest) =
        address scheme user password rest) := by
  rw [maskPassword_address hScheme hLogin,
    maskPassword_address hScheme hOther]
  unfold HasPlace
  cases place? (cleanEnd rest.toList) with
  | ok x => simp
  | error e =>
      constructor
      · constructor
        · intro hSame
          exact .inl (address_inj rest hSame)
        · rintro (rfl | ⟨x, hX⟩)
          · rfl
          · cases hX
      · exact fun _ => rfl

theorem postgres_isPlainScheme :
    IsPlainScheme "postgres".toList where
  begins := ⟨'p', _, rfl, rfl⟩
  chars := List.all_eq_true.mp rfl
  plain := by decide

/-
  A plain user and a plain password that is not empty make
  up a login.
-/
theorem isLogin_of_plain
    {user password : List Char}
    (hUser : user.all isPlain = true)
    (hPassword : password.all isPlain = true)
    (hSome : password ≠ []) : IsLogin user password :=
  ⟨List.all_eq_true.mp hUser, List.all_eq_true.mp hPassword, hSome⟩

/-
  The address of one database with two passwords, which are
  masked alike.
-/
theorem orders_password_is_hidden :
    IsPlainScheme "postgres".toList ∧
    IsLogin "app".toList "first1".toList ∧
    IsLogin "app".toList "second2".toList ∧
    HasPlace "db:5432/orders" ∧
    maskPassword (address "postgres" "app" "first1"
        "db:5432/orders") =
      maskPassword (address "postgres" "app" "second2"
        "db:5432/orders") := by
  have hFirst : IsLogin "app".toList "first1".toList :=
    isLogin_of_plain rfl rfl (by decide)
  have hSecond : IsLogin "app".toList "second2".toList :=
    isLogin_of_plain rfl rfl (by decide)
  have hPlace : HasPlace "db:5432/orders" :=
    ⟨("db".toList, some 5432, []), by decide +kernel⟩
  refine ⟨postgres_isPlainScheme, hFirst, hSecond, hPlace, ?_⟩
  have hHides := hides_password_iff postgres_isPlainScheme hFirst
    hSecond "db:5432/orders"
  exact hHides.1.mpr (.inr hPlace)

/- A number that no host listens on leaves the password open. -/
theorem password_is_shown :
    ¬ ∀ (scheme user password other rest : String),
      IsPlainScheme scheme.toList →
      IsLogin user.toList password.toList →
      IsLogin user.toList other.toList →
        maskPassword (address scheme user password rest) =
          maskPassword (address scheme user other rest) := by
  intro h
  have hSame := h "postgres" "app" "first1" "second2"
    "db:99999/orders" postgres_isPlainScheme
    (isLogin_of_plain rfl rfl (by decide))
    (isLogin_of_plain rfl rfl (by decide))
  revert hSame
  decide +kernel

end Url

end Failover
