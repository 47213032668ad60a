import Failover.Config.Shorthand
import Failover.Proofs.Config.Valid
import Failover.Proofs.Text.Trim
import Failover.Proofs.Url.Written

/-
  Repositories of lines, and what they leave to the driver.
  The options are taken out of the query of a URL and nothing
  else is: the other pairs stay in their order, and so do the
  other parts of the URL.  URLs of schemes with rules of their
  own are read by a reader that is given.

  Key definitions include:
    * `Url.readWith`, `Url.ReadsSpecial`
    * `Config.last?`
    * `Config.IsDriverUrl`
    * `Config.Repository.IsDecidedBy`
    * `Config.Repository.KeepsDriverOptions`

  Main statements:
    * `Config.Repository.ofLine_eq_ok_iff`
    * `Url.readWith_readsBack`
    * `Config.option?_splitQuery`
    * `Config.Repository.ofLine_keeps`
    * `Config.Repository.keeps_driver_options`
-/

namespace Failover

namespace Config

------------------------------------------------------------
-- Lines
------------------------------------------------------------

/- An error that is told otherwise is an error. -/
theorem mapError_eq_ok_iff
    {α ε ε' : Type}
    {x : Except ε α}
    {f : ε → ε'}
    {a : α} :
    x.mapError f = .ok a ↔ x = .ok a := by
  cases x <;> simp [Except.mapError]

/-
  A line gives a repository if it has a name, its URL can be
  read, and the options for the pool and the order are right.
-/
theorem Repository.ofLine_eq_ok_iff
    {read : String → Except Url.ParseError Url}
    {line : String}
    {r : Repository} :
    ofLine read line = .ok r ↔
      ∃ name text u sequence,
        splitLine line = .ok (name, text) ∧
        name.isEmpty = false ∧
        read text = .ok u ∧
        (poolOfOptions (splitQuery u.query).1).validate = .ok () ∧
        sequenceOfOptions (splitQuery u.query).1 = .ok sequence ∧
        r = ofUrl name u sequence := by
  unfold ofLine
  constructor
  · intro h
    obtain ⟨⟨name, text⟩, hSplit, h⟩ := bind_eq_ok_iff.mp h
    cases hName : name.isEmpty with
    | true =>
        simp only [hName, if_true] at h
        cases h
    | false =>
        simp only [hName, Bool.false_eq_true, if_false] at h
        obtain ⟨u, hRead, h⟩ := bind_eq_ok_iff.mp h
        obtain ⟨_, hPool, h⟩ := bind_eq_ok_iff.mp h
        obtain ⟨sequence, hSequence, h⟩ := bind_eq_ok_iff.mp h
        cases h
        exact ⟨name, text, u, sequence, hSplit, hName,
          mapError_eq_ok_iff.mp hRead, mapError_eq_ok_iff.mp hPool,
          hSequence, rfl⟩
  · rintro ⟨name, text, u, sequence, hSplit, hName, hRead, hPool,
      hSequence, rfl⟩
    refine bind_eq_ok_iff.mpr ⟨(name, text), hSplit, ?_⟩
    simp only [hName, Bool.false_eq_true, if_false]
    refine bind_eq_ok_iff.mpr
      ⟨u, mapError_eq_ok_iff.mpr hRead, ?_⟩
    refine bind_eq_ok_iff.mpr
      ⟨(), mapError_eq_ok_iff.mpr hPool, ?_⟩
    exact bind_eq_ok_iff.mpr ⟨sequence, hSequence, rfl⟩

end Config

------------------------------------------------------------
-- Readers
------------------------------------------------------------

namespace Url

variable {special : String → Except ParseError Url}

/- URLs of special schemes are read by a reader of their own. -/
def readWith
    (special : String → Except ParseError Url)
    (s : String) : Except ParseError Url :=
  match scheme? (clean s.toList) with
  | some (scheme, _) =>
      if String.ofList scheme ∈ specialSchemes then special s
      else ofText s
  | none => ofText s

/-
  A reader of URLs of special schemes keeps the scheme among
  these, and reads a URL back whose query is another one.
-/
structure ReadsSpecial
    (special : String → Except ParseError Url) : Prop where
  scheme : ∀ text u, special text = .ok u →
    String.ofList u.scheme ∈ specialSchemes
  back : ReadsBack special

theorem isScheme_of_special
    {cs : List Char}
    (h : String.ofList cs ∈ specialSchemes) : IsScheme cs := by
  have hAll : ∀ s ∈ specialSchemes, ∃ c r,
      s.toList = c :: r ∧ Text.isLetter c = true ∧
      (∀ d ∈ s.toList, isSchemeChar d = true) ∧
      s.toList.map Text.foldChar = s.toList := by
    intro s hS
    simp only [specialSchemes, List.mem_cons, List.not_mem_nil,
      or_false] at hS
    rcases hS with rfl | rfl | rfl | rfl | rfl | rfl <;>
      exact ⟨_, _, rfl, rfl, List.all_eq_true.mp rfl, rfl⟩
  obtain ⟨c, r, hBegins, hLetter, hChars, hFold⟩ := hAll _ h
  rw [String.toList_ofList] at hBegins hChars hFold
  exact ⟨⟨c, r, hBegins, hLetter⟩, hChars, hFold⟩

/- The scheme is found in the text of a URL. -/
theorem scheme?_write
    {u : Url}
    (h : IsScheme u.scheme) :
    ∃ r, scheme? (clean u.write.toList) = some (u.scheme, r) := by
  have hRead : ∀ c ∈ u.scheme ++ [':'], isEdge c = false := by
    intro c hC
    rcases List.mem_append.mp hC with hMem | hMem
    · exact not_isEdge_of_isSchemeChar (h.chars c hMem)
    · rw [List.mem_singleton.mp hMem]
      rfl
  have hText : u.writeChars = (u.scheme ++ [':']) ++
      (writeFront u ++ writeOptional '?' u.query ++
        writeOptional '#' u.fragment) := by
    simp [writeChars_eq]
  refine ⟨cleanEnd (writeFront u ++ writeOptional '?' u.query ++
    writeOptional '#' u.fragment), ?_⟩
  rw [write, String.toList_ofList, hText,
    clean_append (by simp) hRead, List.append_assoc,
    List.singleton_append, scheme?_of_chars h.begins h.chars,
    h.folded]

theorem readAfterScheme_scheme
    {scheme cs : List Char}
    {u : Url}
    (h : readAfterScheme scheme cs = .ok u) :
    u.scheme = scheme := by
  unfold readAfterScheme at h
  simp only at h
  split at h
  · obtain ⟨_, -, h⟩ := bind_eq_ok_iff.mp h
    cases h
    rfl
  · cases h
    rfl
  · cases h
    rfl

/- A reader by schemes reads back if its readers do. -/
theorem readWith_readsBack
    (hSpecial : ReadsSpecial special) :
    ReadsBack (readWith special) := by
  intro text u query hRead hQuery
  unfold readWith at hRead
  have hOther {scheme r : List Char}
      (hScheme : scheme? (clean text.toList) = some (scheme, r))
      (hNot : String.ofList scheme ∉ specialSchemes)
      (hText : ofText text = .ok u) :
      readWith special (u.withQuery query).write =
        .ok (u.withQuery query) := by
    have hBack := ofText_readsBack text u query hText hQuery
    have hNormal := ofText_isNormal hText
    obtain ⟨r', hFound⟩ := @scheme?_write (u.withQuery query)
      hNormal.scheme
    rw [ofText, hScheme] at hText
    have hSame := readAfterScheme_scheme hText
    change _ = some (u.scheme, r') at hFound
    rw [readWith, hFound]
    simp only [hSame, if_neg hNot]
    exact hBack
  split at hRead
  · next scheme r hScheme =>
    split at hRead
    · have hMem := hSpecial.scheme text u hRead
      obtain ⟨r', hFound⟩ := @scheme?_write (u.withQuery query)
        (isScheme_of_special hMem)
      change _ = some (u.scheme, r') at hFound
      rw [readWith, hFound]
      simp only [if_pos hMem]
      exact hSpecial.back text u query hRead hQuery
    · next hNot => exact hOther hScheme hNot hRead
  · next hNone =>
    rw [ofText, hNone] at hRead
    cases hRead

end Url

------------------------------------------------------------
-- Options
------------------------------------------------------------

namespace Config

/- The pairs of the query of a URL. -/
def pairsOf (u : Url) : List (String × String) :=
  Form.pairs (u.query.getD [])

/- The value of the last pair of a key, in any ASCII case. -/
def last?
    (ps : List (String × String))
    (key : String) : Option String :=
  (ps.filter fun p => Text.fold p.1 == key).getLast?.map (·.2)

/- The URL for a driver: all but the options of another one. -/
structure IsDriverUrl (u u' : Url) : Prop where
  pairs : pairsOf u' = (pairsOf u).filter fun p => !isOption p
  scheme : u'.scheme = u.scheme
  authority : u'.authority = u.authority
  path : u'.path = u.path ∨
    ∃ text, u.path = .opaqueText text ∧
      u'.path = .opaqueText (Url.dropEndSpaces text)
  fragment : u'.fragment = u.fragment

/- The values of keys make up the options of a repository. -/
structure Repository.IsDecidedBy
    (r : Repository)
    (value? : String → Option String) : Prop where
  engine : r.engine = value? "engine"
  schema : r.schema = (value? "schema").filter (!·.isEmpty)
  enabled : r.enabled =
    (value? "enabled").all fun s => !Text.sameName s "false"
  sequence : (value? "sequence").elim (some 0) int32? =
    some r.sequence
  greatest : r.pool.maxConnections =
    (value? "max_connections").bind (natural? (2 ^ 32 - 1))
  least : r.pool.minConnections =
    (value? "min_connections").bind (natural? (2 ^ 32 - 1))
  idle : r.pool.idleTimeout =
    (value? "idle_timeout").bind (natural? (2 ^ 64 - 1))
  acquire : r.pool.acquireTimeout =
    (value? "acquire_timeout").bind (natural? (2 ^ 64 - 1))
  test : r.pool.testBeforeAcquire =
    (value? "test_before_acquire").bind bool?

/-
  A line is read to a repository without losing anything of
  its URL that is for the driver, and what the repository
  connects to is read with no option left in it.
-/
def Repository.KeepsDriverOptions
    (read : String → Except Url.ParseError Url)
    (line : String)
    (r : Repository) : Prop :=
  ∃ name text u u',
    splitLine line = .ok (name, text) ∧
    read text = .ok u ∧
    read r.connectionString = .ok u' ∧
    IsDriverUrl u u' ∧
    r.IsDecidedBy (last? (pairsOf u)) ∧
    ofLine read (r.name ++ "=" ++ r.connectionString) =
      .ok { name := r.name, connectionString := r.connectionString }

section Options

variable {u : Url} {key : String}

theorem splitQuery_eq (u : Url) :
    splitQuery u.query =
      ((pairsOf u).filter isOption,
        (pairsOf u).filter fun p => !isOption p) := by
  rw [splitQuery, List.partition_eq_filter_filter]
  rfl

/- The option of a key is that of its last pair. -/
theorem option?_splitQuery
    (hKey : key ∈ optionKeys) :
    option? (splitQuery u.query).1 key =
      last? (pairsOf u) key := by
  have hOption : ∀ p : String × String,
      ((Text.fold p.1 == key) && isOption p) =
        (Text.fold p.1 == key) := by
    intro p
    by_cases hSame : Text.fold p.1 = key
    · simp [isOption, hSame, hKey]
    · simp [hSame]
  rw [splitQuery_eq, option?, last?, ← List.head?_filter,
    List.filter_reverse, List.head?_reverse, List.filter_filter]
  simp only [hOption]

/- The pairs that stay are those of the URL without options. -/
theorem pairsOf_urlWithout
    (u : Url)
    (ps : List (String × String)) :
    pairsOf (urlWithout u ps) = ps := by
  cases ps with
  | nil => rfl
  | cons p ps => exact Form.pairs_write (p :: ps)

theorem isQuery_urlWithout (ps : List (String × String)) :
    Url.IsQuery
      (if ps.isEmpty then none else some (Form.write ps)) := by
  split
  · exact .inl rfl
  · exact .inr ⟨ps, rfl⟩

theorem urlWithout_isDriverUrl (u : Url) :
    IsDriverUrl u (urlWithout u (splitQuery u.query).2) where
  pairs := by rw [pairsOf_urlWithout, splitQuery_eq]
  scheme := rfl
  authority := rfl
  path := by
    rcases u.withQuery_path _ with hSame | ⟨text, hText, -, -, hPath⟩
    · exact .inl hSame
    · exact .inr ⟨text, hText, hPath⟩
  fragment := rfl

/- A URL without its options of the pool has none left. -/
theorem splitQuery_urlWithout (u : Url) :
    splitQuery (urlWithout u (splitQuery u.query).2).query =
      ([], (splitQuery u.query).2) := by
  have hStay : ∀ p ∈ (splitQuery u.query).2,
      (!isOption p) = true := by
    intro p hP
    rw [splitQuery_eq] at hP
    exact (List.mem_filter.mp hP).2
  have hNone : (splitQuery u.query).2.filter isOption = [] := by
    rw [List.filter_eq_nil_iff]
    intro p hP
    simpa using hStay p hP
  rw [splitQuery_eq (urlWithout u _), pairsOf_urlWithout, hNone,
    List.filter_eq_self.mpr hStay]

/- Taking the options out again changes nothing. -/
theorem urlWithout_urlWithout
    (u : Url)
    (ps : List (String × String)) :
    urlWithout (urlWithout u ps) ps = urlWithout u ps :=
  u.withQuery_withQuery _

end Options

------------------------------------------------------------
-- Repositories
------------------------------------------------------------

/- A repository is made of the last options of each key. -/
theorem Repository.ofUrl_isDecidedBy
    {name : String}
    {u : Url}
    {sequence : Int}
    (h : sequenceOfOptions (splitQuery u.query).1 =
      .ok sequence) :
    (ofUrl name u sequence).IsDecidedBy (last? (pairsOf u)) := by
  have hOption (key : String) (hKey : key ∈ optionKeys) :=
    @option?_splitQuery u key hKey
  have hNumber (key : String) (hKey : key ∈ optionKeys) (n : Nat) :
      (option? (splitQuery u.query).1 key).bind (natural? n) =
        (last? (pairsOf u) key).bind (natural? n) := by
    rw [hOption key hKey]
  refine ⟨hOption _ (by decide), ?_, ?_, ?_,
    hNumber _ (by decide) _, hNumber _ (by decide) _,
    hNumber _ (by decide) _, hNumber _ (by decide) _, ?_⟩
  · rw [← hOption "schema" (by decide)]
    simp only [ofUrl]
    cases option? (splitQuery u.query).1 "schema" with
    | none => rfl
    | some s => cases hS : s.isEmpty <;> simp [Option.filter, hS]
  · rw [← hOption "enabled" (by decide)]
    simp only [ofUrl]
    cases option? (splitQuery u.query).1 "enabled" <;> rfl
  · rw [← hOption "sequence" (by decide)]
    unfold sequenceOfOptions at h
    cases hText : option? (splitQuery u.query).1 "sequence" with
    | none =>
        rw [hText] at h
        cases h
        rfl
    | some s =>
        rw [hText] at h
        cases hN : int32? s with
        | none =>
            simp only [hN] at h
            cases h
        | some n =>
            simp only [hN] at h
            cases h
            exact hN
  · rw [← hOption "test_before_acquire" (by decide)]
    rfl

/- The parts of a line: the name has no mark in it. -/
theorem splitLine_eq_ok
    {line name text : String}
    (h : splitLine line = .ok (name, text)) :
    Text.IsTight name.toList ∧
      ∀ c ∈ name.toList, c ≠ ':' ∧ c ≠ '=' := by
  unfold splitLine at h
  simp only at h
  split at h
  · simp only [Except.ok.injEq, Prod.mk.injEq] at h
    obtain ⟨rfl, -⟩ := h
    refine ⟨Text.isTight_trim _, fun c hC => ?_⟩
    have hMem := Text.mem_of_mem_trim hC
    rw [String.toList_ofList] at hMem
    constructor
    · have hFirst := (List.takeWhile_prefix _).subset hMem
      simpa using List.mem_takeWhile_imp hFirst
    · simpa using List.mem_takeWhile_imp hMem
  · cases h

/- A line is put together from a name and a text. -/
theorem splitLine_append
    {name : String}
    (hTight : Text.IsTight name.toList)
    (hSome : name.isEmpty = false)
    (hMarks : ∀ c ∈ name.toList, c ≠ ':' ∧ c ≠ '=')
    (text : String) :
    splitLine (name ++ "=" ++ text) = .ok (name, text) := by
  have hLine : (name ++ "=" ++ text).toList =
      name.toList ++ '=' :: text.toList := by simp
  have hColon : ∀ c ∈ name.toList, (c != ':') = true := by
    intro c hC
    simpa using (hMarks c hC).1
  have hEquals : ∀ c ∈ name.toList, (c != '=') = true := by
    intro c hC
    simpa using (hMarks c hC).2
  have hBefore : (name.toList ++ '=' :: text.toList).takeWhile
      (· != ':') =
        name.toList ++ '=' :: text.toList.takeWhile (· != ':') := by
    rw [List.takeWhile_append_of_pos hColon]
    rfl
  have hName : (name.toList ++ '=' ::
      text.toList.takeWhile (· != ':')).takeWhile (· != '=') =
        name.toList := by
    rw [List.takeWhile_append_of_pos hEquals]
    simp
  have hTrim : Text.trim name = name :=
    Text.trim_of_isTight hTight (by simpa using hSome)
  have hRest : (name.toList ++ '=' :: text.toList).drop
      (name.toList.length + 1) = text.toList := by
    simp
  unfold splitLine
  simp only [hLine, hBefore, hName, hRest, String.ofList_toList,
    hTrim]
  rw [if_pos (by simp)]

/-
  What a line leaves to the driver, for any reader that reads
  URLs back.
-/
theorem Repository.ofLine_keeps
    {read : String → Except Url.ParseError Url}
    (hRead : Url.ReadsBack read)
    {line : String}
    {r : Repository}
    (h : ofLine read line = .ok r) :
    r.KeepsDriverOptions read line := by
  obtain ⟨name, text, u, sequence, hSplit, hSome, hText, -,
    hSequence, rfl⟩ := ofLine_eq_ok_iff.mp h
  obtain ⟨hTight, hMarks⟩ := splitLine_eq_ok hSplit
  have hBack : read (urlWithout u (splitQuery u.query).2).write =
      .ok (urlWithout u (splitQuery u.query).2) :=
    hRead text u _ hText (isQuery_urlWithout _)
  refine ⟨name, text, u, _, hSplit, hText, hBack,
    urlWithout_isDriverUrl u, ofUrl_isDecidedBy hSequence,
    ofLine_eq_ok_iff.mpr ⟨name, _, _, 0,
      splitLine_append hTight hSome hMarks _, hSome, hBack, ?_⟩⟩
  rw [splitQuery_urlWithout]
  refine ⟨rfl, rfl, ?_⟩
  unfold ofUrl
  rw [splitQuery_urlWithout]
  simp only [urlWithout_urlWithout]
  rfl

/-
  For every line that is accepted the driver keeps what is its
  own: with the reader of plain URLs, and with one that reads
  the URLs of special schemes by their own rules.
-/
theorem Repository.keeps_driver_options :
    (∀ line r, ofShorthand line = .ok r →
      r.KeepsDriverOptions Url.ofText line) ∧
    ∀ special, Url.ReadsSpecial special →
      ∀ line r, ofLine (Url.readWith special) line = .ok r →
        r.KeepsDriverOptions (Url.readWith special) line := by
  constructor
  · intro line r h
    exact ofLine_keeps Url.ofText_readsBack h
  · intro special hSpecial line r h
    exact ofLine_keeps (Url.readWith_readsBack hSpecial) h

/- The secure URLs of one table, with any query. -/
def IsOrders (u : Url) : Prop :=
  u.scheme = "https".toList ∧
  u.authority = some ⟨[], none, "db".toList, none⟩ ∧
  u.path = .segments ["orders".toList]

instance (u : Url) : Decidable (IsOrders u) :=
  inferInstanceAs (Decidable (_ ∧ _ ∧ _))

/- A reader of these, which have no part with rules of its own. -/
def readOrders (s : String) : Except Url.ParseError Url :=
  match Url.ofText s with
  | .ok u => if IsOrders u then .ok u else .error .emptyHost
  | .error e => .error e

theorem readOrders_eq_ok_iff
    {s : String}
    {u : Url} :
    readOrders s = .ok u ↔ Url.ofText s = .ok u ∧ IsOrders u := by
  unfold readOrders
  cases Url.ofText s with
  | error e => simp
  | ok v =>
      by_cases hOrders : IsOrders v
      · simp only [if_pos hOrders, Except.ok.injEq]
        constructor
        · rintro rfl
          exact ⟨rfl, hOrders⟩
        · exact fun h => h.1
      · simp only [if_neg hOrders, Except.ok.injEq, reduceCtorEq,
          false_iff]
        rintro ⟨rfl, h⟩
        exact hOrders h

theorem readOrders_readsSpecial : Url.ReadsSpecial readOrders where
  scheme text u h := by
    rw [(readOrders_eq_ok_iff.mp h).2.1]
    decide
  back text u query h hQuery := by
    obtain ⟨hText, hScheme, hAuthority, hPath⟩ :=
      readOrders_eq_ok_iff.mp h
    refine readOrders_eq_ok_iff.mpr
      ⟨Url.ofText_readsBack text u query hText hQuery,
        hScheme, hAuthority, ?_⟩
    rcases u.withQuery_path query with hSame | ⟨text, hOther, -⟩
    · rw [hSame, hPath]
    · rw [hOther] at hPath
      cases hPath

/- A line of a plain scheme and what it is read to. -/
def salesLine : String :=
  "a=mysql://db/orders?charset=utf8&SCHEMA=old&schema=sales"

def sales : Repository where
  name := "a"
  connectionString := "mysql://db/orders?charset=utf8"
  schema := "sales"

/- A line of a special scheme and what it is read to. -/
def secureLine : String :=
  "b=https://db/orders?sequence=2&tls=yes"

def secure : Repository where
  name := "b"
  connectionString := "https://db/orders?tls=yes"
  sequence := 2

/- The character set and the encryption stay for the driver. -/
theorem charset_and_tls_are_kept :
    Repository.ofShorthand salesLine = .ok sales ∧
    sales.KeepsDriverOptions Url.ofText salesLine ∧
    Url.ReadsSpecial readOrders ∧
    Repository.ofLine (Url.readWith readOrders) secureLine =
      .ok secure ∧
    secure.KeepsDriverOptions (Url.readWith readOrders)
      secureLine := by
  have hSales : Repository.ofShorthand salesLine = .ok sales := by
    decide +kernel
  have hSecure : Repository.ofLine (Url.readWith readOrders)
      secureLine = .ok secure := by
    decide +kernel
  exact ⟨hSales, Repository.keeps_driver_options.1 _ _ hSales,
    readOrders_readsSpecial, hSecure,
    Repository.keeps_driver_options.2 _ readOrders_readsSpecial
      _ _ hSecure⟩

end Config

end Failover
