import Failover.Proofs.Json.Text

/-
  What a JSON text denotes.  A whole numeral of 64 bits is its
  number, and any other numeral the floating number nearest to
  it; of members with one name the last counts.  There is no
  bound on the nesting.  The text of a value denotes the value.

  Key definitions include:
    * `Json.Number.meaning`
    * `Json.Document.meaning?`, `Json.meaning?`
    * `Json.IsSound`

  Main statements:
    * `Json.Number.meaning_ofFloating`
    * `Json.Document.meaning?_document`
    * `Json.meaning?_render`
-/

namespace Failover

namespace Json

open Floating (Format)

------------------------------------------------------------
-- Meanings
------------------------------------------------------------

namespace Number

/- The rational number that a numeral is written for. -/
def numeral (n : Number) : Numeral :=
  ⟨n.negative,
    Decimal.ofDigits (n.whole ++ n.fraction.getD []),
    n.exponentValue - (n.fraction.getD []).length⟩

/- A whole number of 64 bits, or the nearest floating number. -/
def meaning (n : Number) : Json :=
  match n.whole? with
  | some k => .integer k
  | none => .float (n.numeral.round .double)

end Number

mutual

/- The value that a document denotes. -/
def Document.meaning? : Document → Option Json
  | .null => some .null
  | .bool b => some (.bool b)
  | .number n => some n.meaning
  | .string s => s.map .string
  | .array items => (itemMeanings? items).map .array
  | .object members =>
      (memberMeanings? members).map ofMembers

def Document.itemMeanings? :
    List Document → Option (List Json)
  | [] => some []
  | d :: r => do
      let v ← meaning? d
      let vs ← itemMeanings? r
      return v :: vs

def Document.memberMeanings? :
    List (Option String × Document) →
      Option (List (String × Json))
  | [] => some []
  | (n, d) :: r => do
      let n ← n
      let v ← meaning? d
      let ms ← memberMeanings? r
      return (n, v) :: ms

end

/- The value that a JSON text denotes. -/
def meaning? (s : String) : Option Json :=
  (Document.ofText? s).bind Document.meaning?

------------------------------------------------------------
-- Values
------------------------------------------------------------

/- A finite floating number of 64 bits in its own form. -/
def IsDouble : Floating → Prop
  | .finite _ m e => Format.double.IsForm m e
  | _ => False

mutual

/-
  A value whose numbers are of 64 bits and whose objects have
  their members in the order of their names.
-/
def IsSound : Json → Prop
  | .integer n => Int64.minValue.toInt ≤ n ∧ n < UInt64.size
  | .float x => IsDouble x
  | .array items => AreSound items
  | .object members =>
      (members.map (·.1)).Pairwise (· < ·) ∧
        HaveSound members
  | _ => True

def AreSound : List Json → Prop
  | [] => True
  | v :: r => IsSound v ∧ AreSound r

def HaveSound : List (String × Json) → Prop
  | [] => True
  | (_, v) :: r => IsSound v ∧ HaveSound r

end

------------------------------------------------------------
-- Numbers
------------------------------------------------------------

namespace Number

theorem exponentValue_some
    {n : Number}
    {top : Int}
    (hExponent : n.exponent =
      some (decide (top < 0), Decimal.digits top.natAbs)) :
    n.exponentValue = top := by
  unfold exponentValue
  rw [hExponent]
  simp only [Decimal.ofDigits_digits, decide_eq_true_eq]
  split_ifs <;> omega

/- A numeral whose digits and whose exponent are known. -/
theorem magnitude_eq
    {n : Number}
    {c : Nat}
    {k : Int}
    (hDigits :
      Decimal.ofDigits (n.whole ++ n.fraction.getD []) = c)
    (hExponent :
      n.exponentValue - (n.fraction.getD []).length = k) :
    n.numeral.magnitude = c * 10 ^ k := by
  unfold numeral Numeral.magnitude
  rw [hDigits, hExponent]

/- The numeral of some digits has their magnitude. -/
theorem magnitude_ofScientific
    (negative : Bool)
    (s : Scientific) :
    (ofScientific negative s).numeral.magnitude =
      s.coefficient * 10 ^ s.exponent := by
  have hDigits := Decimal.ofDigits_digits s.coefficient
  have hLength : 0 < (Decimal.digits s.coefficient).length :=
    List.length_pos_of_ne_nil (Decimal.digits_ne_nil _)
  unfold ofScientific
  simp only
  generalize Decimal.digits s.coefficient = ds at *
  by_cases hPlain :
      -5 ≤ (ds.length : Int) - 1 + s.exponent ∧
      (ds.length : Int) - 1 + s.exponent < 16
  · rw [if_pos hPlain]
    split_ifs with hWhole hPoint
    · -- zeros up to the point and one behind it
      have hZero : Decimal.ofDigits
          ((ds ++ List.replicate s.exponent.toNat '0') ++ ['0']) =
            s.coefficient * 10 ^ s.exponent.toNat * 10 := by
        rw [Decimal.ofDigits_append, Decimal.ofDigits_append,
          Decimal.ofDigits_zeros, hDigits, List.length_replicate]
        rfl
      rw [magnitude_eq (k := -1) hZero rfl]
      obtain ⟨k, hK⟩ := Int.eq_ofNat_of_zero_le hWhole
      rw [hK, Int.toNat_natCast, zpow_natCast, zpow_neg_one]
      push_cast
      ring
    · apply magnitude_eq
      · simp only [Option.getD_some, List.take_append_drop]
        exact hDigits
      · simp only [exponentValue, Option.getD_some,
          List.length_drop]
        omega
    · apply magnitude_eq
      · simp only [Option.getD_some, List.cons_append,
          List.nil_append]
        rw [← List.cons_append, ← List.replicate_succ,
          Decimal.ofDigits_append, Decimal.ofDigits_zeros, hDigits]
        omega
      · simp only [exponentValue, Option.getD_some,
          List.length_append, List.length_replicate]
        omega
  · rw [if_neg hPlain]
    split_ifs with hOne
    · apply magnitude_eq
      · rw [Option.getD_none, List.append_nil,
          List.take_of_length_le hOne.le]
        exact hDigits
      · rw [exponentValue_some rfl, Option.getD_none]
        simp only [List.length_nil]
        omega
    · apply magnitude_eq
      · rw [Option.getD_some, List.take_append_drop]
        exact hDigits
      · rw [exponentValue_some rfl, Option.getD_some,
          List.length_drop]
        omega

/- No numeral of a floating number is whole. -/
theorem whole?_ofScientific
    (negative : Bool)
    (s : Scientific) :
    (ofScientific negative s).whole? = none := by
  have hParts : (ofScientific negative s).isWhole = false := by
    unfold ofScientific isWhole
    simp only
    split_ifs <;> simp
  unfold whole?
  simp [hParts]

/- The numeral of a floating number denotes it. -/
theorem meaning_ofFloating
    {x : Floating}
    (hDouble : IsDouble x) :
    ∃ n, ofFloating? x = some n ∧ n.meaning = .float x := by
  cases x with
  | nan => cases hDouble
  | infinite negative => cases hDouble
  | finite negative m e =>
      refine ⟨_, rfl, ?_⟩
      have hNegative := ofScientific_negative negative
        (Floating.shortest .double .even m e)
      have hRound := Numeral.round_shortest .even hDouble
        (magnitude_ofScientific negative _)
      rw [meaning, whole?_ofScientific]
      simp only
      rw [hRound]
      exact congrArg (fun b => Json.float (.finite b m e)) hNegative

theorem meaning_ofInt
    {n : Int}
    (hLeast : Int64.minValue.toInt ≤ n)
    (hGreatest : n < UInt64.size) :
    (ofInt n).meaning = .integer n := by
  rw [meaning, whole?_ofInt hLeast hGreatest]

end Number

------------------------------------------------------------
-- Members in order
------------------------------------------------------------

/- A member whose name comes last is put at the end. -/
theorem insertMember_last
    {name : String}
    (value : Json)
    {members : List (String × Json)}
    (hLast : ∀ m ∈ members, m.1 < name) :
    insertMember name value members =
      members ++ [(name, value)] := by
  induction members with
  | nil => rfl
  | cons m r ih =>
      obtain ⟨hFirst, hRest⟩ := List.forall_mem_cons.mp hLast
      have hOther : name ≠ m.1 := by
        rintro rfl
        exact String.lt_irrefl _ hFirst
      rw [insertMember, if_neg hOther,
        if_neg (String.lt_asymm hFirst), ih hRest]
      rfl

/- Members in the order of their names stay as they are. -/
theorem ofMembers_sorted
    {members : List (String × Json)}
    (hSorted : (members.map (·.1)).Pairwise (· < ·)) :
    ofMembers members = .object members := by
  have hFold (l : List (String × Json))
      (h : ((l ++ members).map (·.1)).Pairwise (· < ·)) :
      members.foldl (fun acc m => insertMember m.1 m.2 acc) l =
        l ++ members := by
    clear hSorted
    induction members generalizing l with
    | nil => rw [List.append_nil]; rfl
    | cons m r ih =>
        have hLast : ∀ k ∈ l, k.1 < m.1 := by
          intro k hK
          rw [List.map_append, List.pairwise_append] at h
          exact h.2.2 k.1 (List.mem_map_of_mem hK) m.1 (.head _)
        have hAppend : l ++ m :: r = (l ++ [m]) ++ r := by
          rw [List.append_assoc]
          rfl
        rw [List.foldl_cons, insertMember_last m.2 hLast, hAppend]
        rw [hAppend] at h
        exact ih (l ++ [m]) h
  rw [ofMembers, hFold [] hSorted]
  rfl

------------------------------------------------------------
-- Documents
------------------------------------------------------------

namespace Document

mutual

/- The document of a value denotes it. -/
theorem meaning?_document :
    ∀ j : Json, j.IsSound → j.document.meaning? = some j
  | .null, _ => rfl
  | .bool _, _ => rfl
  | .integer _, h =>
      congrArg some (Number.meaning_ofInt h.1 h.2)
  | .float _, h => by
      obtain ⟨n, hNumber, hDenotes⟩ :=
        Number.meaning_ofFloating h
      rw [document, hNumber]
      exact congrArg some hDenotes
  | .string _, _ => rfl
  | .array items, h =>
      congrArg (Option.map Json.array)
        (itemMeanings?_documents items h)
  | .object members, h => by
      rw [document, meaning?,
        memberMeanings?_documents members h.2, Option.map_some,
        ofMembers_sorted h.1]

theorem itemMeanings?_documents :
    ∀ items : List Json, AreSound items →
      itemMeanings? (documents items) = some items
  | [], _ => rfl
  | v :: r, h => by
      rw [documents, itemMeanings?, meaning?_document v h.1,
        itemMeanings?_documents r h.2]
      rfl

theorem memberMeanings?_documents :
    ∀ members : List (String × Json), HaveSound members →
      memberMeanings? (memberDocuments members) = some members
  | [], _ => rfl
  | (n, v) :: r, h => by
      rw [memberDocuments, memberDocument, memberMeanings?,
        meaning?_document v h.1,
        memberMeanings?_documents r h.2]
      rfl

end

end Document

/- The text of a value denotes the value. -/
theorem meaning?_render
    {j : Json}
    (hSound : j.IsSound) : meaning? j.render = some j := by
  rw [meaning?, Document.ofText?_render, Option.bind_some,
    Document.meaning?_document j hSound]

end Json

end Failover
