import Failover.Binding.Engine
import Failover.Proofs.Json.Meaning
import Failover.Proofs.Text.Hex
import Failover.Proofs.Value.Range

/-
  The native values that arguments are sent as.  The wire type
  of an argument is told by its declared type, also for NULL,
  which is sent as such; and the type that is inferred for a
  value takes every value but the great unsigned words, which
  only one engine has, and loses nothing of it.

  Key definitions include:
    * `Engine.wireOf`, `Engine.Exceeds`
    * `Value.IsSound`
    * `NativeArgument.Denotes`

  Main statements:
    * `Argument.wireName_native`
    * `Argument.native_plain_iff`
    * `Argument.native_plain_denotes`
    * `Argument.typed_by_declaration`
-/

namespace Failover

------------------------------------------------------------
-- Wire types
------------------------------------------------------------

namespace Engine

/- The wire type of a native type. -/
def wireOfTarget : Engine → Target → String
  | .postgres => postgresWire
  | .mysql => mySqlWire
  | .sqlite => sqliteWire

/- The wire type of a declared type. -/
def wireOf
    (e : Engine)
    (t : DeclaredType) : String :=
  e.wireOfTarget (e.argumentTarget ⟨.null, t⟩)

/- Of all engines only SQLite has a type of its own for NULL. -/
def wireWith
    (e : Engine)
    (t : DeclaredType)
    (null : Bool) : String :=
  if e = .sqlite ∧ null = true then "Null" else e.wireOf t

theorem wireName_eq
    (e : Engine)
    (a : NativeArgument) :
    e.wireName a =
      if e = .sqlite ∧ a.content.isNone = true then "Null"
      else e.wireOfTarget a.target := by
  cases e <;> simp [wireName, wireOfTarget]

/- Only the great words have two native types, of one wire type. -/
theorem wireOfTarget_argument
    (e : Engine)
    (v : Value)
    (t : DeclaredType) :
    e.wireOfTarget (e.argumentTarget ⟨v, t⟩) = e.wireOf t := by
  cases e with
  | postgres => cases t <;> rfl
  | sqlite => cases t <;> rfl
  | mysql =>
      cases t with
      | bigInt =>
          unfold argumentTarget
          simp only
          split
          · split_ifs <;> rfl
          · rfl
      | _ => rfl

end Engine

namespace Argument

variable {e : Engine} {v : Value} {t : DeclaredType}
  {a : NativeArgument}

/- What is sent has the native type and is NULL only for NULL. -/
theorem native_ok
    (hSent : native e ⟨v, t⟩ = .ok a) :
    a.target = e.argumentTarget ⟨v, t⟩ ∧
      a.content.isNone = v.isNull := by
  unfold native Target.convert at hSent
  simp only at hSent
  cases hNull : v.isNull with
  | true =>
      rw [hNull] at hSent
      cases hSent
      exact ⟨rfl, rfl⟩
  | false =>
      rw [hNull] at hSent
      simp only [Bool.false_eq_true, if_false,
        Target.ofPresent] at hSent
      cases hPresent :
          (e.argumentTarget ⟨v, t⟩).ofPresent v with
      | error cause =>
          rw [hPresent] at hSent
          cases hSent
      | ok x =>
          rw [hPresent] at hSent
          cases hSent
          exact ⟨rfl, rfl⟩

theorem wireName_native
    (hSent : native e ⟨v, t⟩ = .ok a) :
    e.wireName a = e.wireWith t v.isNull := by
  obtain ⟨hTarget, hContent⟩ := native_ok hSent
  rw [Engine.wireName_eq, hContent, hTarget,
    Engine.wireOfTarget_argument, Engine.wireWith]

theorem native_null
    (e : Engine)
    (t : DeclaredType) :
    native e ⟨.null, t⟩ =
      .ok ⟨e.argumentTarget ⟨.null, t⟩, none⟩ := rfl

end Argument

------------------------------------------------------------
-- Meanings
------------------------------------------------------------

namespace Value

/- The JSON of a value is of the kind that JSON texts denote. -/
def IsSound : Value → Prop
  | .json j => j.IsSound
  | _ => True

/- The whole number of a signed or an unsigned word. -/
def word? : Value → Option Int
  | .int n => some n.toInt
  | .uint n => some n.toNat
  | _ => none

/- One value, or one whole number in words of either kind. -/
inductive SameAs : Value → Value → Prop where
  | refl (v : Value) : SameAs v v
  | word
      {v w : Value}
      {n : Int}
      (hLeft : v.word? = some n)
      (hRight : w.word? = some n) : SameAs v w

/- A text that denotes a value of a type that is sent as text. -/
inductive IsSpelled : Value → String → Prop where
  | decimal (s : String) : IsSpelled (.decimal s) s
  | uuid
      {u : Uuid}
      {s : String}
      (hRead : Uuid.ofText? s = some u) :
      IsSpelled (.uuid u) s
  | json
      {j : Json}
      {s : String}
      (hRead : Json.meaning? s = some j) :
      IsSpelled (.json j) s

end Value

/-
  A native argument denotes a value: NULL is NULL, a native
  value is one when it is carried back, and a text is one when
  it is read.
-/
inductive NativeArgument.Denotes :
    NativeArgument → Value → Prop where
  | null (t : Target) : Denotes ⟨t, none⟩ .null
  | native
      {t : Target}
      {x : t.Carrier}
      {v : Value}
      (hSame : (t.toValue x).SameAs v) :
      Denotes ⟨t, some x⟩ v
  | spelled
      {s : String}
      {v : Value}
      (hSpelled : v.IsSpelled s) :
      Denotes ⟨.text, some s⟩ v

------------------------------------------------------------
-- Inferred types
------------------------------------------------------------

/- A great unsigned word, at an engine that has none. -/
def Engine.Exceeds
    (e : Engine)
    (v : Value) : Prop :=
  e ≠ .mysql ∧
    ∃ n : UInt64, v = .uint n ∧ Int64.maxValue.toInt < n.toNat

namespace Argument

variable {e : Engine} {v : Value} {a : NativeArgument}

/- The argument whose type is inferred from its value. -/
def plain (v : Value) : Argument :=
  ⟨v, .infer v⟩

/- A word is sent exactly in the types that hold its number. -/
theorem native_word
    {w : IntegerType}
    {n : Int}
    (hTarget : e.argumentTarget (plain v) = .integer w)
    (hWord : v.word? = some n) :
    (w.Holds n → ∃ a, native e (plain v) = .ok a ∧
      a.Denotes v) ∧
    (¬ w.Holds n → ∃ cause, native e (plain v) = .error cause) := by
  have hDenotes : v.Denotes n ∧ v.isNull = false := by
    cases v with
    | int k =>
        cases hWord
        exact ⟨.int k, rfl⟩
    | uint k =>
        cases hWord
        exact ⟨.uint k, rfl⟩
    | _ => cases hWord
  obtain ⟨hConverts, hRefused⟩ := hDenotes.1.convert w
  have hNative : native e (plain v) =
      ((Target.integer w).convert v).map fun x =>
        ⟨.integer w, some x⟩ := by
    unfold native Target.convert
    rw [hTarget, plain, hDenotes.2]
    simp only [Bool.false_eq_true, if_false, Target.ofPresent]
    cases v.integer w <;> rfl
  rw [hNative]
  constructor
  · intro hHolds
    rw [hConverts hHolds]
    refine ⟨_, rfl, .native (.word ?_ hWord)⟩
    change (w.toValue n).word? = some n
    rcases IntegerType.toValue_cases hHolds with
      ⟨k, hValue, rfl⟩ | ⟨k, hValue, rfl⟩
    · rw [hValue]
      rfl
    · rw [hValue]
      rfl
  · intro hNot
    obtain ⟨k, -, hError⟩ := hRefused hNot
    rw [hError]
    exact ⟨_, rfl⟩

/- The native type of an unsigned word. -/
theorem argumentTarget_uint
    (e : Engine)
    (n : UInt64) :
    e.argumentTarget (plain (.uint n)) =
      if e = .mysql ∧ Int64.maxValue.toInt < n.toNat then
        .integer .word64
      else .integer .int64 := by
  have hHalf : ((Int64.size / 2 : Nat) : Int) =
      Int64.maxValue.toInt + 1 := by
    decide
  cases e with
  | postgres => rfl
  | sqlite => rfl
  | mysql =>
      have hTarget : Engine.argumentTarget .mysql
          (plain (.uint n)) =
            if n.toNat < Int64.size / 2 then .integer .int64
            else .integer .word64 := rfl
      rw [hTarget]
      by_cases hSmall : n.toNat < Int64.size / 2
      · rw [if_pos hSmall, if_neg (by omega)]
      · rw [if_neg hSmall, if_pos ⟨rfl, by omega⟩]

/- An unsigned word is sent unless its engine has none so great. -/
theorem native_uint
    (e : Engine)
    (n : UInt64) :
    (¬ e.Exceeds (.uint n) → ∃ a,
      native e (plain (.uint n)) = .ok a ∧ a.Denotes (.uint n)) ∧
    (e.Exceeds (.uint n) →
      ∃ cause, native e (plain (.uint n)) = .error cause) := by
  have hLeast : Int64.minValue.toInt ≤ 0 := by decide
  have hTarget := argumentTarget_uint e n
  constructor
  · intro hFits
    by_cases hGreat : Int64.maxValue.toInt < n.toNat
    · have hEngine : e = .mysql := by
        by_contra hOther
        exact hFits ⟨hOther, n, rfl, hGreat⟩
      rw [if_pos ⟨hEngine, hGreat⟩] at hTarget
      apply (native_word hTarget rfl).1
      have hWord : n.toNat < UInt64.size := n.toNat_lt
      exact ⟨Int.natCast_nonneg _, by
        change (n.toNat : Int) ≤ UInt64.size - 1
        omega⟩
    · rw [if_neg fun h => hGreat h.2] at hTarget
      apply (native_word hTarget rfl).1
      exact ⟨hLeast.trans (Int.natCast_nonneg _),
        not_lt.mp hGreat⟩
  · rintro ⟨hOther, k, hSame, hGreat⟩
    cases hSame
    rw [if_neg fun h => hOther h.1] at hTarget
    apply (native_word hTarget rfl).2
    exact fun hHolds => absurd hHolds.2 (not_le.mpr hGreat)

/- Every value but an unsigned word is sent, and is kept. -/
theorem native_other
    (e : Engine)
    (hOther : ∀ n, v ≠ .uint n) :
    ∃ a, native e (plain v) = .ok a ∧
      (v.IsSound → a.Denotes v) := by
  cases v with
  | null => exact ⟨_, rfl, fun _ => .null _⟩
  | bool b => exact ⟨_, rfl, fun _ => .native (.refl _)⟩
  | int n =>
      have hTarget : e.argumentTarget (plain (.int n)) =
          .integer .int64 := by cases e <;> rfl
      obtain ⟨a, hSent, hDenotes⟩ := (native_word hTarget rfl).1
        ⟨Int64.minValue_le_toInt n, Int64.toInt_le n⟩
      exact ⟨a, hSent, fun _ => hDenotes⟩
  | uint n => exact absurd rfl (hOther n)
  | float x => exact ⟨_, rfl, fun _ => .native (.refl _)⟩
  | decimal s => exact ⟨_, rfl, fun _ => .spelled (.decimal s)⟩
  | text s => exact ⟨_, rfl, fun _ => .native (.refl _)⟩
  | bytes bs => exact ⟨_, rfl, fun _ => .native (.refl _)⟩
  | json j =>
      cases e with
      | postgres => exact ⟨_, rfl, fun _ => .native (.refl _)⟩
      | _ =>
          exact ⟨_, rfl, fun hSound =>
            .spelled (.json (Json.meaning?_render hSound))⟩
  | uuid u =>
      cases e with
      | postgres => exact ⟨_, rfl, fun _ => .native (.refl _)⟩
      | _ =>
          exact ⟨_, rfl, fun _ =>
            .spelled (.uuid u.ofText?_write)⟩
  | date t => exact ⟨_, rfl, fun _ => .native (.refl _)⟩
  | time t => exact ⟨_, rfl, fun _ => .native (.refl _)⟩
  | timestamp t => exact ⟨_, rfl, fun _ => .native (.refl _)⟩
  | moment t => exact ⟨_, rfl, fun _ => .native (.refl _)⟩

/- The type inferred for a value takes it, with one exception. -/
theorem native_plain_iff
    (e : Engine)
    (v : Value) :
    (∃ a, native e (plain v) = .ok a) ↔ ¬ e.Exceeds v := by
  by_cases hWord : ∃ n, v = .uint n
  · obtain ⟨n, rfl⟩ := hWord
    obtain ⟨hSent, hRefused⟩ := native_uint e n
    constructor
    · rintro ⟨a, hA⟩ hExceeds
      obtain ⟨cause, hCause⟩ := hRefused hExceeds
      rw [hA] at hCause
      cases hCause
    · intro hFits
      obtain ⟨a, hA, -⟩ := hSent hFits
      exact ⟨a, hA⟩
  · have hOther : ∀ n, v ≠ .uint n := fun n h => hWord ⟨n, h⟩
    obtain ⟨a, hA, -⟩ := native_other e hOther
    constructor
    · rintro - ⟨-, n, hSame, -⟩
      exact hOther n hSame
    · exact fun _ => ⟨a, hA⟩

/-
  A value that is sent as the type inferred for it denotes
  this value.
-/
theorem native_plain_denotes
    {e : Engine}
    {v : Value}
    {a : NativeArgument}
    (hSound : v.IsSound)
    (hSent : native e (plain v) = .ok a) : a.Denotes v := by
  have hFits := (native_plain_iff e v).mp ⟨a, hSent⟩
  have hDenotes : ∃ b, native e (plain v) = .ok b ∧
      b.Denotes v := by
    by_cases hWord : ∃ n, v = .uint n
    · obtain ⟨n, rfl⟩ := hWord
      exact (native_uint e n).1 hFits
    · obtain ⟨b, hB, hKept⟩ :=
        native_other e fun n h => hWord ⟨n, h⟩
      exact ⟨b, hB, hKept hSound⟩
  obtain ⟨b, hB, hKept⟩ := hDenotes
  rw [hSent] at hB
  cases hB
  exact hKept

------------------------------------------------------------
-- Arguments by declaration
------------------------------------------------------------

/-
  Whatever its value is, an argument is sent as the wire type
  of its declared type or not at all, and NULL is always sent,
  as such.  A value is sent as its inferred type without loss,
  except that two engines have no great unsigned words.
-/
theorem typed_by_declaration (e : Engine) :
    (∀ v t a, native e ⟨v, t⟩ = .ok a →
      e.wireName a = e.wireWith t v.isNull) ∧
    (∀ t, ∃ a, native e ⟨.null, t⟩ = .ok a ∧
      a.content = none ∧ e.wireName a = e.wireWith t true) ∧
    (∀ v, (∃ a, native e (plain v) = .ok a) ↔ ¬ e.Exceeds v) ∧
    (∀ v a, v.IsSound → native e (plain v) = .ok a →
      a.Denotes v) := by
  refine ⟨fun v t a => wireName_native, fun t => ?_,
    native_plain_iff e, fun v a => native_plain_denotes⟩
  exact ⟨_, native_null e t, rfl, wireName_native (native_null e t)⟩

/- An object with a tenth and the greatest word, as text. -/
theorem tenth_is_sent_as_text :
    let v : Value := .json (.object
      [("great", .integer 18446744073709551615),
        ("parts", .array
          [.float (.finite false 7205759403792794 (-56)),
            .null])])
    v.IsSound ∧
    ∃ a, native .mysql (plain v) = .ok a ∧
      Engine.wireName .mysql a = "VarString" ∧ a.Denotes v := by
  intro v
  have hTenth : Floating.Format.double.IsForm
      7205759403792794 (-56) :=
    ⟨by decide, by decide, by decide, .inl (by decide)⟩
  have hSound : v.IsSound :=
    ⟨by decide, ⟨by decide, by decide⟩, ⟨hTenth, trivial, trivial⟩,
      trivial⟩
  obtain ⟨hWire, -, -, hDenotes⟩ := typed_by_declaration .mysql
  have hSent : native .mysql (plain v) =
      .ok ⟨.text, some v.toText⟩ := rfl
  exact ⟨hSound, _, hSent, hWire v .json _ hSent,
    hDenotes v _ hSound hSent⟩

end Argument

end Failover
