import Failover.Sql.Token

/-
  Replacing the references of SQL text by an engine's own
  placeholders.  A placeholder is rendered from its position
  among the arguments, counted from one, and the index of its
  parameter.

  Key definitions include:
    * `Sql.Substitution`
    * `Sql.Substitution.position`
    * `Sql.substituteTokens`
    * `Sql.substitute`
-/

namespace Failover

namespace Sql

/-
  How references are replaced: `index?` knows the parameter
  of a name, and numbered placeholders of one parameter share
  one argument.
-/
structure Substitution where
  numbered : Bool
  index? : String → Option Nat
  placeholder : Nat → Nat → String

/-
  A text with its placeholders, the parameter of each
  argument, and the number of references that were replaced.
-/
structure Substituted where
  sql : List Char
  order : List Nat
  references : Nat
deriving DecidableEq, Repr

/-
  The position of a reference to a parameter, and the order
  of the arguments with it.
-/
def Substitution.position
    (w : Substitution)
    (order : List Nat)
    (index : Nat) : Nat × List Nat :=
  match w.numbered, order.idxOf? index with
  | true, some i => (i + 1, order)
  | _, _ => (order.length + 1, order ++ [index])

/- The parameter of a token that is a known reference. -/
def Substitution.target?
    (w : Substitution) : Token → Option Nat
  | .reference name => w.index? (String.ofList name)
  | _ => none

/-
  Known references are replaced and all other tokens stay;
  `order` holds the arguments so far.
-/
def substituteTokens
    (w : Substitution)
    (order : List Nat) : List Token → Substituted
  | [] => ⟨[], order, 0⟩
  | t :: ts =>
      match w.target? t with
      | some index =>
          let (position, order) := w.position order index
          let rest := substituteTokens w order ts
          { rest with
            sql :=
              (w.placeholder position index).toList ++
                rest.sql
            references := rest.references + 1 }
      | none =>
          let rest := substituteTokens w order ts
          { rest with sql := t.chars ++ rest.sql }

/- A text with its references replaced. -/
def substitute
    (lex : Lexis)
    (w : Substitution)
    (sql : String) : Substituted :=
  substituteTokens w [] (tokens lex sql.toList)

end Sql

end Failover
