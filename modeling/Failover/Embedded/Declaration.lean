import Failover.Text.Fold

/-
  Declarations of columns: names, and one or two numbers in
  brackets behind them.

  Key definitions include:
    * `Declaration.Token`
    * `Declaration.tokens`
    * `Declaration.Error`, `Declaration.Error.message`
    * `Declaration.check`
-/

namespace Failover

namespace Declaration

------------------------------------------------------------
-- Tokens
------------------------------------------------------------

inductive Token where
  | name (text : List Char)
  | number (text : List Char)
  | mark (c : Char)
deriving DecidableEq, Repr

def Token.text : Token → List Char
  | .name text => text
  | .number text => text
  | .mark c => [c]

/- The characters that stand between tokens. -/
def isSpace (c : Char) : Bool :=
  [' ', '\t', '\n', '\x0c', '\r'].contains c

/- The characters of names; all outside of ASCII are. -/
def isNameChar (c : Char) : Bool :=
  Text.isWordChar c || c == '$' || 0x7f < c.toNat

def isNumberChar (c : Char) : Bool :=
  Text.isDigit c || c == '.'

/- The tokens of a text of at most a given length. -/
def tokensOf : Nat → List Char → List Token
  | 0, _ => []
  | _, [] => []
  | n + 1, c :: r =>
      if isSpace c then tokensOf n r
      else if Text.isDigit c then
        .number (c :: r.takeWhile isNumberChar) ::
          tokensOf n (r.dropWhile isNumberChar)
      else if isNameChar c then
        .name (c :: r.takeWhile isNameChar) ::
          tokensOf n (r.dropWhile isNameChar)
      else .mark c :: tokensOf n r

def tokens (cs : List Char) : List Token :=
  tokensOf cs.length cs

------------------------------------------------------------
-- Grammar
------------------------------------------------------------

/- Why a text is no declaration. -/
inductive Error where
  | unexpected (t : Token)
  | incomplete
deriving DecidableEq, Repr

def Error.message : Error → String
  | .unexpected t =>
      "near \"" ++ String.ofList t.text ++ "\": syntax error"
  | .incomplete => "incomplete input"

/- The first token is not the one that has to come. -/
def refuse : List Token → Except Error Unit
  | [] => .error .incomplete
  | t :: _ => .error (.unexpected t)

/- The bracket that closes the list of columns comes last. -/
def checkEnd : List Token → Except Error Unit
  | [.mark ')'] => .ok ()
  | .mark ')' :: r => refuse r
  | r => refuse r

/- A number with an optional sign, and what follows it. -/
def takeNumber
    (ts : List Token) : Except Error (List Token) :=
  let unsigned :=
    match ts with
    | .mark '+' :: r => r
    | .mark '-' :: r => r
    | r => r
  match unsigned with
  | .number _ :: r => .ok r
  | r => (refuse r).map fun _ => []

/- One or two numbers after the opening bracket. -/
def checkSize (ts : List Token) : Except Error Unit := do
  match ← takeNumber ts with
  | .mark ')' :: r => checkEnd r
  | .mark ',' :: r =>
      match ← takeNumber r with
      | .mark ')' :: r => checkEnd r
      | r => refuse r
  | r => refuse r

/- Names, then a size if there was one at least. -/
def checkNames
    (hasName : Bool) : List Token → Except Error Unit
  | .name _ :: r => checkNames true r
  | .mark '(' :: r =>
      if hasName then checkSize r
      else .error (.unexpected (.mark '('))
  | r => checkEnd r

/- The declaration stands last in the list of columns. -/
def check (s : String) : Except Error Unit :=
  checkNames false (tokens (s.toList ++ [')']))

example : check "DECIMAL(10, 2)" = .ok () := by
  rfl

example :
    check "INT((" = .error (.unexpected (.mark '(')) := by
  rfl

end Declaration

end Failover
