import Failover.Text.Blank
import Failover.Text.Split
import Failover.Url.Address
import Failover.Url.Basic

/-
  Reading URLs of schemes that have no rules of their own.
  The text is cut at its marks: the scheme ends at a colon,
  the authority at a slash, the path at a question mark, the
  query at a number sign.

  Key definitions include:
    * `Url.ParseError`, `Url.ParseError.message`
    * `Url.readHost`, `Url.readPortNumber`, `Url.readAuthority`
    * `Url.normalise`
    * `Url.ofText`
-/

namespace Failover

namespace Url

/- Why a text is no URL. -/
inductive ParseError where
  | noScheme
  | emptyHost
  | invalidPortNumber
  | invalidAddress
  | invalidHostCharacter
deriving DecidableEq, Repr

def ParseError.message : ParseError → String
  | .noScheme => "relative URL without a base"
  | .emptyHost => "empty host"
  | .invalidPortNumber => "invalid port number"
  | .invalidAddress => "invalid IPv6 address"
  | .invalidHostCharacter => "invalid domain character"

------------------------------------------------------------
-- Scheme
------------------------------------------------------------

/- Controls and spaces around a text do not belong to it. -/
def isEdge (c : Char) : Bool :=
  c.toNat ≤ 0x20

/- Tabs and line ends are left out wherever they stand. -/
def isIgnored (c : Char) : Bool :=
  c == '\t' || c == '\n' || c == '\r'

def clean (cs : List Char) : List Char :=
  (Text.trimBoth isEdge cs).filter fun c => !isIgnored c

def isSchemeChar (c : Char) : Bool :=
  Text.isLetter c || Text.isDigit c || c == '+' ||
    c == '-' || c == '.'

/- A scheme begins with a letter and ends at a colon. -/
def scheme?
    (cs : List Char) : Option (List Char × List Char) :=
  match cs with
  | [] => none
  | c :: _ =>
      if !Text.isLetter c then none
      else
        match cs.dropWhile isSchemeChar with
        | ':' :: r =>
            some ((cs.takeWhile isSchemeChar).map
              Text.foldChar, r)
        | _ => none

------------------------------------------------------------
-- Authority
------------------------------------------------------------

/- The marks at which an authority ends. -/
def endsAuthority (c : Char) : Bool :=
  c == '/' || c == '?' || c == '#'

/- The characters that no host holds. -/
def isForbiddenHost (c : Char) : Bool :=
  ['\x00', '\t', '\n', '\r', ' ', '#', '/', ':', '<', '>',
    '?', '@', '[', '\\', ']', '^', '|'].contains c

/- A text cut before its first colon outside of brackets. -/
def cutHost
    (inside : Bool) :
    List Char → List Char × List Char
  | [] => ([], [])
  | c :: r =>
      if c = ':' ∧ inside = false then ([], c :: r)
      else
        let inside :=
          if c = '[' then true
          else if c = ']' then false
          else inside
        let (a, b) := cutHost inside r
        (c :: a, b)

/- The written form of a host; brackets hold an address. -/
def readHost
    (cs : List Char) : Except ParseError (List Char) :=
  match cs with
  | '[' :: r =>
      if r.getLast? = some ']' then
        match Address.ofChars? r.dropLast with
        | some a => .ok ('[' :: (a.write ++ [']']))
        | none => .error .invalidAddress
      else .error .invalidAddress
  | _ =>
      if cs.any isForbiddenHost then
        .error .invalidHostCharacter
      else .ok (Percent.encode Percent.isControl cs)

/-
  The number after a host and its colon, and what follows it:
  nothing, or a backslash that begins the path.
-/
def readPortNumber
    (cs : List Char) :
    Except ParseError (Option Nat × List Char) :=
  let digits := cs.takeWhile Text.isDigit
  let n := Decimal.ofDigits digits
  let number := if digits.isEmpty then none else some n
  if 65535 < n then .error .invalidPortNumber
  else
    match cs.dropWhile Text.isDigit with
    | [] => .ok (number, [])
    | '\\' :: r => .ok (number, '\\' :: r)
    | _ => .error .invalidPortNumber

/- The user and the password before the last at sign. -/
def readUser
    (cs : List Char) : List Char × Option (List Char) :=
  let encode := Percent.encode Percent.inUser
  match Text.splitAtFirst? ':' cs with
  | none => (encode cs, none)
  | some (user, []) => (encode user, none)
  | some (user, password) =>
      (encode user, some (encode password))

/- A text cut at its last at sign, if it has one. -/
def cutUser
    (cs : List Char) : Option (List Char) × List Char :=
  let host := cs.reverse.takeWhile (· != '@')
  match cs.reverse.dropWhile (· != '@') with
  | [] => (none, cs)
  | _ :: user => (some user.reverse, host.reverse)

/-
  The authority of a text that has no end mark in it, and
  what it leaves to the path.  User and password need a host,
  and so does a number after it.
-/
def readAuthority
    (cs : List Char)
    (more : Bool) :
    Except ParseError (Authority × List Char) := do
  let (user?, hostPort) := cutUser cs
  if user? = some [] ∧ hostPort = [] ∧ more then
    throw .emptyHost
  let (user, password) := readUser (user?.getD [])
  let (hostText, r) := cutHost false hostPort
  let host ← readHost hostText
  if host.isEmpty && !r.isEmpty then throw .emptyHost
  let (number, r) ←
    match r with
    | [] => pure (none, [])
    | _ :: r => readPortNumber r
  if host.isEmpty && (!user.isEmpty || password.isSome) then
    throw .emptyHost
  return (⟨user, password, host, number⟩, r)

------------------------------------------------------------
-- Path
------------------------------------------------------------

/- The ways to write one dot. -/
def isDot (cs : List Char) : Bool :=
  cs == ['.'] ||
    cs.map Text.foldChar == ['%', '2', 'e']

/- The ways to write two dots. -/
def isDoubleDot (cs : List Char) : Bool :=
  match cs with
  | '.' :: r => isDot r
  | a :: b :: c :: r => isDot [a, b, c] && isDot r
  | _ => false

/- A drive letter is not left by two dots. -/
def isDrive : List Char → Bool
  | a :: b :: r =>
      Text.isLetter a && (b == ':' || b == '|') &&
        (r.isEmpty || r.head? == some '\\')
  | _ => false

/- The segments above the last one. -/
def parent
    (done : List (List Char)) : List (List Char) :=
  match done.getLast? with
  | some s => if isDrive s then done else done.dropLast
  | none => []

/-
  The segments of a path: one dot stays where it is, two go
  up, and all others go down; `done` holds those so far.
-/
def normalise
    (done : List (List Char)) :
    List (List Char) → List (List Char)
  | [] => done
  | [s] =>
      if isDoubleDot s then parent done ++ [[]]
      else if isDot s then done ++ [[]]
      else done ++ [Percent.encode Percent.inPath s]
  | s :: r =>
      if isDoubleDot s then normalise (parent done) r
      else if isDot s then normalise done r
      else
        normalise
          (done ++ [Percent.encode Percent.inPath s]) r

/- The segments of a path after its first slash. -/
def readSegments (cs : List Char) : Path :=
  .segments (normalise [] (Text.splitOn '/' cs))

/- The path after an authority. -/
def readRooted : List Char → Path
  | [] => .segments []
  | '/' :: r => readSegments r
  | cs => readSegments cs

------------------------------------------------------------
-- Whole texts
------------------------------------------------------------

/- A text cut at a mark, without the mark. -/
def cutAt
    (mark : Char)
    (cs : List Char) : List Char × Option (List Char) :=
  match Text.splitAtFirst? mark cs with
  | some (a, b) => (a, some b)
  | none => (cs, none)

/- The URL of a scheme and the text after it. -/
def readAfterScheme
    (scheme cs : List Char) : Except ParseError Url := do
  let (cs, fragment) := cutAt '#' cs
  let (cs, query) := cutAt '?' cs
  let fragment :=
    fragment.map (Percent.encode Percent.inFragment)
  let encodedQuery :=
    query.map (Percent.encode Percent.inQuery)
  match cs with
  | '/' :: '/' :: r =>
      let text := r.takeWhile fun c => !endsAuthority c
      let rest := r.dropWhile fun c => !endsAuthority c
      let more :=
        !rest.isEmpty || query.isSome || fragment.isSome
      let (authority, left) ← readAuthority text more
      return ⟨scheme, some authority,
        readRooted (left ++ rest), encodedQuery, fragment⟩
  | '/' :: r =>
      return ⟨scheme, none, readSegments r, encodedQuery,
        fragment⟩
  | _ =>
      return ⟨scheme, none,
        .opaqueText (Percent.encode Percent.isControl cs),
        encodedQuery, fragment⟩

/- The URL of a text. -/
def ofText (s : String) : Except ParseError Url :=
  match scheme? (clean s.toList) with
  | none => .error .noScheme
  | some (scheme, r) => readAfterScheme scheme r

/-
  A connection string whose password, if it has one, is
  hidden behind asterisks.
-/
def maskPassword (s : String) : String :=
  match ofText s with
  | .ok u =>
      if u.password?.isSome then
        (u.withPassword "****").write
      else s
  | .error _ => s

end Url

end Failover
