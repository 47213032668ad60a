import Failover.Url.Percent

/-
  URLs of schemes that have no rules of their own: their
  parts, held as they are written.

  Key definitions include:
    * `Url.Authority`
    * `Url.Path`
    * `Url`
    * `Url.writeChars`, `Url.write`
    * `Url.withPassword`, `Url.withQuery`
-/

namespace Failover

namespace Url

/- Who and where; an empty host stands for none. -/
structure Authority where
  user : List Char
  password : Option (List Char)
  host : List Char
  portNumber : Option Nat
deriving DecidableEq, Repr

/-
  A path in segments, each with a slash in front, or any
  other text after the scheme.
-/
inductive Path where
  | opaqueText (text : List Char)
  | segments (parts : List (List Char))
deriving DecidableEq, Repr

end Url

structure Url where
  scheme : List Char
  authority : Option Url.Authority
  path : Url.Path
  query : Option (List Char)
  fragment : Option (List Char)
deriving DecidableEq, Repr

namespace Url

------------------------------------------------------------
-- Writing
------------------------------------------------------------

/- User and password end with an at sign. -/
def Authority.writeUser (a : Authority) : List Char :=
  match a.password with
  | some p => a.user ++ ':' :: (p ++ ['@'])
  | none => if a.user.isEmpty then [] else a.user ++ ['@']

def Authority.write (a : Authority) : List Char :=
  a.writeUser ++ a.host ++
    match a.portNumber with
    | some n => ':' :: Nat.toDigits 10 n
    | none => []

def writeSegments (parts : List (List Char)) : List Char :=
  parts.flatMap ('/' :: ·)

/- A part that may be missing, after its mark. -/
def writeOptional
    (mark : Char) : Option (List Char) → List Char
  | some cs => mark :: cs
  | none => []

/-
  A path that begins with an empty segment would read as an
  authority; where there is none, a dot goes in front of it.
-/
def writePath
    (hasAuthority : Bool) : Path → List Char
  | .opaqueText text => text
  | .segments parts =>
      match parts with
      | [] :: _ :: _ =>
          if hasAuthority then writeSegments parts
          else '/' :: '.' :: writeSegments parts
      | _ => writeSegments parts

def writeChars (u : Url) : List Char :=
  u.scheme ++ ':' ::
    ((match u.authority with
      | some a => '/' :: '/' :: a.write
      | none => []) ++
      writePath u.authority.isSome u.path ++
      writeOptional '?' u.query ++
      writeOptional '#' u.fragment)

/- The text of a URL. -/
def write (u : Url) : String :=
  String.ofList u.writeChars

------------------------------------------------------------
-- Changing parts
------------------------------------------------------------

/- The password, if there is one. -/
def password? (u : Url) : Option (List Char) :=
  u.authority.bind (·.password)

/- The URL with another password. -/
def withPassword
    (u : Url)
    (password : String) : Url :=
  { u with
    authority := u.authority.map fun a =>
      { a with
        password :=
          some (Percent.encode Percent.inUser
            password.toList) } }

/- The spaces at the end of a text are dropped. -/
def dropEndSpaces (cs : List Char) : List Char :=
  (cs.reverse.dropWhile (· == ' ')).reverse

/-
  The URL with another query.  Without query and fragment,
  spaces at the end of an opaque path are lost.
-/
def withQuery
    (u : Url)
    (query : Option (List Char)) : Url :=
  let path :=
    match query, u.fragment, u.path with
    | none, none, .opaqueText text =>
        Path.opaqueText (dropEndSpaces text)
    | _, _, path => path
  { u with query, path }

end Url

end Failover
