import Failover.Number.Numeral

/-
  JSON values.  A number is either whole or a floating one,
  and the members of an object are kept in the order of their
  names, by code points.

  Key definitions include:
    * `Json`
    * `Json.insertMember`
    * `Json.ofMembers`
-/

namespace Failover

inductive Json where
  | null
  | bool (b : Bool)
  | integer (n : Int)
  | float (x : Floating)
  | string (s : String)
  | array (items : List Json)
  | object (members : List (String × Json))
deriving Repr, Inhabited

namespace Json

/-
  A member goes to its place by name and replaces one of the
  same name.
-/
def insertMember
    (name : String)
    (value : Json) :
    List (String × Json) → List (String × Json)
  | [] => [(name, value)]
  | (n, v) :: r =>
      if name = n then (name, value) :: r
      else if name < n then (name, value) :: (n, v) :: r
      else (n, v) :: insertMember name value r

/- The object of some members; of one name the last counts. -/
def ofMembers
    (members : List (String × Json)) : Json :=
  .object <|
    members.foldl (fun acc m => insertMember m.1 m.2 acc) []

end Json

end Failover
