import Failover.Outcome.Progress

/-
  What engines do when they are called: the replies of one
  repository's engine, by the number of the call.

  Key definitions include:
    * `Call`
    * `Response`
    * `Backend`
    * `Backend.willing`
-/

namespace Failover

/- The kinds of calls, each counted on its own. -/
inductive Call where
  | bind
  | opening
  | begin
  | commit
  | rollback
  | close
  | fetch
deriving DecidableEq, Repr, Inhabited

def Call.name : Call → String
  | .bind => "bind"
  | .opening => "open"
  | .begin => "begin"
  | .commit => "commit"
  | .rollback => "rollback"
  | .close => "close"
  | .fetch => "fetch"

/-
  An answer to a statement, some milliseconds later.  Without
  a reply the work on the connection comes to its death.
-/
structure Response where
  delay : Nat
  reply : Option Reply

/-
  Calls of each kind are numbered from zero.  Those that are
  no statements succeed or fail at once.
-/
structure Backend where
  refusal : Call → Nat → Option Failure
  fetch : Nat → Statement → Response

namespace Backend

/- One row with the number one. -/
def oneRow : Outcome :=
  ⟨[⟨[⟨"value", "BIGINT"⟩], [[.int 1]], none⟩], 1, .empty⟩

/- Nothing fails, and every statement has one row. -/
def willing : Backend where
  refusal := fun _ _ => none
  fetch := fun _ _ => ⟨0, some (.ok oneRow)⟩

end Backend

end Failover
