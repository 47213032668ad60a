import Failover.World.Backend

/-
  Backends whose replies are listed.  Each call takes the
  next entry of its list and the last entry counts on.

  Key definitions include:
    * `Script`, `Script.Line`
    * `Script.numbered?`
    * `Script.backend`
-/

namespace Failover

namespace Script

/- What a statement is answered with. -/
inductive Answer where
  | reply (r : Reply)
  | echo
  | death

/- An answer with its delay in milliseconds. -/
structure Line where
  delay : Nat := 0
  answer : Answer := .reply (.ok Backend.oneRow)

end Script

/- Entries without a failure succeed. -/
structure Script where
  refusals : Call → List (Option Failure)
  fetches : List Script.Line

namespace Script

/- The entry of a call's number. -/
def numbered?
    {α : Type}
    (xs : List α)
    (n : Nat) : Option α :=
  xs[n]? <|> xs.getLast?

/- The arguments of a statement come back as a row. -/
def echo (s : Statement) : Outcome :=
  let columns := (List.range s.arguments.length).map
    fun (i : Nat) =>
      (⟨"a" ++ Decimal.render i, "ANY"⟩ : Column)
  ⟨[⟨columns, [s.arguments.map (·.value)], none⟩],
    UInt64.ofNat s.arguments.length, .empty⟩

def Answer.reply? (s : Statement) : Answer → Option Reply
  | .reply r => some r
  | .echo => some (.ok (Script.echo s))
  | .death => none

def backend (s : Script) : Backend where
  refusal := fun call n => (numbered? (s.refusals call) n).join
  fetch := fun n statement =>
    let line := (numbered? s.fetches n).getD {}
    ⟨line.delay, line.answer.reply? statement⟩

end Script

end Failover
