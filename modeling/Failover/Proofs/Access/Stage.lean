import Failover.Proofs.Outcome.Failures
import Failover.Proofs.Scene.Exchange

/-
  Where a bound command is, by what was sent for it so far.
  Its failures are errors of the driver, or arguments that
  could not be bound.

  Key definitions include:
    * `Stage`
    * `BoundCommand.Awaits`, `BoundCommand.Ends`
    * `Unsent`, `SentMain`

  Main statements:
    * `Stage.more`
    * `BoundCommand.Ends.explained`
    * `Unsent.not_sentMain`
-/

namespace Failover

open Progress (whole failures)

------------------------------------------------------------
-- The main statement
------------------------------------------------------------

/- A statement that had no failure at all. -/
def Exchange.IsWhole (x : Exchange) : Prop :=
  ∃ reply o, x.reply = some reply ∧ whole reply = .ok o

/- The arguments of a statement could not be bound. -/
def Exchange.IsUnbound (x : Exchange) : Prop :=
  ∃ repository message,
    x.reply = some (.error (.commandBinding repository message))

/-
  The main statement was sent after all of the setup, which
  went well.
-/
def SentMain
    (b : BoundCommand)
    (xs : List Exchange) : Prop :=
  ∃ done x rest, xs = done ++ x :: rest ∧
    done.map (·.statement) = b.setup ∧
    (∀ y ∈ done, y.IsWhole) ∧
    x.statement = b.main ∧ ¬ x.IsUnbound

/- A statement was not sent, the main one or one before it. -/
def Unsent
    (b : BoundCommand)
    (xs : List Exchange) : Prop :=
  ∃ done x rest, xs = done ++ x :: rest ∧
    done.length ≤ b.setup.length ∧ x.IsUnbound

theorem Unsent.later
    {b : BoundCommand}
    {xs ys : List Exchange}
    (h : Unsent b xs)
    (hPrefix : xs <+: ys) : Unsent b ys := by
  rcases h with ⟨done, x, rest, rfl, hLength, hUnbound⟩
  rcases hPrefix with ⟨more, rfl⟩
  refine ⟨done, x, rest ++ more, ?_, hLength, hUnbound⟩
  simp

theorem Exchange.IsWhole.not_unbound
    {x : Exchange}
    (h : x.IsWhole) : ¬ x.IsUnbound := by
  rintro ⟨repository, message, hReply⟩
  rcases h with ⟨reply, o, hSome, hWhole⟩
  cases hReply.symm.trans hSome
  cases hWhole

theorem Unsent.not_sentMain
    {b : BoundCommand}
    {xs : List Exchange}
    (h : Unsent b xs) : ¬ SentMain b xs := by
  rintro ⟨done, x, rest, rfl, hSetup, hWhole, -, hBound⟩
  rcases h with ⟨done', x', rest', hSame, hLength, hUnbound⟩
  have hDone : done.length = b.setup.length := by
    rw [← hSetup, List.length_map]
  have hThis : (done ++ x :: rest)[done'.length]? = some x' := by
    rw [hSame]
    simp
  rcases Nat.lt_or_eq_of_le hLength with hLess | hEq
  · rw [← hDone] at hLess
    rw [List.getElem?_append_left hLess] at hThis
    exact (hWhole x' (List.mem_of_getElem? hThis)).not_unbound
      hUnbound
  · rw [← hDone] at hEq
    rw [hEq] at hThis
    simp only [Nat.le_refl, List.getElem?_append_right,
      Nat.sub_self, List.getElem?_cons_zero] at hThis
    cases hThis
    exact hBound hUnbound

------------------------------------------------------------
-- Stages
------------------------------------------------------------

/-
  The exchanges before a statement of a command, which is the
  one to send next.
-/
inductive Stage
    (b : BoundCommand) : Progress → List Exchange → Prop where
  | setup
      {done : List Exchange}
      {s : Statement}
      {rest : List Statement}
      (hSetup : b.setup = done.map (·.statement) ++ s :: rest)
      (hDone : ∀ y ∈ done, y.IsWhole) :
      Stage b (.setup s rest b) done
  | main
      {done : List Exchange}
      (hSetup : b.setup = done.map (·.statement))
      (hDone : ∀ y ∈ done, y.IsWhole) :
      Stage b (.main b) done
  | readback
      {done : List Exchange}
      {s : Statement}
      {parameters : List String}
      {o : Outcome}
      (hOutputs : b.outputs = .readback s parameters)
      (hSetup : b.setup = done.map (·.statement)) :
      Stage b (.readback s parameters o)
        (done ++ [⟨b.main, some (.ok o)⟩])

variable {repository : String} {b : BoundCommand}
variable {p q : Progress}
variable {done xs : List Exchange}

/-
  The next statement is the first one of the setup that is
  left, or the main one.
-/
theorem Stage.ofSetup
    {rest : List Statement}
    (hSetup : b.setup = done.map (·.statement) ++ rest)
    (hDone : ∀ y ∈ done, y.IsWhole) :
    Stage b (.ofSetup b rest) done := by
  cases rest with
  | nil =>
      rw [List.append_nil] at hSetup
      exact .main hSetup hDone
  | cons s rest => exact .setup hSetup hDone

theorem Stage.start (b : BoundCommand) : Stage b (.start b) [] :=
  .ofSetup rfl nofun

/- A command goes on to its next statement. -/
theorem Stage.more
    {reply : Reply}
    (h : Stage b p done)
    (hMore : p.receive reply = .more q) :
    Stage b q (done ++ [⟨p.statement, some reply⟩]) := by
  cases h with
  | @setup _ s rest hSetup hDone =>
      simp only [Progress.receive] at hMore
      split at hMore
      · cases hMore
      · next o hWhole =>
        cases hMore
        refine Stage.ofSetup ?_ ?_
        · rw [hSetup]
          simp [Progress.statement]
        · intro y hY
          rcases List.mem_append.mp hY with hOld | hNew
          · exact hDone y hOld
          · rw [List.mem_singleton.mp hNew]
            exact ⟨reply, o, rfl, hWhole⟩
  | main hSetup hDone =>
      simp only [Progress.receive] at hMore
      split at hMore
      · cases hMore
      · next o =>
        simp only [Progress.afterMain] at hMore
        split at hMore
        · cases hMore
        · cases hMore
        · next s parameters hOutputs =>
          cases hMore
          exact .readback hOutputs hSetup
  | readback =>
      simp only [Progress.receive] at hMore
      split at hMore <;> cases hMore

------------------------------------------------------------
-- Exchanges of a command
------------------------------------------------------------

/- The reply to the statement that was sent last is awaited. -/
def BoundCommand.Awaits
    (b : BoundCommand)
    (p : Progress)
    (reply : Option Reply)
    (xs : List Exchange) : Prop :=
  ∃ done, Stage b p done ∧ xs = done ++ [⟨p.statement, reply⟩]

/- The reply to the last statement ended the command. -/
def BoundCommand.Ends
    (b : BoundCommand)
    (result : Reply)
    (xs : List Exchange) : Prop :=
  ∃ p reply, b.Awaits p (some reply) xs ∧
    p.receive reply = .result result

/- The reply to a statement is one of a built-in engine. -/
def Exchange.IsBuiltIn
    (repository : String)
    (x : Exchange) : Prop :=
  ∀ reply, x.reply = some reply →
    Reply.IsBuiltIn repository x.statement reply

theorem exchange_isBuiltIn
    {backend : String → Backend}
    {c : Connection}
    {log : List Event}
    {x : Exchange}
    (hBuiltIn : (backend c.repository).IsBuiltIn c.repository)
    (hMem : x ∈ exchanges backend c log) :
    x.IsBuiltIn c.repository := by
  intro reply hReply
  rcases mem_exchangesFrom hMem with ⟨n, hSame⟩
  exact hBuiltIn n _ _ (hSame.symm.trans hReply)

/- The failures that are kept were those of the main reply. -/
theorem Stage.kept_driven
    {f : Failure}
    (hBuiltIn : ∀ x ∈ done, x.IsBuiltIn repository)
    (h : Stage b p done)
    (hKept : f ∈ p.kept) : f.IsDriven repository := by
  cases h with
  | setup => cases hKept
  | main => cases hKept
  | @readback done s parameters o =>
      rcases hBuiltIn _ (List.mem_append_right done
        (List.mem_singleton_self _)) _ rfl with
          ⟨message, hFail, -⟩ | hDriven
      · cases hFail
      · exact hDriven f hKept

/-
  The failures of the result: errors of the driver, or
  arguments that could not be bound, of which only those that
  are read back with are bound too late.
-/
theorem BoundCommand.Ends.explained
    {result : Reply}
    (hBuiltIn : ∀ x ∈ xs, x.IsBuiltIn repository)
    (h : b.Ends result xs) :
    ∀ f ∈ failures result, f.IsDriven repository ∨
      b.Misreads repository f ∨ Unsent b xs := by
  rcases h with ⟨p, reply, ⟨done, hStage, rfl⟩, hResult⟩
  intro f hMem
  have hLast := hBuiltIn _ (List.mem_append_right done
    (List.mem_singleton_self _)) reply rfl
  rcases Progress.receive_failures hResult hMem with hReply | hOld
  · rcases hLast with ⟨message, rfl, hArguments⟩ | hDriven
    · right
      cases hStage with
      | setup hSetup =>
          refine .inr ⟨done, _, [], rfl, ?_, _, _, rfl⟩
          rw [hSetup]
          simp
      | main hSetup =>
          refine .inr ⟨done, _, [], rfl, ?_, _, _, rfl⟩
          rw [hSetup]
          simp
      | @readback done s parameters o hOutputs =>
          refine .inl ⟨s, parameters, message, hOutputs, hArguments,
            ?_⟩
          exact List.mem_singleton.mp hReply
    · exact .inl (hDriven f hReply)
  · refine .inl (hStage.kept_driven (fun x hX => ?_) hOld)
    exact hBuiltIn x (List.mem_append_left _ hX)

end Failover
