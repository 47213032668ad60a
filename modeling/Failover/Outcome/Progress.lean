import Failover.Binding.Basic
import Failover.Outcome.Basic

/-
  Running a bound command statement by statement: the setup
  statements, the main one, and the one that reads the output
  values back.  Each step names the statement to send next
  and takes the engine's reply to it.

  Key definitions include:
    * `Progress`, `Progress.start`
    * `Progress.statement`
    * `Progress.receive`
    * `BoundCommand.run`

  Main statements:
    * `Progress.size_receive`
-/

namespace Failover

/- A reply of an engine to one statement. -/
abbrev Reply := Except Failure Outcome

/-
  What is left of a bound command: its setup from a statement
  on, its main statement, or the reading of output values
  into an outcome.
-/
inductive Progress where
  | setup
      (statement : Statement)
      (rest : List Statement)
      (command : BoundCommand)
  | main (command : BoundCommand)
  | readback
      (statement : Statement)
      (parameters : List String)
      (outcome : Outcome)
deriving Inhabited

/- Either more is left or the command has its result. -/
inductive Progress.Next where
  | more (progress : Progress)
  | result (reply : Reply)

namespace Progress

/- The setup from some statements on. -/
def ofSetup
    (command : BoundCommand) : List Statement → Progress
  | [] => .main command
  | s :: r => .setup s r command

def start (command : BoundCommand) : Progress :=
  ofSetup command command.setup

/- The statement to send next. -/
def statement : Progress → Statement
  | .setup s _ _ => s
  | .main command => command.main
  | .readback s _ _ => s

/- A reply that ends in no failure at all. -/
def whole (reply : Reply) : Reply :=
  match reply with
  | .error f => .error f
  | .ok o =>
      match o.failure? with
      | some f => .error f
      | none => .ok o

/- The output values in the main statement's first set. -/
def takeMainRow
    (parameters : List String)
    (o : Outcome) : Reply :=
  match o.sets with
  | [] => .ok o
  | s :: r =>
      match s.failure with
      | some f => .error f
      | none =>
          .ok { o with sets := r, outputs := s.outputs parameters }

/- The output values that were read back. -/
def takeReadback
    (parameters : List String)
    (o read : Outcome) : Outcome :=
  match read.sets with
  | [] => o
  | s :: _ => { o with outputs := s.outputs parameters }

/- What follows the main statement. -/
def afterMain
    (capture : OutputCapture)
    (o : Outcome) : Next :=
  match capture with
  | .none => .result (.ok o)
  | .mainRow parameters => .result (takeMainRow parameters o)
  | .readback s parameters => .more (.readback s parameters o)

/- What a reply leads to. -/
def receive
    (p : Progress)
    (reply : Reply) : Next :=
  match p with
  | .setup _ rest command =>
      match whole reply with
      | .error f => .result (.error f)
      | .ok _ => .more (ofSetup command rest)
  | .main command =>
      match reply with
      | .error f => .result (.error f)
      | .ok o => afterMain command.outputs o
  | .readback _ parameters o =>
      match whole reply with
      | .error f => .result (.error f)
      | .ok read => .result (.ok (takeReadback parameters o read))

/- An upper bound of the statements that are left. -/
def size : Progress → Nat
  | .setup _ rest _ => rest.length + 3
  | .main _ => 2
  | .readback _ _ _ => 1

theorem size_ofSetup
    (command : BoundCommand)
    (rest : List Statement) :
    (ofSetup command rest).size = rest.length + 2 := by
  cases rest <;> simp [ofSetup, size]

/- Every reply leaves fewer statements. -/
theorem size_receive
    {p q : Progress}
    {reply : Reply}
    (h : p.receive reply = .more q) :
    q.size < p.size := by
  cases p with
  | setup s rest command =>
      simp only [receive] at h
      split at h
      · cases h
      · cases h
        rw [size_ofSetup]
        simp only [size]
        omega
  | main command =>
      simp only [receive] at h
      split at h
      · cases h
      · simp only [afterMain] at h
        split at h <;> cases h
        simp [size]
  | readback s ps o =>
      simp only [receive] at h
      split at h <;> cases h

/- Every statement that is left is sent in turn. -/
def run
    {m : Type → Type}
    [Monad m]
    (fetch : Statement → m Reply)
    (p : Progress) : m Reply := do
  let reply ← fetch p.statement
  match h : p.receive reply with
  | .more q =>
      have := size_receive h
      q.run fetch
  | .result r => return r
termination_by p.size

end Progress

/- A bound command is run on whatever answers statements. -/
def BoundCommand.run
    {m : Type → Type}
    [Monad m]
    (fetch : Statement → m Reply)
    (command : BoundCommand) : m Reply :=
  (Progress.start command).run fetch

end Failover
