import Failover.Proofs.Access.Exchanges
import Failover.Proofs.Outcome.Stream

/-
  A bound command on whatever answers its statements.  The
  answers are put on record, which changes nothing of the
  run.  A run sends the statements in their order, stops at
  the first failure that concerns it, and else has the sets
  and the count of the main statement, with the output values
  of the set that they are read from.

  Key definitions include:
    * `Runner`, `Runner.noted`, `Runner.collecting`
    * `Reply.FailsWith`, `BoundCommand.BreaksAt`
    * `BoundCommand.captured?`
    * `BoundCommand.Delivers`, `BoundCommand.IsCarriedOut`

  Main statements:
    * `Runner.isPlain_collecting`
    * `Progress.whole_eq_error_iff`
    * `Stage.breaksAt_iff`
    * `Progress.run_leads`
    * `BoundCommand.run_isCarriedOut`
-/

namespace Failover

------------------------------------------------------------
-- Runners
------------------------------------------------------------

/-
  What answers statements, with a state of its own.  An answer
  may never come.
-/
abbrev Runner (σ : Type) := Statement → OptionT (StateM σ) Reply

namespace Runner

variable {σ : Type}

/- Each statement is put on record with its answer. -/
def noted (fetch : Runner σ) : Runner (σ × List Exchange) :=
  fun s => OptionT.mk fun (x, log) =>
    let (reply, x') := (fetch s).run x
    (reply, (x', log ++ [⟨s, reply⟩]))

/- The exchange is one that may come about. -/
def Gives
    (fetch : Runner σ)
    (y : Exchange) : Prop :=
  ∃ x, y.reply = ((fetch y.statement).run x).1

/- Outcomes have no output values but those of their rows. -/
def IsPlain (fetch : Runner σ) : Prop :=
  ∀ s o, fetch.Gives ⟨s, some (.ok o)⟩ → o.outputs = .empty

/-
  The runner of a connection, which collects the outcome of
  each statement from what the engine sends.
-/
def collecting
    (send : Statement → OptionT (StateM σ) (List StreamItem)) :
    Runner σ :=
  fun s => Outcome.ofStream <$> send s

/- A connection's outcomes have no output values of their own. -/
theorem isPlain_collecting
    (send : Statement → OptionT (StateM σ) (List StreamItem)) :
    (collecting send).IsPlain := by
  rintro s o ⟨x, hReply⟩
  have hSent : ((collecting send s).run x).1 =
      ((send s).run x).1.map Outcome.ofStream := by
    rw [collecting, OptionT.run_map]
    rfl
  rw [hSent] at hReply
  obtain ⟨items, -, hItems⟩ :=
    Option.map_eq_some_iff.mp hReply.symm
  exact Outcome.ofStream_outputs hItems

/- The record grows by the exchange. -/
theorem run_noted
    (fetch : Runner σ)
    (s : Statement)
    (x : σ)
    (log : List Exchange) :
    (fetch.noted s).run (x, log) =
      (((fetch s).run x).1,
        (((fetch s).run x).2,
          log ++ [⟨s, ((fetch s).run x).1⟩])) :=
  rfl

/- Where a reply does not come the rest is not run. -/
theorem run_bind
    {α β : Type}
    (a : OptionT (StateM σ) α)
    (f : α → OptionT (StateM σ) β)
    (x : σ) :
    (a >>= f).run x =
      match a.run x with
      | (none, x') => (none, x')
      | (some v, x') => (f v).run x' := by
  change (a >>= f).run.run x =
    match a.run.run x with | (none, x') => _ | (some v, x') => _
  rw [OptionT.run_bind, Option.elimM, StateT.run_bind]
  rcases a.run.run x with ⟨_ | v, x'⟩ <;> rfl

end Runner

/-
  The next statement is sent, and the run goes on if there is
  an answer that leads on.
-/
theorem Progress.run_eq
    {σ : Type}
    (fetch : Runner σ)
    (p : Progress)
    (x : σ) :
    (p.run fetch).run x =
      match (fetch p.statement).run x with
      | (none, x') => (none, x')
      | (some reply, x') =>
          match p.receive reply with
          | .more q => (q.run fetch).run x'
          | .result r => (some r, x') := by
  rw [run.eq_def fetch p, Runner.run_bind]
  rcases (fetch p.statement).run x with ⟨_ | reply, x'⟩
  · rfl
  · simp only
    split
    · next q hMore =>
      rw [hMore]
    · next r hResult =>
      rw [hResult]
      rfl

------------------------------------------------------------
-- Failures that end a run
------------------------------------------------------------

/-
  A reply fails at once, or with the first set that ends in a
  failure.
-/
inductive Reply.FailsWith : Reply → Failure → Prop where
  | atOnce {f : Failure} : FailsWith (.error f) f
  | inSet
      {o : Outcome}
      {before after : List ResultSet}
      {s : ResultSet}
      {f : Failure}
      (hSets : o.sets = before ++ s :: after)
      (hBefore : ∀ x ∈ before, x.failure = none)
      (hFailure : s.failure = some f) : FailsWith (.ok o) f

/- The failure that is taken is the first one. -/
theorem Outcome.takeFrom_fst (sets : List ResultSet) :
    (takeFrom sets).1 = sets.findSome? (·.failure) := by
  induction sets with
  | nil => rfl
  | cons s sets ih =>
      rw [takeFrom, List.findSome?_cons]
      cases s.failure with
      | none => exact ih
      | some f => rfl

/- A reply fails as a whole if it fails anywhere. -/
theorem Progress.whole_eq_error_iff
    {reply : Reply}
    {f : Failure} :
    whole reply = .error f ↔ Reply.FailsWith reply f := by
  cases reply with
  | error f' =>
      constructor
      · intro h
        cases h
        exact .atOnce
      · intro h
        cases h
        rfl
  | ok o =>
      have hFirst : whole (.ok o) = .error f ↔
          o.sets.findSome? (·.failure) = some f := by
        rw [whole, Outcome.failure?, Outcome.takeFrom_fst]
        cases o.sets.findSome? (·.failure) <;> simp
      rw [hFirst, List.findSome?_eq_some_iff]
      constructor
      · rintro ⟨before, s, after, hSets, hFailure, hBefore⟩
        exact .inSet hSets hBefore hFailure
      · intro h
        cases h with
        | inSet hSets hBefore hFailure =>
            exact ⟨_, _, _, hSets, hFailure, hBefore⟩

namespace BoundCommand

variable (b : BoundCommand)

/-
  A reply by its place ends the run: any failure of a setup
  statement or of the reading back, but of the main statement
  only one that comes at once, or that of the set which is
  taken for its output values.
-/
inductive BreaksAt : Nat → Reply → Failure → Prop where
  | setup
      {i : Nat}
      {reply : Reply}
      {f : Failure}
      (hSetup : i < b.setup.length)
      (hFails : Reply.FailsWith reply f) : BreaksAt i reply f
  | main {f : Failure} : BreaksAt b.setup.length (.error f) f
  | mainRow
      {parameters : List String}
      {o : Outcome}
      {s : ResultSet}
      {rest : List ResultSet}
      {f : Failure}
      (hOutputs : b.outputs = .mainRow parameters)
      (hSets : o.sets = s :: rest)
      (hFailure : s.failure = some f) :
      BreaksAt b.setup.length (.ok o) f
  | readback
      {s : Statement}
      {parameters : List String}
      {reply : Reply}
      {f : Failure}
      (hOutputs : b.outputs = .readback s parameters)
      (hFails : Reply.FailsWith reply f) :
      BreaksAt (b.setup.length + 1) reply f

variable {b} {i : Nat} {reply : Reply} {f : Failure}

/- A setup statement ends the run with any failure. -/
theorem breaksAt_setup_iff (h : i < b.setup.length) :
    b.BreaksAt i reply f ↔ Reply.FailsWith reply f := by
  constructor
  · intro hBreaks
    cases hBreaks with
    | setup _ hFails => exact hFails
    | main => omega
    | mainRow => omega
    | readback _ hFails => exact hFails
  · exact .setup h

/- A run ends at the reply to the readback if this reply fails. -/
theorem breaksAt_readback_iff
    {s : Statement}
    {parameters : List String}
    (hOutputs : b.outputs = .readback s parameters)
    (hPlace : i = b.setup.length + 1) :
    b.BreaksAt i reply f ↔ Reply.FailsWith reply f := by
  constructor
  · intro hBreaks
    cases hBreaks with
    | setup _ hFails => exact hFails
    | main => omega
    | mainRow => omega
    | readback _ hFails => exact hFails
  · rw [hPlace]
    exact .readback hOutputs

/-
  A run ends at the main reply exactly if reading the main
  reply ends it with this failure.
-/
theorem breaksAt_main_iff (hPlace : i = b.setup.length) :
    b.BreaksAt i reply f ↔
      (Progress.main b).receive reply = .result (.error f) := by
  subst hPlace
  constructor
  · intro hBreaks
    generalize hPlace : b.setup.length = i at hBreaks
    cases hBreaks with
    | setup hSetup => omega
    | main => rfl
    | mainRow hOutputs hSets hFailure =>
        simp [Progress.receive, Progress.afterMain, hOutputs,
          Progress.takeMainRow, hSets, hFailure]
    | readback => omega
  · intro h
    cases reply with
    | error f' =>
        cases h
        exact .main
    | ok o =>
        simp only [Progress.receive, Progress.afterMain] at h
        split at h
        · cases h
        · next parameters hOutputs =>
          have hRow := Progress.Next.result.inj h
          simp only [Progress.takeMainRow] at hRow
          split at hRow
          · cases hRow
          · next s rest hSets =>
            split at hRow
            · next f' hFailure =>
              cases hRow
              exact .mainRow hOutputs hSets hFailure
            · cases hRow
        · cases h

end BoundCommand

/- A reply ends the run with a failure just if it breaks it. -/
theorem Stage.breaksAt_iff
    {b : BoundCommand}
    {p : Progress}
    {done : List Exchange}
    {reply : Reply}
    {f : Failure}
    (h : Stage b p done) :
    b.BreaksAt done.length reply f ↔
      p.receive reply = .result (.error f) := by
  cases h with
  | @setup _ s rest hSetup =>
      have hLess : done.length < b.setup.length := by
        rw [hSetup]
        simp
      rw [BoundCommand.breaksAt_setup_iff hLess,
        ← Progress.whole_eq_error_iff, Progress.receive]
      cases Progress.whole reply <;> simp
  | main hSetup =>
      apply BoundCommand.breaksAt_main_iff
      rw [hSetup, List.length_map]
  | readback hOutputs hSetup =>
      rw [BoundCommand.breaksAt_readback_iff hOutputs (by
        rw [hSetup]
        simp), ← Progress.whole_eq_error_iff, Progress.receive]
      cases Progress.whole reply <;> simp

------------------------------------------------------------
-- Runs
------------------------------------------------------------

namespace BoundCommand

/- All replies are there, and none of them ends the run. -/
def GoesThrough
    (b : BoundCommand)
    (log : List Exchange) : Prop :=
  ∀ i x, log[i]? = some x →
    ∃ reply, x.reply = some reply ∧ ∀ f, ¬ b.BreaksAt i reply f

/-
  How a run ends: with a reply that never comes, or with one
  that has the result.
-/
inductive LeadsTo
    (b : BoundCommand) :
    List Exchange → Option Reply → Prop where
  | pending
      {p : Progress}
      {done : List Exchange}
      (hStage : Stage b p done)
      (hDone : b.GoesThrough done) :
      LeadsTo b (done ++ [⟨p.statement, none⟩]) none
  | ended
      {p : Progress}
      {done : List Exchange}
      {reply result : Reply}
      (hStage : Stage b p done)
      (hDone : b.GoesThrough done)
      (hResult : p.receive reply = .result result) :
      LeadsTo b (done ++ [⟨p.statement, some reply⟩])
        (some result)

end BoundCommand

/- An exchange of a record is an old one or the last one. -/
theorem Exchange.of_getElem?_concat
    {log : List Exchange}
    {i : Nat}
    {x y : Exchange}
    (h : (log ++ [x])[i]? = some y) :
    log[i]? = some y ∨ i = log.length ∧ x = y := by
  rw [List.getElem?_append] at h
  split at h
  · exact .inl h
  · next hNew =>
    rw [List.getElem?_singleton] at h
    split at h
    · exact .inr ⟨by omega, Option.some.inj h⟩
    · cases h

/- A reply that leads on is one that does not end the run. -/
theorem Stage.goesThrough
    {b : BoundCommand}
    {p q : Progress}
    {done : List Exchange}
    {reply : Reply}
    (h : Stage b p done)
    (hDone : b.GoesThrough done)
    (hMore : p.receive reply = .more q) :
    b.GoesThrough (done ++ [⟨p.statement, some reply⟩]) := by
  intro i x hThis
  rcases Exchange.of_getElem?_concat hThis with hOld | ⟨rfl, rfl⟩
  · exact hDone i x hOld
  · refine ⟨reply, rfl, fun f hBreaks => ?_⟩
    cases hMore.symm.trans (h.breaksAt_iff.mp hBreaks)

/- A run on record is the run itself, and comes to an end. -/
theorem Progress.run_leads
    {σ : Type}
    {b : BoundCommand}
    {done : List Exchange}
    (fetch : Runner σ)
    (p : Progress)
    (x : σ)
    (h : Stage b p done)
    (hDone : b.GoesThrough done) :
    ∃ result x' log,
      (p.run fetch).run x = (result, x') ∧
      (p.run fetch.noted).run (x, done) = (result, (x', log)) ∧
      b.LeadsTo log result ∧
      (∀ y ∈ log, y ∈ done ∨ fetch.Gives y) := by
  have hGives : ∀ y ∈ done ++
      [⟨p.statement, ((fetch p.statement).run x).1⟩],
        y ∈ done ∨ fetch.Gives y := by
    intro y hMem
    rcases List.mem_append.mp hMem with hOld | hNew
    · exact .inl hOld
    · rw [List.mem_singleton.mp hNew]
      exact .inr ⟨x, rfl⟩
  rw [run_eq, run_eq, Runner.run_noted]
  rcases hThis : (fetch p.statement).run x with ⟨_ | reply, x'⟩
  · rw [hThis] at hGives
    exact ⟨none, x', _, rfl, rfl, .pending h hDone, hGives⟩
  · rw [hThis] at hGives
    simp only
    cases hReceive : p.receive reply with
    | result r =>
        exact ⟨r, x', _, rfl, rfl, .ended h hDone hReceive, hGives⟩
    | more q =>
        have := size_receive hReceive
        rcases q.run_leads fetch x' (h.more hReceive)
          (h.goesThrough hDone hReceive) with
            ⟨result, x₂, log, hRun, hNoted, hLeads, hAll⟩
        refine ⟨result, x₂, log, hRun, hNoted, hLeads, ?_⟩
        intro y hMem
        exact (hAll y hMem).elim (hGives y) .inr
termination_by p.size

------------------------------------------------------------
-- Results
------------------------------------------------------------

/- The first set of a reply. -/
def Exchange.firstSet? (x : Exchange) : Option ResultSet :=
  match x.reply with
  | some (.ok o) => o.sets.head?
  | _ => none

/- The sets that are left for the caller. -/
def OutputCapture.left
    (sets : List ResultSet) : OutputCapture → List ResultSet
  | .mainRow _ => sets.tail
  | _ => sets

/-
  A result after the main reply leaves no statement to be
  sent.
-/
theorem Progress.statements_of_result
    {capture : OutputCapture}
    {o : Outcome}
    {result : Reply}
    (h : afterMain capture o = .result result) :
    capture.statements = [] := by
  unfold afterMain at h
  split at h
  · rfl
  · rfl
  · cases h

namespace BoundCommand

/- The set that the output values are read from. -/
def captured?
    (b : BoundCommand)
    (log : List Exchange) : Option ResultSet :=
  match b.outputs with
  | .none => none
  | .mainRow _ => log[b.setup.length]?.bind (·.firstSet?)
  | .readback _ _ => log[b.setup.length + 1]?.bind (·.firstSet?)

/-
  The outcome has what the main statement has affected, and
  the sets of it that are left.  The output values are what the
  names find in the first row of the set they are read from,
  each in its column.  Without the set they are the ones of the
  main reply itself.
-/
structure Delivers
    (b : BoundCommand)
    (log : List Exchange)
    (main out : Outcome) : Prop where
  replied : log[b.setup.length]? = some ⟨b.main, some (.ok main)⟩
  affected : out.rowsAffected = main.rowsAffected
  sets : out.sets = b.outputs.left main.sets
  row :
    ∀ s row rest, b.captured? log = some s →
      s.rows = row :: rest →
        out.outputs = .ofEntries
          (ResultSet.readings s.columns b.outputs.names row)
  rowless :
    ∀ s, b.captured? log = some s → s.rows = [] →
      out.outputs = .empty
  setless : b.captured? log = none → out.outputs = main.outputs

/-
  What a record says about a run and its result.  The
  statements come in order.  A setup statement that fails is
  the last one of all.  The result is the failure of a reply
  that ends the run.  If there is none, all was sent, and the
  result is what the replies deliver.
-/
structure IsCarriedOut
    (b : BoundCommand)
    (log : List Exchange)
    (result : Option Reply) : Prop where
  asked : log.map (·.statement) <+: b.statements
  pending : result = none ↔ ∃ x ∈ log, x.reply = none
  setup :
    ∀ i s reply f, i < b.setup.length →
      log[i]? = some ⟨s, some reply⟩ → Reply.FailsWith reply f →
        result = some (.error f) ∧
          log.map (·.statement) = b.setup.take (i + 1)
  failed :
    ∀ f, result = some (.error f) ↔
      ∃ i s reply, log[i]? = some ⟨s, some reply⟩ ∧
        b.BreaksAt i reply f
  delivered :
    ∀ out, result = some (.ok out) →
      log.map (·.statement) = b.statements ∧
        ∃ main, b.Delivers log main out

variable {b : BoundCommand} {log done : List Exchange}
variable {main out : Outcome} {result : Option Reply}

/- The output values are those of the captured set. -/
theorem Delivers.ofCaptured
    (hReplied :
      log[b.setup.length]? = some ⟨b.main, some (.ok main)⟩)
    (hAffected : out.rowsAffected = main.rowsAffected)
    (hSets : out.sets = b.outputs.left main.sets)
    (hOutputs :
      out.outputs = (b.captured? log).elim main.outputs
        (·.outputs b.outputs.names)) :
    b.Delivers log main out where
  replied := hReplied
  affected := hAffected
  sets := hSets
  row := by
    intro s row rest hSet hRows
    rw [hOutputs, hSet, Option.elim_some, ResultSet.outputs_eq,
      hRows, List.head?_cons, Option.elim_some]
  rowless := by
    intro s hSet hRows
    rw [hOutputs, hSet, Option.elim_some, ResultSet.outputs_eq,
      hRows, List.head?_nil, Option.elim_none]
  setless := by
    intro hNone
    rw [hOutputs, hNone, Option.elim_none]

/-
  The outcome of a run whose output values are in the first
  row of the main reply.
-/
theorem delivers_mainRow
    {parameters : List String}
    (hOutputs : b.outputs = .mainRow parameters)
    (hReplied :
      log[b.setup.length]? = some ⟨b.main, some (.ok main)⟩)
    (hRow : Progress.takeMainRow parameters main = .ok out) :
    b.Delivers log main out := by
  have hCaptured : b.captured? log = main.sets.head? := by
    rw [captured?, hOutputs]
    simp only
    rw [hReplied]
    rfl
  unfold Progress.takeMainRow at hRow
  cases hAll : main.sets with
  | nil =>
      rw [hAll] at hRow
      cases hRow
      refine .ofCaptured hReplied rfl ?_ ?_
      · rw [hOutputs, OutputCapture.left, hAll, List.tail_nil]
      · rw [hCaptured, hAll, List.head?_nil, Option.elim_none]
  | cons s rest =>
      rw [hAll] at hRow
      simp only at hRow
      split at hRow
      · cases hRow
      · cases hRow
        refine .ofCaptured hReplied rfl ?_ ?_
        · rw [hOutputs, OutputCapture.left, hAll, List.tail_cons]
        · rw [hCaptured, hAll, List.head?_cons, Option.elim_some,
            hOutputs, OutputCapture.names]

/- The outcome of a run that ends with the main reply. -/
theorem delivers_main
    (hSetup : b.setup = done.map (·.statement))
    (hEnds : Progress.afterMain b.outputs main =
      .result (.ok out)) :
    b.Delivers (done ++ [⟨b.main, some (.ok main)⟩]) main out := by
  have hReplied : (done ++ [⟨b.main, some (.ok main)⟩])[
      b.setup.length]? = some ⟨b.main, some (.ok main)⟩ := by
    rw [hSetup, List.length_map, List.getElem?_concat_length]
  unfold Progress.afterMain at hEnds
  split at hEnds
  · next hOutputs =>
    cases hEnds
    refine .ofCaptured hReplied rfl ?_ ?_
    · rw [hOutputs, OutputCapture.left]
      nofun
    · rw [captured?, hOutputs, Option.elim_none]
  · next parameters hOutputs =>
    exact delivers_mainRow hOutputs hReplied
      (Progress.Next.result.inj hEnds)
  · cases hEnds

/- The outcome of a run whose output values are read back. -/
theorem delivers_readback
    {s : Statement}
    {parameters : List String}
    {read : Outcome}
    (hOutputs : b.outputs = .readback s parameters)
    (hSetup : b.setup = done.map (·.statement)) :
    b.Delivers
      (done ++ [⟨b.main, some (.ok main)⟩] ++
        [⟨s, some (.ok read)⟩])
      main (Progress.takeReadback parameters main read) := by
  have hLength : b.setup.length = done.length := by
    rw [hSetup, List.length_map]
  have hCaptured : b.captured?
      (done ++ [⟨b.main, some (.ok main)⟩] ++
        [⟨s, some (.ok read)⟩]) = read.sets.head? := by
    simp [captured?, hOutputs, hLength, Exchange.firstSet?]
  refine .ofCaptured ?_ ?_ ?_ ?_
  · simp [hLength]
  · unfold Progress.takeReadback
    split <;> rfl
  · rw [hOutputs, OutputCapture.left]
    · unfold Progress.takeReadback
      split <;> rfl
    · nofun
  · rw [hCaptured, hOutputs, OutputCapture.names,
      Progress.takeReadback]
    cases read.sets <;> rfl

/- A run that goes on was ended by no reply. -/
theorem GoesThrough.not_breaksAt
    {i : Nat}
    {s : Statement}
    {reply : Reply}
    {f : Failure}
    (h : b.GoesThrough log)
    (hThis : log[i]? = some ⟨s, some reply⟩) :
    ¬ b.BreaksAt i reply f := by
  rcases h i _ hThis with ⟨reply', hReply, hNot⟩
  cases hReply
  exact hNot f

/- A run that goes through has a reply to every statement. -/
theorem GoesThrough.replied
    {x : Exchange}
    (h : b.GoesThrough log)
    (hMem : x ∈ log) : x.reply ≠ none := by
  rcases List.mem_iff_getElem?.mp hMem with ⟨i, hThis⟩
  rcases h i x hThis with ⟨reply, hReply, -⟩
  rw [hReply]
  nofun

/- Only the last reply ends a run, and with its own failure. -/
theorem LeadsTo.breaksAt_iff
    {i : Nat}
    {s : Statement}
    {reply : Reply}
    {f : Failure}
    (h : b.LeadsTo log result)
    (hThis : log[i]? = some ⟨s, some reply⟩) :
    b.BreaksAt i reply f ↔
      i + 1 = log.length ∧ result = some (.error f) := by
  cases h with
  | pending hStage hDone =>
      rcases Exchange.of_getElem?_concat hThis with hOld | hLast
      · simp [hDone.not_breaksAt hOld]
      · cases hLast.2
  | ended hStage hDone hResult =>
      rcases Exchange.of_getElem?_concat hThis with hOld | hLast
      · have hLess := (List.getElem?_eq_some_iff.mp hOld).1
        simp [hDone.not_breaksAt hOld, Nat.ne_of_lt hLess]
      · rcases hLast with ⟨rfl, hSame⟩
        cases hSame
        rw [hStage.breaksAt_iff, hResult]
        simp

/- A run awaits the reply to the last statement of all. -/
theorem LeadsTo.awaits
    (h : b.LeadsTo log result) :
    ∃ p reply, b.Awaits p reply log ∧
      (result = none ↔ reply = none) := by
  cases h with
  | @pending p done hStage =>
      exact ⟨p, none, ⟨done, hStage, rfl⟩, by simp⟩
  | @ended p done reply result hStage =>
      exact ⟨p, some reply, ⟨done, hStage, rfl⟩, by simp⟩

/- Statements are sent in their order. -/
theorem LeadsTo.asked
    (h : b.LeadsTo log result) :
    log.map (·.statement) <+: b.statements := by
  rcases h.awaits with ⟨p, reply, hAwaits, -⟩
  exact hAwaits.statements

/- A run has no result exactly if some reply does not come. -/
theorem LeadsTo.pending_iff
    (h : b.LeadsTo log result) :
    result = none ↔ ∃ x ∈ log, x.reply = none := by
  cases h with
  | pending => simp
  | @ended p done reply result hStage hDone =>
      simp only [reduceCtorEq, false_iff]
      rintro ⟨x, hMem, hNone⟩
      rcases List.mem_append.mp hMem with hOld | hNew
      · exact hDone.replied hOld hNone
      · rw [List.mem_singleton.mp hNew] at hNone
        cases hNone

/- The setup goes up to its first failure. -/
theorem LeadsTo.setup
    {i : Nat}
    {s : Statement}
    {reply : Reply}
    {f : Failure}
    (h : b.LeadsTo log result)
    (hSetup : i < b.setup.length)
    (hThis : log[i]? = some ⟨s, some reply⟩)
    (hFails : Reply.FailsWith reply f) :
    result = some (.error f) ∧
      log.map (·.statement) = b.setup.take (i + 1) := by
  rcases (h.breaksAt_iff hThis).mp (.setup hSetup hFails) with
    ⟨hLast, hResult⟩
  refine ⟨hResult, ?_⟩
  have hTaken := List.prefix_iff_eq_take.mp h.asked
  rw [List.length_map, ← hLast, BoundCommand.statements,
    List.take_append_of_le_length hSetup] at hTaken
  exact hTaken

/- A run fails with the reply that ends it. -/
theorem LeadsTo.failed_iff
    {f : Failure}
    (h : b.LeadsTo log result) :
    result = some (.error f) ↔
      ∃ i s reply, log[i]? = some ⟨s, some reply⟩ ∧
        b.BreaksAt i reply f := by
  constructor
  · intro hFailed
    cases h with
    | pending => cases hFailed
    | @ended p done reply result hStage hDone hResult =>
        cases hFailed
        refine ⟨done.length, p.statement, reply, ?_, ?_⟩
        · rw [List.getElem?_concat_length]
        · exact hStage.breaksAt_iff.mpr hResult
  · rintro ⟨i, s, reply, hThis, hBreaks⟩
    exact ((h.breaksAt_iff hThis).mp hBreaks).2

/- A run with an outcome has sent all there was to send. -/
theorem LeadsTo.delivered
    (h : b.LeadsTo log (some (.ok out))) :
    log.map (·.statement) = b.statements ∧
      ∃ main, b.Delivers log main out := by
  cases h with
  | @ended p done reply result hStage hDone hResult =>
      cases hStage with
      | setup =>
          simp only [Progress.receive] at hResult
          split at hResult <;> cases hResult
      | main hSetup =>
          cases reply with
          | error f => cases hResult
          | ok o =>
              refine ⟨?_, o, delivers_main hSetup hResult⟩
              rw [BoundCommand.statements,
                Progress.statements_of_result hResult, hSetup]
              simp [Progress.statement]
      | readback hOutputs hSetup =>
          simp only [Progress.receive] at hResult
          split at hResult
          · cases hResult
          · next read hWhole =>
            cases hResult
            cases Progress.whole_ok hWhole
            refine ⟨?_, _, delivers_readback hOutputs hSetup⟩
            rw [BoundCommand.statements, hOutputs, hSetup]
            simp [Progress.statement, OutputCapture.statements]

/- A run that leads to a result is carried out with it. -/
theorem LeadsTo.isCarriedOut
    (h : b.LeadsTo log result) : b.IsCarriedOut log result where
  asked := h.asked
  pending := h.pending_iff
  setup := fun _ _ _ _ hSetup hThis hFails =>
    h.setup hSetup hThis hFails
  failed := fun _ => h.failed_iff
  delivered := by
    rintro out rfl
    exact h.delivered

/- A plain runner gives no output values without a row. -/
theorem IsCarriedOut.rowless
    {σ : Type}
    {fetch : Runner σ}
    (h : b.IsCarriedOut log result)
    (hPlain : fetch.IsPlain)
    (hGives : ∀ y ∈ log, fetch.Gives y)
    (hOut : result = some (.ok out))
    (hRowless : ∀ s, b.captured? log = some s → s.rows = []) :
    out.outputs = .empty := by
  rcases (h.delivered out hOut).2 with ⟨main, hMain⟩
  cases hSet : b.captured? log with
  | some s => exact hMain.rowless s hSet (hRowless s hSet)
  | none =>
      rw [hMain.setless hSet]
      exact hPlain _ _ (hGives _ (List.mem_of_getElem? hMain.replied))

/- A run from the start is on record as a whole. -/
theorem run_recorded
    {σ : Type}
    (fetch : Runner σ)
    (b : BoundCommand)
    (x : σ) :
    ∃ result x' log,
      (b.run fetch).run x = (result, x') ∧
      (b.run fetch.noted).run (x, []) = (result, (x', log)) ∧
      b.IsCarriedOut log result ∧
      ∀ y ∈ log, fetch.Gives y := by
  have hNone : b.GoesThrough [] := nofun
  rcases (Progress.start b).run_leads fetch x (.start b) hNone with
    ⟨result, x', log, hRun, hNoted, hLeads, hGives⟩
  refine ⟨result, x', log, hRun, hNoted, hLeads.isCarriedOut, ?_⟩
  exact fun y hMem => (hGives y hMem).resolve_left nofun

/- On a connection there are no output values without a row. -/
theorem run_collecting_rowless
    {σ : Type}
    (send : Statement → OptionT (StateM σ) (List StreamItem))
    (b : BoundCommand)
    (x : σ) :
    ∃ result x' log,
      (b.run (Runner.collecting send)).run x = (result, x') ∧
      b.IsCarriedOut log result ∧
      ∀ out, result = some (.ok out) →
        (∀ s, b.captured? log = some s → s.rows = []) →
          out.outputs = .empty := by
  rcases b.run_recorded (Runner.collecting send) x with
    ⟨result, x', log, hRun, -, hAll, hGives⟩
  exact ⟨result, x', log, hRun, hAll, fun out =>
    hAll.rowless (Runner.isPlain_collecting send) hGives⟩

end BoundCommand

/-
  Every command on every runner, which may be in any state.
  The run sends what the record says and ends as the record
  has it.  No output values come of nothing: there are none
  without a row, unless the runner has some of its own.
-/
theorem BoundCommand.run_isCarriedOut
    {σ : Type}
    (fetch : Runner σ)
    (b : BoundCommand)
    (x : σ) :
    ∃ result x' log,
      (b.run fetch).run x = (result, x') ∧
      (b.run fetch.noted).run (x, []) = (result, (x', log)) ∧
      b.IsCarriedOut log result ∧
      (fetch.IsPlain →
        ∀ out, result = some (.ok out) →
          (∀ s, b.captured? log = some s → s.rows = []) →
            out.outputs = .empty) := by
  rcases b.run_recorded fetch x with
    ⟨result, x', log, hRun, hNoted, hAll, hGives⟩
  exact ⟨result, x', log, hRun, hNoted, hAll, fun hPlain out =>
    hAll.rowless hPlain hGives⟩

end Failover
