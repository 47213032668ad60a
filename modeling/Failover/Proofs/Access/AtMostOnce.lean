import Failover.Proofs.Access.Attempt
import Failover.Proofs.Access.Recording
import Failover.Proofs.Cluster.Order
import Failover.Proofs.Scene.Request

/-
  Commands that are not safe to repeat.  After an attempt that
  sent the main statement no other one is made, unless an
  error of the driver is taken for a failure to connect.

  Key definitions include:
    * `Attempted.Sent`
    * `Attempted.IsMisjudged`

  Main statements:
    * `Workspace.repeated_iff_misjudged`
-/

namespace Failover

open Scene (Known)

------------------------------------------------------------
-- Retrying
------------------------------------------------------------

/- Only what did not reach the engine is tried elsewhere. -/
theorem Policy.standardRetry_unsafe
    {c : Command}
    (hUnsafe : c.retrySafe = false)
    (most : Option Nat)
    (f : Failure)
    (n : Nat) :
    standardRetry most c f n = true ↔
      f.isPreExecution = true ∧ ∀ m, most = some m → n < m := by
  cases f <;> cases most <;>
    simp [standardRetry, hUnsafe, Failure.isPreExecution]

------------------------------------------------------------
-- Attempts
------------------------------------------------------------

namespace Attempted

/- The connection of the attempt, if it opened one. -/
def connection (m : Attempted) : Connection :=
  m.before.ledger.nextConnection m.member

/- The main statement of the command was sent. -/
def Sent
    (c : Command)
    (m : Attempted) : Prop :=
  ∃ b, m.member.provider.bind c = .ok b ∧
    SentMain b
      (exchanges m.before.backend m.connection m.after.log)

/-
  The attempt failed while statements were at work, but the
  failure counts as one before the execution: an error of the
  driver that is put down to the connection, or an argument
  that output values could not be read back with.
-/
def IsMisjudged
    (c : Command)
    (m : Attempted) : Prop :=
  ∃ f, m.failure? = some f ∧
    ((∃ e, e.isMisplaced = true ∧
        f = .ofDriver m.member.name .executing e) ∨
      ∃ b, m.member.provider.bind c = .ok b ∧
        b.Misreads m.member.name f)

/- The failure of an attempt that did send is explained. -/
def IsExplained
    (c : Command)
    (m : Attempted) : Prop :=
  ∀ f, m.failure? = some f → f.isPreExecution = true →
    ∀ b, m.member.provider.bind c = .ok b →
      SentMain b
        (exchanges m.before.backend m.connection m.after.log) →
      f.IsDriven m.member.name ∨ b.Misreads m.member.name f

theorem isMisjudged_iff
    {c : Command}
    {m : Attempted}
    (hExplained : m.IsExplained c)
    (hSent : m.Sent c) :
    m.IsMisjudged c ↔
      ∃ f, m.failure? = some f ∧ f.isPreExecution = true := by
  rcases hSent with ⟨b, hBind, hMain⟩
  constructor
  · rintro ⟨f, hFail, ⟨e, hMisplaced, rfl⟩ | ⟨b', -, hMisreads⟩⟩
    · refine ⟨_, hFail, ?_⟩
      rw [Failure.ofDriver_isPreExecution]
      exact hMisplaced
    · rcases hMisreads with ⟨s, parameters, message, -, -, rfl⟩
      exact ⟨_, hFail, rfl⟩
  · rintro ⟨f, hFail, hPre⟩
    refine ⟨f, hFail, ?_⟩
    rcases hExplained f hFail hPre b hBind hMain with
      ⟨e, rfl⟩ | hMisreads
    · rw [Failure.ofDriver_isPreExecution] at hPre
      exact .inl ⟨e, hPre, rfl⟩
    · exact .inr ⟨b, hBind, hMisreads⟩

/- A first statement that is the whole of a command was sent. -/
def sendsPlainly
    (c : Command)
    (m : Attempted) : Bool :=
  match m.member.provider.bind c,
    exchanges m.before.backend m.connection m.after.log with
  | .ok ⟨[], ⟨text, []⟩, _⟩,
      ⟨⟨sent, []⟩, some (.error (.connectionOpen _ _ _))⟩ :: _ =>
    decide (sent = text)
  | _, _ => false

theorem sent_of_sendsPlainly
    {c : Command}
    {m : Attempted}
    (h : m.sendsPlainly c = true) : m.Sent c := by
  unfold sendsPlainly at h
  split at h
  · next text outputs sent r message hint rest hBind hSent =>
    refine ⟨_, hBind, [], _, rest, hSent, rfl, nofun, ?_, ?_⟩
    · rw [of_decide_eq_true h]
    · rintro ⟨repository, message, hReply⟩
      cases hReply
  · cases h

end Attempted

namespace DataAccess

/- What holds between the attempts of a command. -/
structure Ready
    (ss : List Session)
    (os : List Operation)
    (w : World) : Prop where
  known : Known ⟨ss, os, w.ledger⟩
  builtIn : ∀ r, (w.backend r).IsBuiltIn r

variable {ss : List Session} {os : List Operation}

theorem Ready.steps
    {may : Nat → Prop}
    {w w' : World}
    (h : Ready ss os w)
    (hSteps : Scene.Steps may ⟨[], [], w.ledger⟩
      ⟨[], [], w'.ledger⟩) : Ready ss os w' := by
  have hFrame := hSteps.frame ss os
  have hBackend : w'.backend = w.backend :=
    (hFrame.custody h.known.sound).1
  exact ⟨h.known.steps hFrame, hBackend ▸ h.builtIn⟩

/- An attempt that fails leaves nothing behind. -/
theorem attempt_steps
    (d : DataAccess)
    (c : Command)
    (e : Entry)
    (r : Repository)
    (w : World) :
    Effect.Ends (e.attempt d c r) w fun x w' =>
      ∀ f, x = .error f → Scene.Steps (0 ≤ ·)
        ⟨[], [], w.ledger⟩ ⟨[], [], w'.ledger⟩ := by
  cases e with
  | scalar t =>
      exact (attemptOn_makes d c (runs_scalar t) r w 0
        (Nat.zero_le _)).mono fun _ _ hSteps _ _ => hSteps
  | nonQuery =>
      exact (attemptOn_makes d c runs_nonQuery r w 0
        (Nat.zero_le _)).mono fun _ _ hSteps _ _ => hSteps
  | reader =>
      refine (attemptReaderOn_makes d c r w 0
        (Nat.zero_le _)).mono ?_
      rintro x w' hSteps f rfl
      exact hSteps

theorem attempt_ready
    {w : World}
    (d : DataAccess)
    (c : Command)
    (e : Entry)
    (r : Repository)
    (hReady : Ready ss os w) :
    Effect.Ends (e.attempt d c r) w fun x w' =>
      (∀ f, x = .error f → Ready ss os w') ∧
        Attempted.IsExplained c ⟨r, w, failureOf x, w'⟩ := by
  have hExplained : Effect.Ends (e.attempt d c r) w
      (Explained c r w) := by
    cases e with
    | scalar t =>
        exact attemptOn_explained d c (runs_scalar t)
          (accounts_scalar t) r hReady.known hReady.builtIn
    | nonQuery =>
        exact attemptOn_explained d c runs_nonQuery
          accounts_nonQuery r hReady.known hReady.builtIn
    | reader =>
        exact attemptReaderOn_explained d c r hReady.known
          hReady.builtIn
  refine ((attempt_steps d c e r w).and hExplained).mono ?_
  rintro x w' ⟨hSteps, hExplained⟩
  refine ⟨fun f hFail => hReady.steps (hSteps f hFail), ?_⟩
  exact fun f hFail => hExplained f (failureOf_eq_some hFail)

/- The attempts of a command, and what their failures are. -/
theorem recording_follows
    {cluster : String}
    {k : Cluster}
    {w : World}
    (d : DataAccess)
    (c : Command)
    (e : Entry)
    (hCluster : d.cluster cluster = .ok k)
    (hRanked : k.policy.IsRanked)
    (hReady : Ready ss os w) :
    Act.Ends (d.recording cluster c e) [] w fun _ trail _ =>
      (∀ m ∈ trail, m.IsExplained c) ∧
        Follows (k.policy.shouldRetry c) 0 k.members.length
          trail := by
  refine (routed_follows (Ready ss os)
    (fun r w x w' =>
      Attempted.IsExplained c ⟨r, w, failureOf x, w'⟩)
    d cluster c (e.attempt d c)
    (fun r w hW => attempt_ready d c e r hW) ?_ ?_ hReady).mono ?_
  · intro k w hW
    refine (rank_ledger k w).mono ?_
    intro _ w' hLedger
    have hBackend : w'.backend = w.backend :=
      congrArg Ledger.backend hLedger
    exact ⟨hLedger ▸ hW.known, hBackend ▸ hW.builtIn⟩
  · intro p r w hW
    refine (reportTo_makes p r false w 0 (Nat.zero_le _)).mono ?_
    exact fun _ w' hSteps => hW.steps hSteps
  · rintro _ trail _ ⟨hFits, -, hFollows⟩
    refine ⟨fun m hMem f hFail => ?_, ?_⟩
    · rcases hFits m hMem with ⟨x, hSame, hExplained⟩
      exact hExplained f (hSame ▸ hFail)
    · exact hFollows k hCluster _ (World.rank_length hRanked w)

end DataAccess

namespace Workspace

/-
  After any requests, and for all ways to run a command that
  is not safe to repeat: an attempt that sent the main
  statement is followed by another just if its failure is
  misjudged, and a member and an attempt are left.
-/
theorem repeated_iff_misjudged
    {d : DataAccess}
    {cluster : String}
    {k : Cluster}
    {c : Command}
    {most : Option Nat}
    {backend : String → Backend}
    (hBuiltIn : ∀ r, (backend r).IsBuiltIn r)
    (hCluster : d.cluster cluster = .ok k)
    (hRanked : k.policy.IsRanked)
    (hRetry : k.policy.retry = .standard most)
    (hUnsafe : c.retrySafe = false)
    (qs : List Request)
    (e : Entry) :
    Act.Ends (run qs) (ofAccess d) (World.initial backend)
      fun _ _ w =>
        ∀ earlier m later,
          d.trail cluster c e w = earlier ++ m :: later →
          m.Sent c →
          (later ≠ [] ↔ m.IsMisjudged c ∧
            earlier.length + 1 < k.members.length ∧
            ∀ n, most = some n → earlier.length + 1 < n) := by
  refine (run_follows qs (ofAccess d) (World.initial backend)
    (tidy_ofAccess d)).mono ?_
  intro _ ws w hFollows
  have hInitial := Scene.Known.initial backend
  have hBackend : w.backend = backend :=
    (hFollows.steps.custody hInitial.sound).1
  have hReady : DataAccess.Ready _ _ w :=
    ⟨hInitial.steps hFollows.steps, hBackend ▸ hBuiltIn⟩
  intro earlier m later hSplit hSent
  rcases DataAccess.recording_follows d c e hCluster hRanked hReady
    with ⟨hExplained, hTrail⟩
  have hMember : m ∈ d.trail cluster c e w := by
    rw [hSplit]
    exact List.mem_append_right _ (List.mem_cons_self ..)
  rw [hTrail earlier m later hSplit,
    Attempted.isMisjudged_iff (hExplained m hMember) hSent]
  have hRule (f : Failure) (n : Nat) :
      k.policy.shouldRetry c f n = true ↔
        f.isPreExecution = true ∧ ∀ m, most = some m → n < m := by
    rw [Policy.shouldRetry, hRetry]
    exact Policy.standardRetry_unsafe hUnsafe most f n
  simp only [hRule, Nat.zero_add]
  constructor
  · rintro ⟨hMembers, f, hFail, hPre, hMost⟩
    exact ⟨⟨f, hFail, hPre⟩, hMembers, hMost⟩
  · rintro ⟨⟨f, hFail, hPre⟩, hMembers, hMost⟩
    exact ⟨hMembers, f, hFail, hPre, hMost⟩

------------------------------------------------------------
-- A command that is repeated
------------------------------------------------------------

def mockMember (name : String) : Repository :=
  ⟨name, "mock", true, 0, .verbatim "MOCK" name false⟩

/- Two members that are tried in their order. -/
def pair : Cluster :=
  ⟨"pair", 0, true, [mockMember "a", mockMember "b"],
    ⟨"ordered", .configured, .standard none, false⟩⟩

def pairAccess : DataAccess :=
  ⟨[("a", mockMember "a"), ("b", mockMember "b")], [pair], 30⟩

/- The first engine loses its connection in the middle. -/
def losing (repository : String) : Backend :=
  if repository = "a" then
    { Backend.willing with
      fetch := fun _ _ =>
        ⟨0, some (.error
          (.ofDriver "a" .executing (.tls "close notify")))⟩ }
  else Backend.willing

theorem losing_isBuiltIn
    (r : String) : (losing r).IsBuiltIn r := by
  intro n s reply hReply
  refine .inr fun f hMem => ?_
  unfold losing at hReply
  split at hReply
  · next hFirst =>
    cases hReply
    rw [hFirst]
    exact ⟨_, List.mem_singleton.mp hMem⟩
  · cases hReply
    simp [Progress.failures, Outcome.failures, Backend.oneRow]
      at hMem

def insertion : Command :=
  (Command.ofText .text "INSERT INTO t VALUES (1)").retryUnsafe

/- The first of two attempts has sent the statement. -/
theorem insertion_sent :
    ∃ m m', pairAccess.trail "pair" insertion .nonQuery
      (World.initial losing) = [m, m'] ∧ m.Sent insertion := by
  have hTwo : (pairAccess.trail "pair" insertion .nonQuery
      (World.initial losing)).length = 2 := by
    decide +kernel
  have hFirst : (pairAccess.trail "pair" insertion .nonQuery
      (World.initial losing)).head?.any
        (·.sendsPlainly insertion) = true := by
    decide +kernel
  rcases List.length_eq_two.mp hTwo with ⟨m, m', hTrail⟩
  rw [hTrail] at hFirst
  exact ⟨m, m', hTrail, Attempted.sent_of_sendsPlainly hFirst⟩

/-
  A statement that is unsafe to repeat is sent twice, since a
  failure while it was executed counts as one of opening.
-/
theorem insertion_is_misjudged :
    ∃ m m', pairAccess.trail "pair" insertion .nonQuery
      (World.initial losing) = [m, m'] ∧
      m.Sent insertion ∧ m.IsMisjudged insertion := by
  rcases insertion_sent with ⟨m, m', hTrail, hSent⟩
  refine ⟨m, m', hTrail, hSent, ?_⟩
  have hIff := repeated_iff_misjudged (k := pair)
    losing_isBuiltIn rfl nofun rfl rfl [] .nonQuery [] m [m']
    hTrail hSent
  exact (hIff.mp nofun).1

/- A command that is not safe to repeat may be sent twice. -/
theorem insertion_is_repeated :
    ¬ ∀ (d : DataAccess) (cluster : String) (k : Cluster)
      (c : Command) (most : Option Nat)
      (backend : String → Backend),
      (∀ r, (backend r).IsBuiltIn r) →
      d.cluster cluster = .ok k → k.policy.IsRanked →
      k.policy.retry = .standard most → c.retrySafe = false →
      ∀ (qs : List Request) (e : Entry),
        Act.Ends (run qs) (ofAccess d) (World.initial backend)
          fun _ _ w => ∀ earlier m later,
            d.trail cluster c e w = earlier ++ m :: later →
            m.Sent c → later = [] := by
  intro h
  rcases insertion_sent with ⟨m, m', hTrail, hSent⟩
  have hLast := h pairAccess "pair" pair insertion none losing
    losing_isBuiltIn rfl nofun rfl rfl [] .nonQuery [] m [m']
    hTrail hSent
  cases hLast

end Workspace

end Failover
