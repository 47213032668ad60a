import Failover.Proofs.Access.Recording
import Failover.Proofs.Access.Wired
import Failover.Proofs.Cluster.Route
import Failover.Proofs.Health.Fallback

/-
  The repositories that one command on a cluster is tried on.
  Each place in the cluster's list of databases gives one
  attempt at most, and each attempt that fails counts once.  A
  repository that is listed at several places is tried as often
  as that, since its name may be repeated.

  Key definitions include:
    * `Attempted.records`
    * `failuresOn`
    * `DataAccess.TakesPlaces`

  Main statements:
    * `DataAccess.recording_ranked`
    * `DataAccess.IsBuiltOf.members_subperm`
    * `DataAccess.attempts_are_listed`
-/

namespace Failover

------------------------------------------------------------
-- Failures that are counted
------------------------------------------------------------

/- The failures of a repository among some outcomes. -/
theorem foldl_tallied_failures
    (xs : List (String × Bool))
    (tallies : String → Tally)
    (name : String) :
    (xs.foldl tallied tallies name).failures =
      (tallies name).failures + xs.count (name, false) := by
  induction xs generalizing tallies with
  | nil => rfl
  | cons x xs ih =>
      obtain ⟨other, ok⟩ := x
      rw [List.foldl_cons, ih, List.count_cons]
      by_cases hThis : name = other
      · subst hThis
        rw [tallied_this]
        cases ok with
        | true => simp [Tally.count]
        | false =>
            simp only [Tally.count, BEq.rfl, if_true]
            omega
      · rw [tallied_other tallies hThis]
        simp [Ne.symm hThis]

namespace Attempted

/- The outcomes that are counted of an attempt. -/
def records
    (e : Entry)
    (m : Attempted) : List (String × Bool) :=
  e.records m.member.name m.failure?.isNone

/- An attempt on a repository that has failed. -/
def fails
    (name : String)
    (m : Attempted) : Bool :=
  m.member.name == name && m.failure?.isSome

/- A failure counts once, and a success as none. -/
theorem count_records
    (e : Entry)
    (m : Attempted)
    (name : String) :
    (m.records e).count (name, false) =
      if m.fails name then 1 else 0 := by
  unfold records fails
  cases hFailure : m.failure? with
  | none =>
      simp only [Option.isNone_none, Option.isSome_none,
        Bool.and_false, Bool.false_eq_true, if_false]
      unfold Entry.records
      split <;> simp
  | some f =>
      simp only [Option.isNone_some, Option.isSome_some,
        Bool.and_true]
      rw [Entry.records_failure, List.count_singleton]
      by_cases hName : m.member.name = name <;> simp [hName]

end Attempted

/- The attempts on a repository that have failed. -/
def failuresOn
    (name : String)
    (trail : List Attempted) : Nat :=
  trail.countP (·.fails name)

theorem count_flatMap_records
    (e : Entry)
    (trail : List Attempted)
    (name : String) :
    (trail.flatMap (·.records e)).count (name, false) =
      failuresOn name trail := by
  induction trail with
  | nil => rfl
  | cons m rest ih =>
      unfold failuresOn at ih ⊢
      rw [List.flatMap_cons, List.count_append, ih,
        m.count_records, List.countP_cons, Nat.add_comm]

/- Those that fail on a repository are attempts on it. -/
theorem failuresOn_le_count
    (name : String)
    (trail : List Attempted) :
    failuresOn name trail ≤
      (trail.map fun m => Text.lower m.member.name).count
        (Text.lower name) := by
  unfold failuresOn List.count
  rw [List.countP_map]
  apply List.countP_mono_left
  intro m _ hFails
  have hName : m.member.name = name := by
    unfold Attempted.fails at hFails
    simp only [Bool.and_eq_true, beq_iff_eq] at hFails
    exact hFails.1
  simp [hName]

------------------------------------------------------------
-- Attempts on record
------------------------------------------------------------

namespace DataAccess

/-
  Members that are visited are on record in turn, with all that
  was counted of them.  The induction is on those left.
-/
theorem visits_recorded
    (d : DataAccess)
    (c : Command)
    (e : Entry)
    (p : Policy)
    (members : List Repository)
    (trail : List Attempted)
    (w : World) :
    Act.Ends
      (Cluster.visits (recorded (e.attempt d c))
        (fun r ok => (liftM (reportTo p r ok) : Recording Unit))
        members) trail w fun _ trail' w' =>
      ∃ made, trail' = trail ++ made ∧
        made.map (·.member) = members ∧
        w'.tallies =
          (made.flatMap (·.records e)).foldl tallied
            w.tallies := by
  induction members generalizing trail w with
  | nil => exact ⟨[], (List.append_nil _).symm, rfl, rfl⟩
  | cons r rest ih =>
      unfold Cluster.visits Cluster.visit
      rw [Act.ends_bind, Act.ends_bind, ends_recorded]
      obtain ⟨x, w₁, hAttempt⟩ :=
        Effect.exists_leads (e.attempt d c r) w
      have hCounts := (Entry.attempt_counts hAttempt).2.tallies
      rw [hAttempt.ends_iff, Act.ends_bind, Act.ends_lift]
      refine (Entry.reportTo_change p r x.isOk w₁).mono ?_
      intro _ w₂ hReported
      rw [Act.ends_pure, Act.ends_bind]
      refine (ih _ w₂).mono ?_
      intro xs trail' w' hRest
      obtain ⟨made, rfl, hMade, hTallies⟩ := hRest
      refine ⟨⟨r, w, failureOf x, w₁⟩ :: made,
        List.append_assoc .., ?_, ?_⟩
      · rw [List.map_cons, hMade]
      · have hFirst : Attempted.records e
            ⟨r, w, failureOf x, w₁⟩ =
              e.records r.name x.isOk := by
          cases x <;> rfl
        change w'.tallies = _
        rw [hTallies, hReported.tallies, List.foldl_nil, hCounts,
          List.flatMap_cons, List.foldl_append, hFirst]

/-
  The attempts of a command are on the first of the members, as
  they are ranked, and each that fails is counted once.
-/
theorem recording_ranked
    {d : DataAccess}
    {cluster : String}
    {k : Cluster}
    (hCluster : d.cluster cluster = .ok k)
    (hRanked : k.policy.IsRanked)
    (c : Command)
    (e : Entry)
    (w : World) :
    Act.Ends (d.recording cluster c e) [] w fun _ trail w' =>
      (∃ ranked, ranked.Perm k.members ∧
        trail.map (·.member) <+: ranked) ∧
      ∀ name, (w'.tallies name).failures =
        (w.tallies name).failures + failuresOn name trail := by
  unfold recording routed
  rw [hCluster]
  simp only
  rw [Act.ends_bind, Act.ends_lift]
  refine (World.rank_orders hRanked w).mono ?_
  intro y w₁ hOrders
  rcases hOrders with ⟨f, -, rfl, rfl⟩ |
    ⟨ranked, rfl, hSome, hPerm, hOrder⟩
  · exact ⟨⟨_, .refl _, List.nil_prefix⟩, fun _ => rfl⟩
  · have hOrdered : w₁.tallies = w.tallies := by
      cases hOrder
      rfl
    refine (k.execute_course c ranked hSome _ _ [] w₁).mono ?_
    intro x trail w' hCourse
    obtain ⟨o, -, hVisits, -⟩ := hCourse
    obtain ⟨made, hTrail, hMade, hTallies⟩ :=
      (hVisits.ends_iff _).mp (visits_recorded d c e k.policy
        (ranked.take o.size) [] w₁)
    rw [List.nil_append] at hTrail
    subst hTrail
    constructor
    · refine ⟨ranked, hPerm, ?_⟩
      rw [hMade]
      exact List.take_prefix _ _
    · intro name
      rw [hTallies, foldl_tallied_failures,
        count_flatMap_records, hOrdered]

------------------------------------------------------------
-- Listed names
------------------------------------------------------------

section Listed

variable {registry : Registry}
variable {config : Config}
variable {policies : List Policy}
variable {d : DataAccess}

/- Repositories have the names that they are listed by. -/
theorem lowerNames_databases
    {names : List String}
    {databases : List Repository}
    (h : List.Forall₂ (StandsFor registry config d) names
      databases) :
    Config.foldedNames Repository.name databases =
      names.map Text.lower := by
  induction h with
  | nil => rfl
  | cons hStands _ ih =>
      obtain ⟨-, r, -, hName, hMade⟩ := hStands
      unfold Config.foldedNames at ih ⊢
      rw [List.map_cons, List.map_cons, ih, hMade.name, hName]

/- Each member comes from a place where its name is listed. -/
theorem IsBuiltOf.members_subperm
    {listed : Config.Cluster}
    {k : Cluster}
    (h : IsBuiltOf registry config policies d listed k) :
    (Config.foldedNames Repository.name k.members).Subperm
      (listed.databases.map Text.lower) := by
  obtain ⟨databases, hStand, hArranged⟩ := h.members
  have hKept : ((databases.zipIdx.filter (·.1.enabled)).map
      (·.1)).Sublist databases := by
    have hAll : ((databases.zipIdx.filter (·.1.enabled)).map
        (·.1)).Sublist (databases.zipIdx.map (·.1)) :=
      List.filter_sublist.map _
    rwa [List.zipIdx_map_fst] at hAll
  rw [← lowerNames_databases hStand]
  exact (hArranged.perm.map _).subperm.trans
    (hKept.map _).subperm

/- A policy that is configured has no rule of its own. -/
theorem IsPolicyOf.isRanked
    {k : Config.Cluster}
    {p : Policy}
    (h : IsPolicyOf config [] k p) : p.IsRanked := by
  have hConfigured
      {q : Config.Policy}
      (hMade : p.IsMadeOf k.name q) : p.IsRanked := by
    intro order
    cases hKind : q.kind with
    | cooldown =>
        rw [hMade.cooldown hKind]
        nofun
    | ordered =>
        rw [hMade.ordered hKind]
        nofun
    | roundRobin =>
        rw [hMade.roundRobin hKind]
        nofun
  cases h with
  | registered before after p hAll => simp at hAll
  | configured q p _ _ _ _ hMade => exact hConfigured hMade
  | default p _ _ _ hMade => exact hConfigured hMade

/- A cluster that is found was built from a configured one. -/
theorem IsWired.cluster_isBuiltOf
    {cluster : String}
    {k : Cluster}
    (h : IsWired registry policies config d)
    (hCluster : d.cluster cluster = .ok k) :
    ∃ listed ∈ config.clusters,
      IsBuiltOf registry config policies d listed k := by
  obtain ⟨built, hBuilt, hArranged, -⟩ := h.clusters
  have hThere : k ∈ d.clusters := by
    unfold DataAccess.cluster at hCluster
    split at hCluster
    · next hFound =>
      cases hCluster
      exact List.mem_of_find?_eq_some hFound
    · cases hCluster
  have hPerm := hArranged.perm
  rw [List.zipIdx_map_fst] at hPerm
  exact exists_related hBuilt (hPerm.mem_iff.mp hThere)

end Listed

------------------------------------------------------------
-- Attempts on listed repositories
------------------------------------------------------------

/-
  Each attempt takes a place at which its repository's name is
  listed, and each that fails is counted once.
-/
structure TakesPlaces
    (names : List String)
    (trail : List Attempted)
    (w w' : World) : Prop where
  places :
    (trail.map fun m => Text.lower m.member.name).Subperm
      (names.map Text.lower)
  failures : ∀ name, (w'.tallies name).failures =
    (w.tallies name).failures + failuresOn name trail

section TakesPlaces

variable {names : List String}
variable {trail : List Attempted}
variable {w w' : World}

/- A repository fails as often as it is listed, at most. -/
theorem TakesPlaces.failures_le
    (h : TakesPlaces names trail w w')
    (name : String) :
    (w'.tallies name).failures ≤ (w.tallies name).failures +
      (names.map Text.lower).count (Text.lower name) := by
  rw [h.failures name]
  apply Nat.add_le_add_left
  exact (failuresOn_le_count name trail).trans
    (h.places.count_le _)

theorem TakesPlaces.names_nodup
    (h : TakesPlaces names trail w w')
    (hDistinct : (names.map Text.lower).Nodup) :
    (trail.map (·.member.name)).Nodup := by
  have hLower :
      (trail.map fun m => Text.lower m.member.name).Nodup := by
    rw [List.nodup_iff_count_le_one] at hDistinct ⊢
    intro n
    exact (h.places.count_le n).trans (hDistinct n)
  apply List.Nodup.of_map Text.lower
  rwa [List.map_map]

end TakesPlaces

/-
  A command on a cluster of a layer that was built, with the
  policies of its configuration alone.  Each attempt takes a
  place in the cluster's list of databases.  If these names are
  distinct in lower case no repository is tried twice, and none
  has more than one failure counted.
-/
theorem attempts_are_listed
    {registry : Registry}
    {config : Config}
    {d : DataAccess}
    {cluster : String}
    {k : Cluster}
    {w₀ w₁ : World}
    (hBuilt : Effect.Leads (build registry [] config) w₀ (.ok d)
      w₁)
    (hCluster : d.cluster cluster = .ok k)
    (c : Command)
    (e : Entry)
    (w : World) :
    ∃ listed ∈ config.clusters, listed.name = k.name ∧
      Effect.Ends (e.execute d cluster c) w fun _ w' =>
        let trail := d.trail cluster c e w
        TakesPlaces listed.databases trail w w' ∧
        ((listed.databases.map Text.lower).Nodup →
          (trail.map (·.member.name)).Nodup ∧
          ∀ name, (w'.tallies name).failures ≤
            (w.tallies name).failures + 1) := by
  have hWired := ((hBuilt.ends_iff _).mp
    (build_wires registry [] config w₀) d rfl).2
  obtain ⟨listed, hListed, hMade⟩ :=
    hWired.cluster_isBuiltOf hCluster
  refine ⟨listed, hListed, hMade.name.symm, ?_⟩
  rw [← recording_returned]
  refine Act.Ends.mono (ends_trail (recording_ranked hCluster
    hMade.policy.isRanked c e w)) ?_
  intro x _ w' hRecorded
  obtain ⟨⟨ranked, hPerm, hPrefix⟩, hFailures⟩ := hRecorded
  have hTakes : TakesPlaces listed.databases
      (d.trail cluster c e w) w w' := by
    refine ⟨?_, hFailures⟩
    have hFirst := (hPrefix.sublist.map
      fun r => Text.lower r.name).subperm
    rw [List.map_map] at hFirst
    exact hFirst.trans ((hPerm.map _).subperm.trans
      hMade.members_subperm)
  refine ⟨hTakes, fun hDistinct => ?_⟩
  refine ⟨hTakes.names_nodup hDistinct, fun name => ?_⟩
  refine (hTakes.failures_le name).trans ?_
  apply Nat.add_le_add_left
  exact List.nodup_iff_count_le_one.mp hDistinct _

/- Two repositories, and a cluster that lists two names. -/
def listing (second : String) : Config :=
  { repositories :=
      [⟨"a", some "sqlite", "a.db", none, true, 0, {}⟩,
        ⟨"b", some "sqlite", "b.db", none, true, 1, {}⟩],
    policies := [{ name := "plain", kind := .ordered }],
    clusters := [⟨"main", ["a", second], 0, true, "plain"⟩] }

def sqliteMember (name : String) (sequence : Int) : Repository :=
  ⟨name, "sqlite", true, sequence,
    .ofEngine .sqlite (Repository.settings
      ⟨name, some "sqlite", name ++ ".db", none, true, sequence,
        {}⟩)⟩

def memberA : Repository :=
  sqliteMember "a" 0

def memberB : Repository :=
  sqliteMember "b" 1

/- The layer whose cluster has one of them as its second. -/
def listingAccess (second : Repository) : DataAccess :=
  ⟨[("a", memberA), ("b", memberB)],
    [⟨"main", 0, true, [memberA, second],
      .ofConfig "main" { name := "plain", kind := .ordered }⟩],
    30⟩

theorem listing_leads
    {name : String}
    {second : Repository}
    (h : (name, second) = ("A", memberA) ∨
      (name, second) = ("b", memberB))
    (w : World) :
    ∃ w₁, Effect.Leads (build .builtin [] (listing name)) w
      (.ok (listingAccess second)) w₁ := by
  let policy : Policy :=
    .ofConfig "main" { name := "plain", kind := .ordered }
  let members := [memberA, second]
  have hOrdered : Cluster.ordered members = members := by
    rcases h with h | h <;> cases h <;>
      exact List.mergeSort_of_pairwise (by decide)
  have hBuilt :
      ((build .builtin [] (listing name)).run w).1 =
        .ok ⟨[("a", memberA), ("b", memberB)],
          sortClusters [.ofMembers "main" 0 true members policy],
          30⟩ := by
    rcases h with h | h <;> cases h <;> rfl
  refine ⟨((build .builtin [] (listing name)).run w).2,
    Prod.ext ?_ rfl⟩
  rw [hBuilt, sortClusters, List.mergeSort_singleton,
    Cluster.ofMembers, hOrdered]
  rfl

def selection : Command :=
  .ofText .text "SELECT 1"

/- Two databases that are listed once each are tried once each. -/
theorem listed_once_is_tried_once :
    ∃ d k w₁,
      Effect.Leads (build .builtin [] (listing "b"))
        (World.initial refusing) (.ok d) w₁ ∧
      d.cluster "main" = .ok k ∧
      Effect.Ends (d.executeNonQuery "main" selection)
        (World.initial refusing) fun _ w' =>
          ((d.trail "main" selection .nonQuery
            (World.initial refusing)).map
              (·.member.name)).Nodup ∧
          ∀ name, (w'.tallies name).failures ≤ 1 := by
  obtain ⟨w₁, hBuilt⟩ := listing_leads (.inr rfl)
    (World.initial refusing)
  have hCluster : (listingAccess memberB).cluster
      "main" = .ok _ := rfl
  refine ⟨_, _, w₁, hBuilt, hCluster, ?_⟩
  obtain ⟨k, hK, -, hTried⟩ := attempts_are_listed hBuilt
    hCluster selection .nonQuery (World.initial refusing)
  refine hTried.mono ?_
  intro x w' hTakes
  have hOnly : k.databases = ["a", "b"] := by
    cases List.mem_singleton.mp hK
    rfl
  have hDistinct : (k.databases.map Text.lower).Nodup := by
    rw [hOnly]
    decide +kernel
  obtain ⟨hNames, hFailures⟩ := hTakes.2 hDistinct
  refine ⟨hNames, fun name => ?_⟩
  exact hFailures name

/- A name that is listed again in another case is no error. -/
theorem listed_again_is_tried_twice :
    ¬ ∀ (registry : Registry) (config : Config)
      (d : DataAccess) (cluster : String) (k : Cluster)
      (c : Command) (e : Entry) (w₀ w₁ w : World),
      Effect.Leads (build registry [] config) w₀ (.ok d) w₁ →
      d.cluster cluster = .ok k →
      ((d.trail cluster c e w).map (·.member.name)).Nodup := by
  intro h
  obtain ⟨w₁, hBuilt⟩ := listing_leads (.inl rfl)
    (World.initial refusing)
  have hNodup := h .builtin (listing "A") _ "main" _ selection
    .nonQuery _ w₁ (World.initial refusing) hBuilt rfl
  have hTwice : ((listingAccess memberA).trail "main"
      selection .nonQuery (World.initial refusing)).map
        (·.member.name) = ["a", "a"] := by
    decide +kernel
  rw [hTwice] at hNodup
  revert hNodup
  decide

end DataAccess

end Failover
