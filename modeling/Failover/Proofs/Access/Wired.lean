import Failover.Access.Build
import Failover.Proofs.Cluster.Order
import Failover.Proofs.Config.Valid
import Failover.Proofs.Effect.Ends
import Mathlib.Data.List.Forall2

/-
  How a data access layer is wired.  The repositories of the
  configuration are found under their names, and the clusters
  have the members and the policies that are configured for
  them.  A configuration that passes validation is built, if
  the makers of the engines make the providers.

  Key definitions include:
    * `Repository.IsMadeOf`, `Repository.CanBeMade`
    * `Policy.IsMadeOf`
    * `DataAccess.IsPolicyOf`, `DataAccess.StandsFor`
    * `DataAccess.IsBuiltOf`
    * `DataAccess.IsWired`

  Main statements:
    * `DataAccess.build_wires`
    * `DataAccess.valid_is_built`
-/

namespace Failover

------------------------------------------------------------
-- Repositories
------------------------------------------------------------

namespace Repository

/-
  The repository has what is configured for it, and so has its
  provider: the name, the connection string, the schema and
  the pool.
-/
structure IsMadeOf
    (registry : Registry)
    (c : Config.Repository)
    (r : Repository) : Prop where
  name : r.name = c.name
  engine : c.engineKey = .ok r.engine
  enabled : r.enabled = c.enabled
  sequence : r.sequence = c.sequence
  provider : ∃ make,
    registry.maker? r.engine = some make ∧
    make ⟨c.name, c.connectionString, c.schema, c.pool⟩ =
      .ok r.provider

/- A maker of the engine is registered, and it succeeds. -/
def CanBeMade
    (registry : Registry)
    (c : Config.Repository) : Prop :=
  ∃ key make provider,
    c.engineKey = .ok key ∧
    registry.maker? key = some make ∧
    make ⟨c.name, c.connectionString, c.schema, c.pool⟩ =
      .ok provider

variable {registry : Registry}
variable {c : Config.Repository}

/- A repository that is made is made of its own settings. -/
theorem ofConfig_isMadeOf
    {r : Repository}
    (h : ofConfig registry c = .ok r) : r.IsMadeOf registry c := by
  obtain ⟨key, hKey, hRest⟩ := bind_eq_ok_iff.mp h
  obtain ⟨provider, hMade, hPure⟩ := bind_eq_ok_iff.mp hRest
  cases hPure
  cases hEngine : c.engineKey with
  | error e =>
      rw [hEngine] at hKey
      cases hKey
  | ok key' =>
      rw [hEngine] at hKey
      cases hKey
      refine ⟨rfl, hEngine, rfl, rfl, ?_⟩
      unfold Registry.create at hMade
      split at hMade
      · next make hMaker => exact ⟨make, hMaker, hMade⟩
      · cases hMade

/-
  A repository can be made if its engine has a maker and the
  maker gives a provider.
-/
theorem CanBeMade.ofConfig
    (h : CanBeMade registry c) :
    ∃ r, ofConfig registry c = .ok r := by
  obtain ⟨key, make, provider, hKey, hMaker, hMade⟩ := h
  have hCreated : registry.create key (settings c) =
      .ok provider := by
    rw [Registry.create, hMaker]
    exact hMade
  refine ⟨⟨c.name, key, c.enabled, c.sequence, provider⟩, ?_⟩
  rw [Repository.ofConfig, hKey]
  change (registry.create key (settings c) >>= _) = _
  rw [hCreated]
  rfl

end Repository

/-
  The policy is what is configured for it, and has the turns
  of one cluster if it takes turns.
-/
structure Policy.IsMadeOf
    (cluster : String)
    (c : Config.Policy)
    (p : Policy) : Prop where
  name : p.name = c.name
  cooldown : c.kind = .cooldown →
    p.ranking =
      .cooldown c.failureThreshold (c.cooldown * 1000000)
  ordered : c.kind = .ordered → p.ranking = .configured
  roundRobin : c.kind = .roundRobin →
    p.ranking = .rotating (.ofCluster cluster)
  retry : p.retry = .standard c.maxAttempts
  listens : p.listens = false

/-
  A policy that is made of a configuration has the kind and
  the settings that the configuration names.
-/
theorem Policy.ofConfig_isMadeOf
    (cluster : String)
    (c : Config.Policy) :
    (Policy.ofConfig cluster c).IsMadeOf cluster c where
  name := rfl
  cooldown := fun hKind => by rw [Policy.ofConfig, hKind]
  ordered := fun hKind => by rw [Policy.ofConfig, hKind]
  roundRobin := fun hKind => by rw [Policy.ofConfig, hKind]
  retry := rfl
  listens := rfl

namespace DataAccess

/- A name finds the first entry under it. -/
theorem lookup_entry
    (n k : String)
    (r : Repository)
    (rest : List (String × Repository)) :
    ((k, r) :: rest).lookup n =
      if n = k then some r else rest.lookup n := by
  by_cases hKey : n = k
  · simp [hKey]
  · have hNot : (n == k) = false := beq_eq_false_iff_ne.mpr hKey
    rw [List.lookup_cons, hNot, if_neg hKey]

/- The last repository of a name takes its place. -/
theorem lookup_insertRepository
    (key n : String)
    (r : Repository)
    (all : List (String × Repository)) :
    (insertRepository key r all).lookup n =
      if n = key then some r else all.lookup n := by
  induction all with
  | nil => exact lookup_entry n key r []
  | cons entry rest ih =>
      obtain ⟨k, q⟩ := entry
      rw [insertRepository]
      by_cases hSame : k = key
      · subst hSame
        rw [if_pos rfl, lookup_entry, lookup_entry]
        split <;> rfl
      · rw [if_neg hSame, lookup_entry, lookup_entry, ih]
        by_cases hKey : n = k
        · rw [if_pos hKey, if_pos hKey,
            if_neg fun h => hSame (hKey.symm.trans h)]
        · rw [if_neg hKey, if_neg hKey]

section Repositories

variable {registry : Registry}

/-
  Those that are made are found under their names in lower
  case, if these are distinct, and under other names what was
  there before.  The induction is on those still to be made.
-/
theorem makeRepositories_finds
    (made : List (String × Repository))
    (cs : List Config.Repository)
    (w : World) :
    Effect.Ends (makeRepositories registry made cs) w
      fun result _ => ∀ all, result = .ok all →
        (∀ n, n ∉ Config.foldedNames Config.Repository.name cs →
          all.lookup n = made.lookup n) ∧
        ((Config.foldedNames Config.Repository.name cs).Nodup →
          ∀ c ∈ cs, ∃ r : Repository, r.IsMadeOf registry c ∧
            all.lookup (Text.lower c.name) = some r) := by
  induction cs generalizing made w with
  | nil =>
      intro all hAll
      cases hAll
      constructor
      · intro n hN
        rfl
      · intro hDistinct c hC
        cases hC
  | cons c rest ih =>
      rw [makeRepositories]
      cases hMade : Repository.ofConfig registry c with
      | error f => exact nofun
      | ok r =>
          rw [Effect.ends_bind]
          intro all hAll
          obtain ⟨hOthers, hThese⟩ := ih _ _ all hAll
          have hNames : Config.foldedNames Config.Repository.name
              (c :: rest) = Text.lower c.name ::
                Config.foldedNames Config.Repository.name rest :=
            rfl
          rw [hNames]
          constructor
          · intro n hN
            rw [List.mem_cons, not_or] at hN
            rw [hOthers n hN.2, lookup_insertRepository,
              if_neg hN.1]
          · intro hDistinct x hX
            rw [List.nodup_cons] at hDistinct
            rcases List.mem_cons.mp hX with rfl | hX
            · refine ⟨r, Repository.ofConfig_isMadeOf hMade, ?_⟩
              rw [hOthers _ hDistinct.1, lookup_insertRepository,
                if_pos rfl]
            · exact hThese hDistinct.2 x hX

/- All repositories are made if each can be. -/
theorem makeRepositories_returns
    {cs : List Config.Repository}
    (h : ∀ c ∈ cs, Repository.CanBeMade registry c)
    (made : List (String × Repository))
    (w : World) :
    Effect.Ends (makeRepositories registry made cs) w
      fun result _ => ∃ all, result = .ok all := by
  induction cs generalizing made w with
  | nil => exact ⟨made, rfl⟩
  | cons c rest ih =>
      obtain ⟨r, hMade⟩ := (h c (List.mem_cons_self ..)).ofConfig
      rw [makeRepositories, hMade]
      rw [Effect.ends_bind]
      apply ih
      intro x hX
      exact h x (List.mem_cons_of_mem _ hX)

end Repositories

------------------------------------------------------------
-- Clusters
------------------------------------------------------------

/-
  The policy that a cluster follows: the first one of the name
  that is registered in code, else the configured one, and else
  the one that is built in.
-/
inductive IsPolicyOf
    (c : Config)
    (policies : List Policy)
    (k : Config.Cluster) : Policy → Prop where
  | registered (before after : List Policy) (p : Policy)
      (hAll : policies = before ++ p :: after)
      (hName : Text.sameName p.name k.fallbackPolicy = true)
      (hFirst : ∀ q ∈ before,
        Text.sameName q.name k.fallbackPolicy = false) :
      IsPolicyOf c policies k p
  | configured (q : Config.Policy) (p : Policy)
      (hNone : ∀ q ∈ policies,
        Text.sameName q.name k.fallbackPolicy = false)
      (hMem : q ∈ c.policies)
      (hName : Text.sameName q.name k.fallbackPolicy = true)
      (hOnly : ∀ other ∈ c.policies,
        Text.sameName other.name k.fallbackPolicy = true →
          other = q)
      (hMade : p.IsMadeOf k.name q) :
      IsPolicyOf c policies k p
  | default (p : Policy)
      (hNone : ∀ q ∈ policies,
        Text.sameName q.name k.fallbackPolicy = false)
      (hNot : ∀ q ∈ c.policies,
        Text.sameName q.name k.fallbackPolicy = false)
      (hName : Text.sameName k.fallbackPolicy "default" = true)
      (hMade : p.IsMadeOf k.name
        ⟨"default", .cooldown, 1, 30, none⟩) :
      IsPolicyOf c policies k p

/- A name finds a repository that was configured under it. -/
structure StandsFor
    (registry : Registry)
    (c : Config)
    (d : DataAccess)
    (n : String)
    (made : Repository) : Prop where
  found : d.repository n = .ok made
  configured : ∃ r ∈ c.repositories,
    Text.lower r.name = Text.lower n ∧ made.IsMadeOf registry r

/-
  A cluster's members are those of its databases that are
  enabled, by their sequence numbers and then by their places.
-/
structure IsBuiltOf
    (registry : Registry)
    (c : Config)
    (policies : List Policy)
    (d : DataAccess)
    (k : Config.Cluster)
    (made : Cluster) : Prop where
  name : made.name = k.name
  sequence : made.sequence = k.sequence
  enabled : made.enabled = k.enabled
  members : ∃ databases : List Repository,
    List.Forall₂ (StandsFor registry c d)
      k.databases databases ∧
    IsArranged Repository.sequence
      (databases.zipIdx.filter (·.1.enabled)) made.members
  policy : IsPolicyOf c policies k made.policy

/-
  All that is configured is found under its name, and clusters
  are in the order of their sequence numbers, and then in that
  of the configuration.
-/
structure IsWired
    (registry : Registry)
    (policies : List Policy)
    (c : Config)
    (d : DataAccess) : Prop where
  repositories : ∀ r ∈ c.repositories, ∃ made : Repository,
    made.IsMadeOf registry r ∧ d.repository r.name = .ok made
  clusters : ∃ built : List Cluster,
    List.Forall₂ (IsBuiltOf registry c policies d)
      c.clusters built ∧
    IsArranged Cluster.sequence built.zipIdx d.clusters ∧
    ∀ k ∈ built, d.cluster k.name = .ok k

section Clusters

variable {registry : Registry}
variable {c : Config}
variable {policies : List Policy}

/- Every configured repository was made, and is there. -/
def HasRepositories
    (registry : Registry)
    (c : Config)
    (all : List (String × Repository)) : Prop :=
  ∀ r ∈ c.repositories, ∃ made : Repository,
    made.IsMadeOf registry r ∧
    all.lookup (Text.lower r.name) = some made

/-
  Each database that a cluster names is a repository that was
  made.
-/
theorem HasRepositories.member
    {all : List (String × Repository)}
    {n : String}
    (h : HasRepositories registry c all)
    (hN : Text.lower n ∈
      Config.foldedNames Config.Repository.name c.repositories) :
    ∃ made : Repository, DataAccess.member all n = .ok made ∧
      ∃ r ∈ c.repositories,
        Text.lower r.name = Text.lower n ∧
        made.IsMadeOf registry r := by
  obtain ⟨r, hR, hName⟩ := List.mem_map.mp hN
  obtain ⟨made, hMade, hFound⟩ := h r hR
  refine ⟨made, ?_, r, hR, hName, hMade⟩
  rw [DataAccess.member, find?, ← hName, hFound]

/- The names of clusters do not depend on their policies. -/
theorem relaxed_clusterNames :
    Config.foldedNames Config.Cluster.name
        (relaxed c policies).clusters =
      Config.foldedNames Config.Cluster.name c.clusters := by
  unfold Config.foldedNames relaxed
  rw [List.map_map]
  apply List.map_congr_left
  intro k hK
  rw [Function.comp_apply]
  split <;> rfl

/-
  The databases of each cluster are configured, whichever
  policies are registered in code.
-/
theorem knows_members
    (hValid : (relaxed c policies).IsValid)
    {k : Config.Cluster}
    (hK : k ∈ c.clusters) :
    ∀ n ∈ k.databases, Text.lower n ∈
      Config.foldedNames Config.Repository.name
        c.repositories := by
  have hChecked := hValid.clusters _
    (List.mem_map_of_mem hK)
  intro n hN
  apply hChecked.members
  split
  · exact hN
  · exact hN

/- In a valid configuration each cluster finds a policy. -/
theorem policyFor_returns
    (hValid : (relaxed c policies).IsValid)
    {k : Config.Cluster}
    (hK : k ∈ c.clusters) :
    ∃ p, policyFor c policies k = .ok p := by
  have hChecked := (hValid.clusters _
    (List.mem_map_of_mem hK)).policy
  unfold policyFor
  cases hRegistered : registered? policies k.fallbackPolicy with
  | some p => exact ⟨p, rfl⟩
  | none =>
      rw [hRegistered] at hChecked
      change (c.policy? k.fallbackPolicy).isSome = true at hChecked
      obtain ⟨p, hP⟩ := Option.isSome_iff_exists.mp hChecked
      rw [hP]
      exact ⟨.ofConfig k.name p, rfl⟩

/- The policy is a configured one, or the default one. -/
theorem policy?_isPolicyOf
    (hDistinct :
      (Config.foldedNames Config.Policy.name c.policies).Nodup)
    {k : Config.Cluster}
    {p : Config.Policy}
    (hNone : ∀ q ∈ policies,
      Text.sameName q.name k.fallbackPolicy = false)
    (h : c.policy? k.fallbackPolicy = some p) :
    IsPolicyOf c policies k (.ofConfig k.name p) := by
  have hMade := Policy.ofConfig_isMadeOf k.name p
  unfold Config.policy? at h
  cases hFind : c.policies.find? fun q =>
      Text.sameName q.name k.fallbackPolicy with
  | some q =>
      rw [hFind] at h
      cases h
      have hName : Text.sameName p.name k.fallbackPolicy = true :=
        Config.sameName_of_find? hFind
      have hMem : p ∈ c.policies :=
        List.mem_of_find?_eq_some hFind
      refine .configured p _ hNone hMem hName ?_ hMade
      intro q hQ hSame
      apply Config.eq_of_lower hDistinct hQ hMem
      rw [Text.lower_of_sameName hSame,
        Text.lower_of_sameName hName]
  | none =>
      rw [hFind] at h
      change (if Text.sameName k.fallbackPolicy "default" then
        some {} else none) = some p at h
      by_cases hName :
          Text.sameName k.fallbackPolicy "default" = true
      · rw [if_pos hName] at h
        cases h
        exact .default _ hNone
          (Config.not_sameName_of_find? hFind) hName hMade
      · rw [if_neg hName] at h
        cases h

/-
  The policy of a cluster is the one that the rules of
  precedence give.
-/
theorem policyFor_isPolicyOf
    (hDistinct :
      (Config.foldedNames Config.Policy.name c.policies).Nodup)
    {k : Config.Cluster}
    {p : Policy}
    (h : policyFor c policies k = .ok p) :
    IsPolicyOf c policies k p := by
  unfold policyFor at h
  cases hRegistered : registered? policies k.fallbackPolicy with
  | some q =>
      rw [hRegistered] at h
      cases h
      obtain ⟨hName, before, after, hAll, hFirst⟩ :=
        List.find?_eq_some_iff_append.mp hRegistered
      apply IsPolicyOf.registered before after p hAll hName
      intro q hQ
      simpa using hFirst q hQ
  | none =>
      rw [hRegistered] at h
      have hNone := Config.not_sameName_of_find? hRegistered
      cases hPolicy : c.policy? k.fallbackPolicy with
      | some q =>
          rw [hPolicy] at h
          cases h
          exact policy?_isPolicyOf hDistinct hNone hPolicy
      | none =>
          rw [hPolicy] at h
          cases h

/- A cluster that is made has its members and its policy. -/
theorem makeCluster_isBuiltOf
    {d : DataAccess}
    {k : Config.Cluster}
    {made : Cluster}
    (hValid : (relaxed c policies).IsValid)
    (hAll : HasRepositories registry c d.repositories)
    (hK : k ∈ c.clusters)
    (h : makeCluster c policies d.repositories k = .ok made) :
    IsBuiltOf registry c policies d k made := by
  obtain ⟨databases, hDatabases, hRest⟩ := bind_eq_ok_iff.mp h
  obtain ⟨policy, hPolicy, hPure⟩ := bind_eq_ok_iff.mp hRest
  cases hPure
  have hEach := (List.forall₂_and_left _ _).mpr
    ⟨knows_members hValid hK, mapM_eq_ok_iff.mp hDatabases⟩
  have hStand : List.Forall₂ (StandsFor registry c d)
      k.databases databases := by
    apply hEach.imp
    intro n r hBoth
    obtain ⟨made, hFound, hConfigured⟩ := hAll.member hBoth.1
    cases hBoth.2.symm.trans hFound
    exact ⟨hFound, hConfigured⟩
  constructor
  · rfl
  · rfl
  · rfl
  · exact ⟨databases, hStand, Cluster.ordered_isArranged databases⟩
  · exact policyFor_isPolicyOf (c := c) hValid.policyNames hPolicy

/-
  Each cluster of a valid configuration can be made once its
  repositories are there.
-/
theorem makeCluster_returns
    {all : List (String × Repository)}
    (hValid : (relaxed c policies).IsValid)
    (hAll : HasRepositories registry c all)
    {k : Config.Cluster}
    (hK : k ∈ c.clusters) :
    ∃ made, makeCluster c policies all k = .ok made := by
  have hMembers : ∀ n ∈ k.databases,
      ∃ made, member all n = .ok made := by
    intro n hN
    obtain ⟨made, hFound, -⟩ :=
      hAll.member (knows_members hValid hK n hN)
    exact ⟨made, hFound⟩
  obtain ⟨databases, hDatabases⟩ := mapM_returns hMembers
  obtain ⟨policy, hPolicy⟩ := policyFor_returns hValid hK
  refine ⟨.ofMembers k.name k.sequence k.enabled databases
    policy, ?_⟩
  unfold makeCluster
  rw [hDatabases, hPolicy]
  rfl

/- Clusters are built under the names that are configured. -/
theorem built_names
    {d : DataAccess}
    {ks : List Config.Cluster}
    {built : List Cluster}
    (h : List.Forall₂ (IsBuiltOf registry c policies d) ks built) :
    Config.foldedNames Cluster.name built =
      Config.foldedNames Config.Cluster.name ks := by
  induction h with
  | nil => rfl
  | cons hMade _ ih =>
      unfold Config.foldedNames at ih ⊢
      rw [List.map_cons, List.map_cons, hMade.name, ih]

/-
  A name that is a cluster's in lower case finds the cluster if
  it is the cluster's up to ASCII case, and else it finds none.
-/
theorem cluster_of_lower
    {d : DataAccess}
    (hDistinct :
      (Config.foldedNames Cluster.name d.clusters).Nodup)
    {k : Cluster}
    (hK : k ∈ d.clusters)
    {n : String}
    (hLower : Text.lower k.name = Text.lower n) :
    d.cluster n =
      if Text.sameName k.name n then .ok k
      else .error (.clusterNotFound n) := by
  rw [cluster, Config.find?_sameName hDistinct hK hLower]
  by_cases hName : Text.sameName k.name n = true
  · rw [if_pos hName, if_pos hName]
  · rw [if_neg hName, if_neg hName]

end Clusters

------------------------------------------------------------
-- Building
------------------------------------------------------------

section Building

variable {registry : Registry}
variable {policies : List Policy}
variable {c : Config}

/- Clusters of one sequence number stay as configured. -/
theorem sortClusters_isArranged (ks : List Cluster) :
    IsArranged Cluster.sequence ks.zipIdx (sortClusters ks) := by
  have hSorted : IsArranged Cluster.sequence ks.zipIdx
      ((ks.zipIdx.map (·.1)).mergeSort
        (keyLE Cluster.sequence)) := by
    apply mergeSort_isArranged
    rw [List.zipIdx_map_snd]
    exact List.pairwise_lt_range'
  rw [List.zipIdx_map_fst] at hSorted
  exact hSorted

/- The clusters of a layer have the names that are configured. -/
theorem clusterNames_nodup
    {d : DataAccess}
    {built : List Cluster}
    (hConfigured : (Config.foldedNames Config.Cluster.name
      c.clusters).Nodup)
    (hBuilt : List.Forall₂ (IsBuiltOf registry c policies d)
      c.clusters built)
    (hOrder : IsArranged Cluster.sequence built.zipIdx
      d.clusters) :
    (Config.foldedNames Cluster.name d.clusters).Nodup := by
  have hPerm := hOrder.perm
  rw [List.zipIdx_map_fst] at hPerm
  unfold Config.foldedNames
  rw [(hPerm.map _).nodup_iff]
  change (Config.foldedNames Cluster.name built).Nodup
  rw [built_names hBuilt]
  exact hConfigured

/- The parts that were made are the wiring. -/
theorem isWired_of_made
    (hValid : (relaxed c policies).IsValid)
    {d : DataAccess}
    {built : List Cluster}
    (hAll : HasRepositories registry c d.repositories)
    (hBuilt : c.clusters.mapM
      (makeCluster c policies d.repositories) = .ok built)
    (hClusters : d.clusters = sortClusters built) :
    IsWired registry policies c d := by
  have hEach : List.Forall₂ (IsBuiltOf registry c policies d)
      c.clusters built := by
    have hMade := (List.forall₂_and_left _ _).mpr
      ⟨fun _ hK => hK, mapM_eq_ok_iff.mp hBuilt⟩
    apply hMade.imp
    intro k made hBoth
    exact makeCluster_isBuiltOf hValid hAll hBoth.1 hBoth.2
  have hOrder : IsArranged Cluster.sequence built.zipIdx
      d.clusters := by
    rw [hClusters]
    exact sortClusters_isArranged built
  have hConfigured : (Config.foldedNames Config.Cluster.name
      c.clusters).Nodup := by
    rw [← relaxed_clusterNames]
    exact hValid.clusterNames
  have hDistinct := clusterNames_nodup hConfigured hEach hOrder
  constructor
  · intro r hR
    obtain ⟨made, hMade, hFound⟩ := hAll r hR
    refine ⟨made, hMade, ?_⟩
    rw [repository, member, find?, hFound]
  · refine ⟨built, hEach, hOrder, ?_⟩
    intro k hK
    have hIn : k ∈ d.clusters := by
      have hPerm := hOrder.perm
      rw [List.zipIdx_map_fst] at hPerm
      exact hPerm.mem_iff.mpr hK
    rw [cluster_of_lower hDistinct hIn rfl,
      if_pos (Text.sameName_refl k.name)]

/-
  A data access layer that is built is wired as its
  configuration says, and the configuration is valid.
-/
theorem build_wires
    (registry : Registry)
    (policies : List Policy)
    (c : Config)
    (w : World) :
    Effect.Ends (build registry policies c) w fun result _ =>
      ∀ d, result = .ok d →
        (relaxed c policies).IsValid ∧
        IsWired registry policies c d := by
  unfold build
  cases hChecked : (relaxed c policies).validate with
  | error e => exact nofun
  | ok u =>
      have hValid := (Config.validate_eq_ok_iff _).mp hChecked
      rw [Effect.ends_bind]
      refine (makeRepositories_finds [] c.repositories w).mono ?_
      intro made w' hFinds
      cases made with
      | error f => exact nofun
      | ok all =>
          intro d hBuilt
          obtain ⟨-, hThese⟩ := hFinds all rfl
          change Except.map _ (c.clusters.mapM
            (makeCluster c policies all)) = .ok d at hBuilt
          cases hClusters : c.clusters.mapM
              (makeCluster c policies all) with
          | error f =>
              rw [hClusters] at hBuilt
              cases hBuilt
          | ok built =>
              rw [hClusters] at hBuilt
              cases hBuilt
              refine ⟨hValid, isWired_of_made hValid ?_
                hClusters rfl⟩
              exact hThese hValid.repositoryNames

/-
  A configuration that passes validation is built, if the
  makers of its engines make the providers, and what is built
  is wired as configured.
-/
theorem valid_is_built
    {registry : Registry}
    {policies : List Policy}
    {c : Config}
    (hValid : (relaxed c policies).validate = .ok ())
    (hMakers : ∀ r ∈ c.repositories,
      Repository.CanBeMade registry r)
    (w : World) :
    Effect.Ends (build registry policies c) w fun result _ =>
      ∃ d, result = .ok d ∧ IsWired registry policies c d := by
  have hIsValid := (Config.validate_eq_ok_iff _).mp hValid
  have hReturns : Effect.Ends (build registry policies c) w
      fun result _ => ∃ d, result = .ok d := by
    unfold build
    rw [hValid, Effect.ends_bind]
    refine ((makeRepositories_finds [] c.repositories w).and
      (makeRepositories_returns hMakers [] w)).mono ?_
    intro made w' hMade
    obtain ⟨hFinds, all, rfl⟩ := hMade
    obtain ⟨-, hThese⟩ := hFinds all rfl
    have hAll : HasRepositories registry c all :=
      hThese hIsValid.repositoryNames
    obtain ⟨built, hBuilt⟩ := mapM_returns fun k hK =>
      makeCluster_returns hIsValid hAll hK
    change ∃ d, Except.map _ (c.clusters.mapM
      (makeCluster c policies all)) = .ok d
    rw [hBuilt]
    exact ⟨_, rfl⟩
  refine (hReturns.and (build_wires registry policies c w)).mono ?_
  intro result w' hBoth
  obtain ⟨⟨d, rfl⟩, hWires⟩ := hBoth
  exact ⟨d, rfl, (hWires d rfl).2⟩

/- Two databases, and a cluster that names a policy of its own. -/
def pair : Config :=
  { repositories :=
      [⟨"a", some "SQLite", "a.db", none, true, 1, {}⟩,
        ⟨"b", none, "sqlite:b.db", none, true, 0, {}⟩],
    clusters := [⟨"Main", ["A", "b"], 0, true, "Spare"⟩] }

def spare : Policy := ⟨"spare", .configured, .standard none, false⟩

theorem pair_is_built :
    (relaxed pair [spare]).validate = .ok () ∧
    Effect.Ends (build .builtin [spare] pair)
      (World.initial fun _ => .willing) fun result _ =>
        ∃ d, result = .ok d ∧ IsWired .builtin [spare] pair d := by
  have hValid : (relaxed pair [spare]).validate = .ok () := by
    decide +kernel
  refine ⟨hValid, valid_is_built hValid ?_ _⟩
  intro r hR
  rcases List.mem_pair.mp hR with rfl | rfl
  · exact ⟨"sqlite", _, _, rfl, rfl, rfl⟩
  · exact ⟨"sqlite", _, _, rfl, rfl, rfl⟩

end Building

end DataAccess

end Failover
