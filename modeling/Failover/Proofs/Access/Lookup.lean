import Failover.Proofs.Access.Wired

/-
  Under which names a built layer finds what is configured.
  Validation tells names apart in lower case.  A repository is
  found under every name that is its own in lower case, but a
  cluster or a policy only under those that are its own up to
  ASCII case.

  Main statements:
    * `Config.policy?_of_lower`
    * `DataAccess.repository_of_lower`
    * `DataAccess.names_resolve`
-/

namespace Failover

/-
  A policy is found up to ASCII case.  The default one is not
  mistaken for it, since all that is the same as its name in
  lower case is the same up to ASCII case.
-/
theorem Config.policy?_of_lower
    {c : Config}
    (hDistinct : (foldedNames Policy.name c.policies).Nodup)
    {p : Policy}
    (hP : p ∈ c.policies)
    {n : String}
    (hLower : Text.lower p.name = Text.lower n) :
    c.policy? n =
      if Text.sameName p.name n then some p else none := by
  unfold policy?
  rw [find?_sameName hDistinct hP hLower]
  by_cases hName : Text.sameName p.name n = true
  · rw [if_pos hName]
  · rw [if_neg hName]
    by_cases hDefault : Text.sameName n "default" = true
    · exfalso
      have hSame : Text.lower "default" = Text.lower p.name := by
        rw [hLower, Text.lower_of_sameName hDefault]
      have hOwn : (Text.lower "default").toList.all
          Text.isOwnLower = true := by
        decide +kernel
      have hP := Text.sameName_of_lower
        (List.all_eq_true.mp hOwn) hSame
      rw [Text.sameName_comm] at hP hDefault
      exact hName (Text.sameName_trans hP hDefault)
    · exact if_neg hDefault

namespace DataAccess

variable {registry : Registry}
variable {c : Config}
variable {d : DataAccess}

/- A repository is found in any case. -/
theorem repository_of_lower
    {n m : String}
    {r : Repository}
    (hFound : d.repository n = .ok r)
    (hLower : Text.lower n = Text.lower m) :
    d.repository m = .ok r := by
  unfold repository member find? at hFound ⊢
  rw [← hLower]
  cases hLookup : d.repositories.lookup (Text.lower n) with
  | none =>
      rw [hLookup] at hFound
      cases hFound
  | some q =>
      rw [hLookup] at hFound
      exact hFound

/-
  What a layer that was built finds under a name that is the
  name of a cluster, a policy or a repository in lower case.
-/
theorem names_resolve
    (registry : Registry)
    (c : Config)
    (w : World) :
    Effect.Ends (build registry [] c) w fun result _ =>
      ∀ d, result = .ok d →
        (∃ built : List Cluster,
          List.Forall₂ (IsBuiltOf registry c [] d)
            c.clusters built ∧
          ∀ k ∈ built, ∀ n, Text.lower n = Text.lower k.name →
            d.cluster n =
              if Text.sameName k.name n then .ok k
              else .error (.clusterNotFound n)) ∧
        (∀ p ∈ c.policies, ∀ n,
          Text.lower n = Text.lower p.name →
            c.policy? n =
              if Text.sameName p.name n then some p else none) ∧
        ∀ r ∈ c.repositories, ∃ made : Repository,
          made.IsMadeOf registry r ∧
          ∀ n, Text.lower n = Text.lower r.name →
            d.repository n = .ok made := by
  refine (build_wires registry [] c w).mono ?_
  intro result w' hWires d hD
  obtain ⟨hValid, hWired⟩ := hWires d hD
  obtain ⟨built, hBuilt, hOrder, -⟩ := hWired.clusters
  refine ⟨⟨built, hBuilt, ?_⟩, ?_, ?_⟩
  · intro k hK n hN
    have hPerm := hOrder.perm
    rw [List.zipIdx_map_fst] at hPerm
    have hConfigured := hValid.clusterNames
    rw [relaxed_clusterNames] at hConfigured
    exact cluster_of_lower
      (clusterNames_nodup hConfigured hBuilt hOrder)
      (hPerm.mem_iff.mpr hK) hN.symm
  · intro p hP n hN
    exact Config.policy?_of_lower hValid.policyNames hP hN.symm
  · intro r hR
    obtain ⟨made, hMade, hFound⟩ := hWired.repositories r hR
    refine ⟨made, hMade, ?_⟩
    intro n hN
    exact repository_of_lower hFound hN.symm

/- Names that begin with a capital letter outside ASCII. -/
def umlaut : Config :=
  { repositories :=
      [⟨"Ä", some "sqlite", "a.db", none, true, 0, {}⟩],
    clusters := [⟨"Ä", ["ä"], 0, true, "default"⟩] }

/- Of two that have one name, only one is found in lower case. -/
theorem umlaut_repository_resolves :
    Effect.Ends (build .builtin [] umlaut)
      (World.initial fun _ => .willing) fun result _ =>
        ∃ d, result = .ok d ∧
          (∃ r, d.repository "ä" = .ok r ∧ r.name = "Ä") ∧
          d.cluster "ä" = .error (.clusterNotFound "ä") := by
  have hRun := names_resolve .builtin umlaut
    (World.initial fun _ => .willing)
  obtain ⟨d, hD⟩ : ∃ d, ((build .builtin [] umlaut).run
      (World.initial fun _ => .willing)).1 = .ok d :=
    ⟨_, rfl⟩
  obtain ⟨⟨built, hBuilt, hClusters⟩, -, hRepositories⟩ :=
    hRun d hD
  have hLower : Text.lower "ä" = Text.lower "Ä" := by
    decide +kernel
  refine ⟨d, hD, ?_, ?_⟩
  · obtain ⟨r, hMade, hFound⟩ := hRepositories _
      (List.mem_singleton_self _)
    exact ⟨r, hFound "ä" hLower, hMade.name⟩
  · obtain ⟨k, _, hK, -, rfl⟩ :=
      List.forall₂_cons_left_iff.mp hBuilt
    have hOther : Text.sameName k.name "ä" = false := by
      rw [hK.name]
      decide +kernel
    rw [hClusters k (List.mem_cons_self ..) "ä"
      (hLower.trans (congrArg Text.lower hK.name.symm)), hOther]
    rfl

/- The cluster is not found under its name in lower case. -/
theorem cluster_is_not_found :
    ¬ ∀ (registry : Registry) (c : Config) (w : World),
      Effect.Ends (build registry [] c) w fun result _ =>
        ∀ d, result = .ok d →
          ∀ k ∈ c.clusters, ∀ n,
            Text.lower n = Text.lower k.name →
              ∃ found, d.cluster n = .ok found ∧
                found.name = k.name := by
  intro h
  have hRun := h .builtin umlaut
    (World.initial fun _ => .willing)
  have hLower : Text.lower "ä" = Text.lower "Ä" := by
    decide +kernel
  obtain ⟨d, k, hD, hClusters, hName⟩ : ∃ d k,
      ((build .builtin [] umlaut).run
        (World.initial fun _ => .willing)).1 = .ok d ∧
      d.clusters = sortClusters [k] ∧ k.name = "Ä" :=
    ⟨_, _, rfl, rfl, rfl⟩
  have hNot : d.cluster "ä" = .error (.clusterNotFound "ä") := by
    have hOther : Text.sameName "Ä" "ä" = false := by
      decide +kernel
    rw [cluster, hClusters, sortClusters, List.mergeSort_singleton,
      List.find?_cons, hName, hOther]
    rfl
  obtain ⟨found, hFound, -⟩ := hRun d hD _
    (List.mem_singleton_self _) "ä" hLower
  rw [hNot] at hFound
  cases hFound

end DataAccess

end Failover
