import Failover.Proofs.Config.Record

/-
  Configurations are read from their text, also when members
  are left out of it that are null or that have the value which
  a missing member counts as.

  Key definitions include:
    * `Config.Fits`
    * `Config.defaults`, `Config.IsDispensable`

  Main statements:
    * `Config.readPool?_reads`, `Config.readRepository?_reads`
    * `Config.ofDocument?_reads`
    * `Config.read_shortened`
-/

namespace Failover

namespace Config

open Json (Document Shortens)

------------------------------------------------------------
-- Numbers in range
------------------------------------------------------------

/- The numbers of a pool's options have 32 and 64 bits. -/
structure Pool.Fits (p : Pool) : Prop where
  maxConnections : ∀ n, p.maxConnections = some n →
    n < UInt32.size
  minConnections : ∀ n, p.minConnections = some n →
    n < UInt32.size
  idleTimeout : ∀ n, p.idleTimeout = some n → n < UInt64.size
  acquireTimeout : ∀ n, p.acquireTimeout = some n →
    n < UInt64.size

/- A number of 32 bits with a sign. -/
structure IsInt32 (n : Int) : Prop where
  least : Int32.minValue.toInt ≤ n
  greatest : n ≤ Int32.maxValue.toInt

structure Policy.Fits (p : Policy) : Prop where
  failureThreshold : p.failureThreshold < UInt64.size
  cooldown : p.cooldown < UInt64.size
  maxAttempts : ∀ n, p.maxAttempts = some n → n < UInt64.size

/- All numbers of a configuration are in range. -/
structure Fits (c : Config) : Prop where
  repositories : ∀ r ∈ c.repositories, IsInt32 r.sequence
  pools : ∀ r ∈ c.repositories, r.pool.Fits
  clusters : ∀ k ∈ c.clusters, IsInt32 k.sequence
  policies : ∀ p ∈ c.policies, p.Fits
  defaultTimeout : c.defaultTimeout < UInt64.size

------------------------------------------------------------
-- Members that may be left out
------------------------------------------------------------

/- What a missing member counts as, where it is not null. -/
def defaults : List (String × Json) :=
  [("repositories", .array []),
    ("clusters", .array []),
    ("fallbackPolicies", .array []),
    ("defaultTimeoutSecs", natJson 30),
    ("logging", Logging.toJson {}),
    ("enabled", .bool true),
    ("sequence", .integer 0),
    ("pool", Pool.toJson {}),
    ("fallbackPolicy", .string "default"),
    ("kind", .string "cooldown"),
    ("failureThreshold", natJson 1),
    ("cooldownSecs", natJson 30),
    ("level", .string "info"),
    ("json", .bool false)]

/- A member that is null or what a missing one counts as. -/
def IsDispensable (n : String) (v : Json) : Prop :=
  v = .null ∨ defaults.lookup n = some v

/- A null is what a member without a default is left out for. -/
theorem eq_none_of_dispensable
    {α : Type}
    {n : String}
    {g : α → Json}
    {o : Option α}
    (hDefault : defaults.lookup n = none)
    (hNull : ∀ a, g a ≠ .null)
    (h : IsDispensable n (optionalJson g o)) : o = none := by
  rcases h with h | h
  · cases o with
    | none => rfl
    | some a => exact absurd h (hNull a)
  · rw [hDefault] at h
    cases h

/- A member may be dropped if it has the default value. -/
theorem eq_of_dispensable
    {α : Type}
    {n : String}
    {g : α → Json}
    {a d : α}
    (hDefault : defaults.lookup n = some (g d))
    (hNull : g a ≠ .null)
    (hSame : g d = g a → d = a)
    (h : IsDispensable n (g a)) : a = d := by
  rcases h with h | h
  · exact absurd h hNull
  · rw [hDefault] at h
    exact (hSame (Option.some.inj h)).symm

/- A field without a default stands as it is. -/
theorem not_dispensable
    {n : String}
    {v : Json}
    (hDefault : defaults.lookup n = none)
    (hNull : v ≠ .null) : ¬IsDispensable n v := by
  intro h
  rcases h with h | h
  · exact hNull h
  · rw [hDefault] at h
    cases h

------------------------------------------------------------
-- Different values
------------------------------------------------------------

/- Numbers are told apart by their JSON. -/
theorem natJson_injective : Function.Injective natJson := by
  intro m n h
  exact Int.ofNat.inj (Json.integer.inj h)

/- A missing value is told apart from all others. -/
theorem optionalJson_injective
    {α : Type}
    {g : α → Json}
    (hSame : Function.Injective g)
    (hNull : ∀ a, g a ≠ .null) :
    Function.Injective (optionalJson g) := by
  intro o o' h
  cases o with
  | none =>
      cases o' with
      | none => rfl
      | some b => exact absurd h.symm (hNull b)
  | some a =>
      cases o' with
      | none => exact absurd h (hNull a)
      | some b => exact congrArg some (hSame h)

/- Pools that are written alike have the same options. -/
theorem Pool.toJson_injective :
    Function.Injective Pool.toJson := by
  intro p q h
  have hNat := optionalJson_injective natJson_injective nofun
  have hBool := optionalJson_injective
    (g := Json.bool) (fun _ _ => Json.bool.inj) nofun
  simp only [Pool.toJson, Json.object.injEq, List.cons.injEq,
    Prod.mk.injEq, true_and, and_true] at h
  obtain ⟨hMost, hLeast, hIdle, hAcquire, hTest⟩ := h
  obtain ⟨a, b, c, d, e⟩ := p
  cases hNat hMost
  cases hNat hLeast
  cases hNat hIdle
  cases hNat hAcquire
  cases hBool hTest
  rfl

/- A kind is written as its name. -/
def kindJson (k : PolicyKind) : Json :=
  .string k.name

/- Kinds are told apart by their names. -/
theorem kindJson_injective : Function.Injective kindJson := by
  intro k l h
  cases k <;> cases l <;>
    first
    | rfl
    | simp [kindJson, PolicyKind.name] at h

/- Settings of the log that are written alike are the same. -/
theorem Logging.toJson_injective :
    Function.Injective Logging.toJson := by
  intro l m h
  obtain ⟨level, json⟩ := l
  cases h
  rfl

------------------------------------------------------------
-- Reading
------------------------------------------------------------

/- A pool is read from whatever is left of its JSON. -/
theorem readPool?_reads
    {p : Pool}
    (hFits : p.Fits) :
    Reads IsDispensable readPool? p.toJson p := by
  intro j h
  obtain ⟨r, hRecord, hHolds⟩ :=
    Record.exists_holds (by simp) h
  simp only [List.map_cons, List.map_nil] at hRecord
  have hMost := hHolds.nullable?_eq (i := 0) rfl
    (.optional
      (fun n hN => reads_word32 (hFits.maxConnections n hN)) rfl)
    (eq_none_of_dispensable rfl nofun)
  have hLeast := hHolds.nullable?_eq (i := 1) rfl
    (.optional
      (fun n hN => reads_word32 (hFits.minConnections n hN)) rfl)
    (eq_none_of_dispensable rfl nofun)
  have hIdle := hHolds.nullable?_eq (i := 2) rfl
    (.optional
      (fun n hN => reads_word64 (hFits.idleTimeout n hN)) rfl)
    (eq_none_of_dispensable rfl nofun)
  have hAcquire := hHolds.nullable?_eq (i := 3) rfl
    (.optional
      (fun n hN => reads_word64 (hFits.acquireTimeout n hN)) rfl)
    (eq_none_of_dispensable rfl nofun)
  have hTest := hHolds.nullable?_eq (i := 4) rfl
    (.optional (fun b _ => reads_bool b) rfl)
    (eq_none_of_dispensable rfl nofun)
  unfold readPool?
  rw [hRecord]
  simp only [bind, Option.bind_some]
  rw [hMost, hLeast, hIdle, hAcquire, hTest]
  rfl

section Fields

variable {r : Record} {members : List (String × Json)}
variable {i : Nat} {n : String}
variable (h : r.Holds IsDispensable members)
include h

/- A text that has to be there. -/
theorem require?_text
    {s : String}
    (hField : members[i]? = some (n, .string s))
    (hDefault : defaults.lookup n = none) :
    r.require? i readString? = some s :=
  h.require?_eq hField (reads_string s)
    (not_dispensable hDefault nofun)

/- A text that may be null. -/
theorem orDefault?_text
    {o : Option String}
    (hField : members[i]? = some (n, optionalJson .string o))
    (hDefault : defaults.lookup n = none) :
    r.orDefault? i (readOptional? readString?) none = some o :=
  h.orDefault?_eq hField
    (.optional (fun s _ => reads_string s) rfl)
    (eq_none_of_dispensable hDefault nofun)

/- A field that is there is read, not its default. -/
theorem orDefault?_enabled
    {b : Bool}
    (hField : members[i]? = some ("enabled", .bool b)) :
    r.orDefault? i readBool? true = some b :=
  h.orDefault?_eq hField (reads_bool b)
    (eq_of_dispensable rfl nofun Json.bool.inj)

/- A sequence that is written is read back if it has 32 bits. -/
theorem orDefault?_sequence
    {k : Int}
    (hField : members[i]? = some ("sequence", .integer k))
    (hK : IsInt32 k) :
    r.orDefault? i readInt32? 0 = some k :=
  h.orDefault?_eq hField (reads_int32 hK.least hK.greatest)
    (eq_of_dispensable rfl nofun Json.integer.inj)

end Fields

/- A repository is read from what is left of its JSON. -/
theorem readRepository?_reads
    {c : Repository}
    (hSequence : IsInt32 c.sequence)
    (hPool : c.pool.Fits) :
    Reads IsDispensable readRepository? c.toJson c := by
  intro j h
  obtain ⟨r, hRecord, hHolds⟩ :=
    Record.exists_holds (by simp) h
  simp only [List.map_cons, List.map_nil] at hRecord
  have hName := require?_text hHolds (i := 0) rfl rfl
  have hEngine := orDefault?_text hHolds (i := 1) rfl rfl
  have hUrl := require?_text hHolds (i := 2) rfl rfl
  have hSchema := orDefault?_text hHolds (i := 3) rfl rfl
  have hEnabled := orDefault?_enabled hHolds (i := 4) rfl
  have hOrder := orDefault?_sequence hHolds (i := 5) rfl hSequence
  have hOptions := hHolds.orDefault?_eq (i := 6) (d := {})
    rfl (readPool?_reads hPool)
    (eq_of_dispensable rfl nofun fun h => Pool.toJson_injective h)
  unfold readRepository?
  rw [hRecord]
  simp only [bind, Option.bind_some]
  rw [hName, hEngine, hUrl, hSchema, hEnabled, hOrder, hOptions]
  rfl

/-
  A cluster is read back from any document that leaves out of
  it only what is documented as a default.
-/
theorem readCluster?_reads
    {k : Cluster}
    (hSequence : IsInt32 k.sequence) :
    Reads IsDispensable readCluster? k.toJson k := by
  intro j h
  obtain ⟨r, hRecord, hHolds⟩ :=
    Record.exists_holds (by simp) h
  simp only [List.map_cons, List.map_nil] at hRecord
  have hName := require?_text hHolds (i := 0) rfl rfl
  have hDatabases := hHolds.require?_eq (i := 1) rfl
    (.list fun s _ => reads_string s)
    (not_dispensable rfl nofun)
  have hOrder := orDefault?_sequence hHolds (i := 2) rfl hSequence
  have hEnabled := orDefault?_enabled hHolds (i := 3) rfl
  have hPolicy := hHolds.orDefault?_eq (i := 4)
    (d := "default") rfl (reads_string k.fallbackPolicy)
    (eq_of_dispensable rfl nofun Json.string.inj)
  unfold readCluster?
  rw [hRecord]
  simp only [bind, Option.bind_some]
  rw [hName, hDatabases, hOrder, hEnabled, hPolicy]
  rfl

/- A kind is read by its name. -/
theorem readPolicyKind?_reads (k : PolicyKind) :
    Reads IsDispensable readPolicyKind? (kindJson k) k := by
  intro j h
  cases h
  cases k <;> rfl

/-
  A policy is read back from any document that leaves out of
  it only what is documented as a default.
-/
theorem readPolicy?_reads
    {p : Policy}
    (hFits : p.Fits) :
    Reads IsDispensable readPolicy? p.toJson p := by
  intro j h
  obtain ⟨r, hRecord, hHolds⟩ :=
    Record.exists_holds (by simp) h
  simp only [List.map_cons, List.map_nil] at hRecord
  have hName := require?_text hHolds (i := 0) rfl rfl
  have hKind := hHolds.orDefault?_eq (i := 1)
    (d := .cooldown) rfl (readPolicyKind?_reads p.kind)
    (eq_of_dispensable (g := kindJson) rfl nofun
      fun h => kindJson_injective h)
  have hThreshold := hHolds.orDefault?_eq (i := 2) (d := 1)
    rfl (reads_word64 hFits.failureThreshold)
    (eq_of_dispensable rfl nofun fun h => natJson_injective h)
  have hCooldown := hHolds.orDefault?_eq (i := 3) (d := 30)
    rfl (reads_word64 hFits.cooldown)
    (eq_of_dispensable rfl nofun fun h => natJson_injective h)
  have hMost := hHolds.orDefault?_eq (i := 4) (d := none)
    rfl
    (.optional
      (fun n hN => reads_word64 (hFits.maxAttempts n hN)) rfl)
    (eq_none_of_dispensable rfl nofun)
  unfold readPolicy?
  rw [hRecord]
  simp only [bind, Option.bind_some]
  rw [hName, hKind, hThreshold, hCooldown, hMost]
  rfl

/- The settings of the log are read back in the same way. -/
theorem readLogging?_reads (l : Logging) :
    Reads IsDispensable readLogging? l.toJson l := by
  intro j h
  obtain ⟨r, hRecord, hHolds⟩ :=
    Record.exists_holds (by simp) h
  simp only [List.map_cons, List.map_nil] at hRecord
  have hLevel := hHolds.orDefault?_eq (i := 0)
    (d := "info") rfl (reads_string l.level)
    (eq_of_dispensable rfl nofun Json.string.inj)
  have hJson := hHolds.orDefault?_eq (i := 1)
    (d := false) rfl (reads_bool l.json)
    (eq_of_dispensable rfl nofun Json.bool.inj)
  unfold readLogging?
  rw [hRecord]
  simp only [bind, Option.bind_some]
  rw [hLevel, hJson]
  rfl

/- A list may be left out if it is empty. -/
theorem orDefault?_list
    {α : Type}
    {r : Record}
    {members : List (String × Json)}
    (h : r.Holds IsDispensable members)
    {i : Nat}
    {n : String}
    {g : α → Json}
    {f : Document → Option α}
    {as : List α}
    (hField : members[i]? = some (n, .array (as.map g)))
    (hDefault : defaults.lookup n = some (.array []))
    (hReads : ∀ a ∈ as, Reads IsDispensable f (g a) a) :
    r.orDefault? i (readList? f) [] = some as := by
  refine h.orDefault?_eq hField (.list hReads) ?_
  refine eq_of_dispensable
    (g := fun as : List α => .array (as.map g))
    hDefault nofun ?_
  intro hSame
  exact (List.map_eq_nil_iff.mp (Json.array.inj hSame).symm).symm

/- A configuration is read from all that may be left of it. -/
theorem ofDocument?_reads
    {c : Config}
    (hFits : c.Fits) :
    Reads IsDispensable ofDocument? c.toJson c := by
  intro j h
  obtain ⟨r, hRecord, hHolds⟩ :=
    Record.exists_holds (by simp) h
  simp only [List.map_cons, List.map_nil] at hRecord
  have hRepositories := orDefault?_list hHolds (i := 0) rfl rfl
    fun r hR => readRepository?_reads
      (hFits.repositories r hR) (hFits.pools r hR)
  have hClusters := orDefault?_list hHolds (i := 1) rfl rfl
    fun k hK => readCluster?_reads (hFits.clusters k hK)
  have hPolicies := orDefault?_list hHolds (i := 2) rfl rfl
    fun p hP => readPolicy?_reads (hFits.policies p hP)
  have hTimeout := hHolds.orDefault?_eq (i := 3) (d := 30)
    rfl (reads_word64 hFits.defaultTimeout)
    (eq_of_dispensable rfl nofun fun h => natJson_injective h)
  have hLogging := hHolds.orDefault?_eq (i := 4) (d := {})
    rfl (readLogging?_reads c.logging)
    (eq_of_dispensable rfl nofun
      fun h => Logging.toJson_injective h)
  unfold ofDocument?
  rw [hRecord]
  simp only [bind, Option.bind_some]
  rw [hRepositories, hClusters, hPolicies, hTimeout, hLogging]
  rfl

------------------------------------------------------------
-- Texts
------------------------------------------------------------

/- A valid configuration is read from any shorter text of it. -/
theorem read_shortened
    {c : Config}
    {j : Json}
    (hValid : c.validate = .ok ())
    (hFits : c.Fits)
    (h : Shortens IsDispensable c.toJson j) :
    read j.render = .ok c := by
  have hText : Document.ofText? j.render = some j.document :=
    Document.ofText?_render j
  have hRead : ofText? j.render = some c := by
    unfold ofText?
    rw [hText, Option.bind_some]
    exact ofDocument?_reads hFits j h
  unfold read
  rw [hRead]
  simp only
  rw [hValid]
  rfl

end Config

end Failover
