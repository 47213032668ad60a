import Failover.Workspace.Request
import Failover.Proofs.Scene.Access
import Mathlib.Data.List.Nodup

/-
  The names of a workspace, and what is held under them: each
  name stands for one thing, which can be taken out and put
  back without a trace.

  Key definitions include:
    * `Workspace.Tidy`
    * `Workspace.scene`
    * `Workspace.Follows`

  Main statements:
    * `Workspace.perm_without`
    * `Workspace.keepSession_follows`
    * `Workspace.keepOperation_follows`
    * `Workspace.keepReader_follows`
-/

namespace Failover

namespace Workspace

------------------------------------------------------------
-- Entries
------------------------------------------------------------

section Entries

variable {κ α : Type}

def keys (xs : List (κ × α)) : List κ :=
  xs.map (·.1)

/- The name of a kept element is among the names. -/
theorem mem_keys
    {k : κ}
    {a : α}
    {xs : List (κ × α)}
    (h : (k, a) ∈ xs) : k ∈ keys xs :=
  List.mem_map.mpr ⟨(k, a), h, rfl⟩

variable [DecidableEq κ]

/- Taking an element out takes out its name and no other. -/
theorem keys_without
    (k : κ)
    (xs : List (κ × α)) :
    keys (without k xs) = (keys xs).filter (· ≠ k) := by
  simp [keys, without, List.filter_map, Function.comp_def]

/- A name that is not there takes nothing away. -/
theorem without_absent
    {k : κ}
    {xs : List (κ × α)}
    (h : k ∉ keys xs) : without k xs = xs := by
  rw [without, List.filter_eq_self]
  rintro ⟨j, a⟩ hMem
  have hNe : j ≠ k := by
    rintro rfl
    exact h (mem_keys hMem)
  simpa using hNe

/- A name that was taken is free. -/
theorem absent_without
    (k : κ)
    (xs : List (κ × α)) : k ∉ keys (without k xs) := by
  simp [keys_without]

/- The names that are left are still different. -/
theorem nodup_without
    {k : κ}
    {xs : List (κ × α)}
    (h : (keys xs).Nodup) : (keys (without k xs)).Nodup := by
  rw [keys_without]
  exact h.filter _

/- A key can be given to something new. -/
theorem nodup_insert
    {xs : List (κ × α)}
    (h : (keys xs).Nodup)
    (k : κ)
    (a : α) :
    (keys (without k xs ++ [(k, a)])).Nodup := by
  have hKeys : keys (without k xs ++ [(k, a)]) =
      keys (without k xs) ++ [k] := by
    simp [keys]
  rw [hKeys, List.nodup_append]
  refine ⟨nodup_without h, List.nodup_singleton k, ?_⟩
  intro x hX y hY
  rw [keys_without, List.mem_filter] at hX
  rw [List.mem_singleton] at hY
  subst hY
  simpa using hX.2

/- An entry stands apart from those of other keys. -/
theorem perm_without
    {k : κ}
    {a : α}
    {xs : List (κ × α)}
    (hNodup : (keys xs).Nodup)
    (hMem : (k, a) ∈ xs) :
    xs.Perm ((k, a) :: without k xs) := by
  induction xs with
  | nil => cases hMem
  | cons x xs ih =>
      rw [keys, List.map_cons, List.nodup_cons] at hNodup
      rcases hNodup with ⟨hFirst, hRest⟩
      rcases List.mem_cons.mp hMem with rfl | hMem
      · have hSame : without k ((k, a) :: xs) = xs := by
          have := without_absent hFirst
          simpa [without] using this
        rw [hSame]
      · have hNe : x.1 ≠ k := by
          intro hKey
          exact hFirst (hKey ▸ mem_keys hMem)
        have hKept : without k (x :: xs) = x :: without k xs := by
          simp [without, hNe]
        rw [hKept]
        exact ((ih hRest hMem).cons x).trans (.swap _ _ _)

/- An element that is looked up is kept under the name. -/
theorem mem_of_lookup
    {name : String}
    {a : α}
    {xs : List (String × α)}
    (h : xs.lookup name = some a) : (name, a) ∈ xs := by
  rcases List.lookup_eq_some_iff.mp h with ⟨l, r, hSame, -⟩
  rw [hSame]
  exact List.mem_append_right l (List.mem_cons_self ..)

/- A name that is not found is free. -/
theorem absent_of_lookup
    {name : String}
    {xs : List (String × α)}
    (h : xs.lookup name = none) : name ∉ keys xs := by
  intro hMem
  rcases List.mem_map.mp hMem with ⟨x, hEntry, rfl⟩
  have hSome : (xs.lookup x.1).isSome = true :=
    List.lookup_isSome_iff.mpr ⟨x, hEntry, beq_self_eq_true _⟩
  rw [h] at hSome
  cases hSome

end Entries

------------------------------------------------------------
-- Scenes of workspaces
------------------------------------------------------------

variable {ws ws₁ ws' : Workspace}
variable {w w₁ w' : World}
variable {may : Nat → Prop}
variable {ss ss₁ ss' : List Session}
variable {os os₁ os' : List Operation}

/- Every name stands for one thing. -/
structure Tidy (ws : Workspace) : Prop where
  sessions : (keys ws.sessions).Nodup
  operations : (keys ws.operations).Nodup
  readers : (keys ws.readers).Nodup

/- A new workspace is tidy. -/
theorem tidy_ofAccess (d : DataAccess) : (ofAccess d).Tidy :=
  ⟨List.nodup_nil, List.nodup_nil, List.nodup_nil⟩

/- The sessions that are held, alone or by readers. -/
def heldSessions (ws : Workspace) : List Session :=
  ws.sessions.map (·.2) ++ ws.readers.map (·.2.session)

def heldOperations (ws : Workspace) : List Operation :=
  ws.operations.map (·.2)

/- The scene of a workspace, with what is in hand. -/
def scene
    (ws : Workspace)
    (w : World)
    (ss : List Session)
    (os : List Operation) : Scene :=
  ⟨ss ++ ws.heldSessions, os ++ ws.heldOperations, w.ledger⟩

/- A session under a name is in the scene. -/
theorem session_mem_scene
    {name : String}
    {s : Session}
    (hSession : ws.session? name = some s) :
    s ∈ (ws.scene w [] []).sessions :=
  List.mem_append_right [] (List.mem_append_left _
    (List.mem_map.mpr ⟨_, mem_of_lookup hSession, rfl⟩))

/-
  A workspace goes on in a world, with sessions and operations
  in hand before and others after it.
-/
structure Follows
    (may : Nat → Prop)
    (ss : List Session)
    (os : List Operation)
    (ws : Workspace)
    (w : World)
    (ss' : List Session)
    (os' : List Operation)
    (ws' : Workspace)
    (w' : World) : Prop where
  access : ws'.access = ws.access
  tidy : ws'.Tidy
  steps : Scene.Steps may (ws.scene w ss os) (ws'.scene w' ss' os')

namespace Follows

/- A workspace follows itself. -/
theorem refl
    (hTidy : ws.Tidy) :
    Follows may ss os ws w ss os ws w :=
  ⟨rfl, hTidy, .refl⟩

/-
  Two workspaces that follow one another make one that
  follows.
-/
theorem trans
    (h₁ : Follows may ss os ws w ss₁ os₁ ws₁ w₁)
    (h : Follows may ss₁ os₁ ws₁ w₁ ss' os' ws' w') :
    Follows may ss os ws w ss' os' ws' w' :=
  ⟨h.access.trans h₁.access, h.tidy, h₁.steps.trans h.steps⟩

/- More sessions may do what fewer may. -/
theorem mono
    {can : Nat → Prop}
    (h : Follows may ss os ws w ss' os' ws' w')
    (hImp : ∀ i, may i → can i) :
    Follows can ss os ws w ss' os' ws' w' :=
  ⟨h.access, h.tidy, h.steps.mono hImp⟩

/-
  A step of the sessions and operations in hand leaves the
  workspace as it is.
-/
theorem inHand
    (hTidy : ws.Tidy)
    (h : Scene.Steps may ⟨ss, os, w.ledger⟩ ⟨ss', os', w'.ledger⟩) :
    Follows may ss os ws w ss' os' ws w' :=
  ⟨rfl, hTidy, h.frame ws.heldSessions ws.heldOperations⟩

/-
  Sessions and operations may change places between the hand
  and the workspace.
-/
theorem rearranged
    (hAccess : ws'.access = ws.access)
    (hTidy : ws'.Tidy)
    (hSessions :
      (ss ++ ws.heldSessions).Perm (ss' ++ ws'.heldSessions))
    (hOperations :
      (os ++ ws.heldOperations).Perm
        (os' ++ ws'.heldOperations)) :
    Follows may ss os ws w ss' os' ws' w :=
  ⟨hAccess, hTidy, .single (.rearranged hSessions hOperations)⟩

end Follows

------------------------------------------------------------
-- Sessions under names
------------------------------------------------------------

theorem session?_put
    (name : String)
    (s : Session) :
    session?
      { ws with
        sessions := without name ws.sessions ++ [(name, s)] }
      name = some s := by
  refine List.lookup_eq_some_iff.mpr ⟨_, [], rfl, ?_⟩
  rintro ⟨k, a⟩ hMem
  have hNe : k ≠ name := by
    simpa using (List.mem_filter.mp hMem).2
  exact bne_iff_ne.mpr hNe.symm

/- A session is taken from under its name. -/
theorem takeSession_follows
    {name : String}
    {s : Session}
    (hTidy : ws.Tidy)
    (hSession : ws.session? name = some s) :
    Follows may ss os ws w (s :: ss) os
      { ws with sessions := without name ws.sessions } w := by
  refine .rearranged rfl ?_ ?_ (.refl _)
  · exact ⟨nodup_without hTidy.sessions, hTidy.operations,
      hTidy.readers⟩
  · have hPerm := (perm_without hTidy.sessions
      (mem_of_lookup hSession)).map (·.2)
    refine ((hPerm.append_right _).append_left ss).trans ?_
    exact List.perm_middle

/- A session is put under a name that is not in use. -/
theorem putSession_follows
    {name : String}
    (s : Session)
    (hTidy : ws.Tidy)
    (hAbsent : name ∉ keys ws.sessions) :
    Follows may (s :: ss) os ws w ss os
      { ws with
        sessions := without name ws.sessions ++ [(name, s)] }
      w := by
  refine .rearranged rfl ?_ ?_ (.refl _)
  · exact ⟨nodup_insert hTidy.sessions name s, hTidy.operations,
      hTidy.readers⟩
  · rw [without_absent hAbsent]
    simp only [heldSessions, List.map_append, List.map_cons,
      List.map_nil, List.append_assoc, List.cons_append]
    rw [← List.append_assoc, ← List.append_assoc]
    exact List.perm_middle.symm

/- Dropping a session under a name frees the name. -/
theorem dropSession_follows
    (may : Nat → Prop)
    (ss : List Session)
    (os : List Operation)
    (w : World)
    (hTidy : ws.Tidy)
    (name : String) :
    Act.Ends (dropSession name) ws w fun _ ws' w' =>
      Follows may ss os ws w ss os ws' w' ∧
        name ∉ keys ws'.sessions ∧
        ws'.readers = ws.readers := by
  unfold dropSession
  rw [Act.ends_bind, Act.ends_get]
  cases hSession : ws.session? name with
  | none =>
      exact ⟨.refl hTidy, absent_of_lookup hSession, rfl⟩
  | some s =>
      simp only
      rw [Act.ends_bind]
      unfold removeSession
      rw [Act.ends_modify, Act.ends_lift]
      have hTaken : Follows may ss os ws w (s :: ss) os _ w :=
        takeSession_follows hTidy hSession
      refine (Session.drop_steps may s w).mono ?_
      intro _ w' hDropped
      refine ⟨hTaken.trans (.inHand hTaken.tidy ?_),
        absent_without name ws.sessions, rfl⟩
      exact hDropped.frame ss os

/- A session that is kept is no longer held aside. -/
theorem keepSession_follows
    (may : Nat → Prop)
    (ss : List Session)
    (os : List Operation)
    (w : World)
    (hTidy : ws.Tidy)
    (name : String)
    (s : Session) :
    Act.Ends (keepSession name s) ws w fun _ ws' w' =>
      Follows may (s :: ss) os ws w ss os ws' w' ∧
        ws'.session? name = some s ∧
        ws'.readers = ws.readers := by
  unfold keepSession
  refine (dropSession_follows may (s :: ss) os w hTidy name).bind ?_
  rintro _ ws₁ w₁ ⟨hDropped, hAbsent, hReaders⟩
  exact ⟨hDropped.trans
    (putSession_follows s hDropped.tidy hAbsent),
    session?_put name s, hReaders⟩

------------------------------------------------------------
-- Operations under names
------------------------------------------------------------

/- An operation that is taken is held aside. -/
theorem takeOperation_follows
    {name : String}
    {o : Operation}
    (hTidy : ws.Tidy)
    (hOperation : ws.operation? name = some o) :
    Follows may ss os ws w ss (o :: os)
      { ws with operations := without name ws.operations } w := by
  refine .rearranged rfl ?_ (.refl _) ?_
  · exact ⟨hTidy.sessions, nodup_without hTidy.operations,
      hTidy.readers⟩
  · have hPerm := (perm_without hTidy.operations
      (mem_of_lookup hOperation)).map (·.2)
    exact (hPerm.append_left os).trans List.perm_middle

/- An operation that nobody completes is left to itself. -/
theorem dropOperation_follows
    (may : Nat → Prop)
    (ss : List Session)
    (os : List Operation)
    (w : World)
    (hTidy : ws.Tidy)
    (name : String) :
    Act.Ends (dropOperation name) ws w fun _ ws' w' =>
      Follows may ss os ws w ss os ws' w' ∧
        name ∉ keys ws'.operations := by
  unfold dropOperation
  rw [Act.ends_bind, Act.ends_get]
  cases hOperation : ws.operation? name with
  | none => exact ⟨.refl hTidy, absent_of_lookup hOperation⟩
  | some o =>
      simp only
      rw [Act.ends_bind]
      unfold removeOperation
      rw [Act.ends_modify]
      have hTaken : Follows may ss os ws w ss (o :: os) _ w :=
        takeOperation_follows hTidy hOperation
      refine ⟨hTaken.trans (.inHand hTaken.tidy ?_),
        absent_without name ws.operations⟩
      exact .single (.dropped o)

/- The name is taken by an operation, in place of another. -/
theorem keepOperation_follows
    (may : Nat → Prop)
    (ss : List Session)
    (os : List Operation)
    (w : World)
    (hTidy : ws.Tidy)
    (name : String)
    (o : Operation) :
    Act.Ends (keepOperation name o) ws w fun _ ws' w' =>
      Follows may ss (o :: os) ws w ss os ws' w' := by
  unfold keepOperation
  refine (dropOperation_follows may ss (o :: os) w hTidy
    name).bind ?_
  rintro _ ws₁ w₁ ⟨hDropped, hAbsent⟩
  have hNodup := nodup_insert hDropped.tidy.operations name o
  rw [without_absent hAbsent] at hNodup
  refine hDropped.trans (.rearranged rfl ?_ (.refl _) ?_)
  · exact ⟨hDropped.tidy.sessions, hNodup,
      hDropped.tidy.readers⟩
  · change (o :: os ++ ws₁.operations.map (·.2)).Perm
      (os ++ (ws₁.operations ++ [(name, o)]).map (·.2))
    rw [List.map_append, ← List.append_assoc]
    exact (List.perm_append_singleton _ _).symm

------------------------------------------------------------
-- Readers under names
------------------------------------------------------------

/- A reader that is found is kept. -/
theorem mem_of_reader?
    {h : Holder}
    {r : Reader}
    (hReader : ws.reader? h = some r) :
    (h, r) ∈ ws.readers := by
  rcases Option.map_eq_some_iff.mp hReader with
    ⟨⟨k, r'⟩, hFind, rfl⟩
  have hKey : k = h := by
    simpa using List.find?_some hFind
  subst hKey
  exact List.mem_of_find?_eq_some hFind

/- The place of a reader that is not found is free. -/
theorem absent_of_reader?
    {h : Holder}
    (hReader : ws.reader? h = none) : h ∉ keys ws.readers := by
  intro hMem
  rcases List.mem_map.mp hMem with ⟨x, hEntry, rfl⟩
  have hNone := List.find?_eq_none.mp
    (Option.map_eq_none_iff.mp hReader) x hEntry
  simp at hNone

/- A reader that is taken leaves its session held aside. -/
theorem takeReader_follows
    {h : Holder}
    {r : Reader}
    (hTidy : ws.Tidy)
    (hReader : ws.reader? h = some r) :
    Follows may ss os ws w (r.session :: ss) os
      { ws with readers := without h ws.readers } w := by
  refine .rearranged rfl ?_ ?_ (.refl _)
  · exact ⟨hTidy.sessions, hTidy.operations,
      nodup_without hTidy.readers⟩
  · have hPerm := (perm_without hTidy.readers
      (mem_of_reader? hReader)).map (·.2.session)
    refine ((hPerm.append_left _).append_left ss).trans ?_
    refine (List.perm_middle.append_left ss).trans ?_
    exact List.perm_middle

/- A reader that is put back takes its session along. -/
theorem putReader_follows
    {h : Holder}
    (r : Reader)
    (hTidy : ws.Tidy)
    (hAbsent : h ∉ keys ws.readers) :
    Follows may (r.session :: ss) os ws w ss os
      { ws with readers := without h ws.readers ++ [(h, r)] }
      w := by
  refine .rearranged rfl ?_ ?_ (.refl _)
  · exact ⟨hTidy.sessions, hTidy.operations,
      nodup_insert hTidy.readers h r⟩
  · rw [without_absent hAbsent]
    simp only [heldSessions, List.map_append, List.map_cons,
      List.map_nil, List.cons_append, ← List.append_assoc]
    exact (List.perm_append_singleton _ _).symm

/- A reader is released, and its session goes where it should. -/
theorem dropReader_follows
    (may : Nat → Prop)
    (ss : List Session)
    (os : List Operation)
    (w : World)
    (hTidy : ws.Tidy)
    (h : Holder) :
    Act.Ends (dropReader h) ws w fun _ ws' w' =>
      Follows may ss os ws w ss os ws' w' ∧
        h ∉ keys ws'.readers := by
  unfold dropReader
  rw [Act.ends_bind, Act.ends_get]
  cases hReader : ws.reader? h with
  | none => exact ⟨.refl hTidy, absent_of_reader? hReader⟩
  | some r =>
      simp only
      rw [Act.ends_bind]
      unfold removeReader
      rw [Act.ends_modify, Act.ends_bind, Act.ends_lift,
        Act.ends_run]
      let ws₁ := { ws with readers := without h ws.readers }
      have hAbsent : h ∉ keys ws₁.readers :=
        absent_without h ws.readers
      have hTaken : Follows may ss os ws w (r.session :: ss) os
          ws₁ w := takeReader_follows hTidy hReader
      refine (Reader.release_goes r w).mono ?_
      intro _ r' w₁ hReleased
      have hGone : Follows may ss os ws w (r'.session :: ss) os
          ws₁ w₁ := by
        have hSteps := hReleased.steps.mono (fun i h => h.elim :
          ∀ i, False → may i)
        exact hTaken.trans
          (.inHand hTaken.tidy (hSteps.frame ss os))
      cases h with
      | named name =>
          simp only
          rw [Act.ends_lift]
          refine (Session.drop_steps may r'.session w₁).mono ?_
          intro _ w' hDropped
          refine ⟨hGone.trans (.inHand hGone.tidy ?_), hAbsent⟩
          exact hDropped.frame ss os
      | lender name =>
          refine (keepSession_follows may ss os w₁ hGone.tidy
            name r'.session).mono ?_
          rintro _ ws' w' ⟨hKept, -, hReaders⟩
          refine ⟨hGone.trans hKept, ?_⟩
          rw [hReaders]
          exact hAbsent

/- A reader is kept in place of the one before it. -/
theorem keepReader_follows
    (may : Nat → Prop)
    (ss : List Session)
    (os : List Operation)
    (w : World)
    (hTidy : ws.Tidy)
    (h : Holder)
    (r : Reader) :
    Act.Ends (keepReader h r) ws w fun _ ws' w' =>
      Follows may (r.session :: ss) os ws w ss os ws' w' := by
  unfold keepReader
  refine (dropReader_follows may (r.session :: ss) os w hTidy
    h).bind ?_
  rintro _ ws₁ w₁ ⟨hDropped, hAbsent⟩
  exact hDropped.trans (putReader_follows r hDropped.tidy hAbsent)

end Workspace

end Failover
