import Failover.Access.Execute

/-
  Sessions, operations and readers that are in use at one
  time, each under a name.  What a name held before is
  dropped when the name is taken again.

  Key definitions include:
    * `Workspace`, `Workspace.Holder`
    * `Workspace.keepSession`, `Workspace.dropSession`
    * `Workspace.keepOperation`, `Workspace.dropOperation`
    * `Workspace.keepReader`, `Workspace.dropReader`
    * `Workspace.renameReader`
    * `Workspace.abandon`
-/

namespace Failover

namespace Workspace

/-
  A reader under its own name, or the one that has a named
  session on loan.
-/
inductive Holder where
  | named (name : String)
  | lender (session : String)
deriving DecidableEq, Repr

def Holder.name : Holder → String
  | .named name => name
  | .lender session => session

end Workspace

structure Workspace where
  access : DataAccess
  sessions : List (String × Session)
  operations : List (String × Operation)
  readers : List (Workspace.Holder × Reader)

namespace Workspace

def ofAccess (d : DataAccess) : Workspace :=
  ⟨d, [], [], []⟩

/- What happens to all that is in use. -/
abbrev Act := StateT Workspace Effect

------------------------------------------------------------
-- Names
------------------------------------------------------------

/- The entries without those of one key. -/
def without
    {κ α : Type}
    [DecidableEq κ]
    (k : κ)
    (xs : List (κ × α)) : List (κ × α) :=
  xs.filter fun x => decide (x.1 ≠ k)

def session?
    (w : Workspace)
    (name : String) : Option Session :=
  w.sessions.lookup name

def operation?
    (w : Workspace)
    (name : String) : Option Operation :=
  w.operations.lookup name

def reader?
    (w : Workspace)
    (h : Holder) : Option Reader :=
  (w.readers.find? fun x => decide (x.1 = h)).map (·.2)

def removeSession (name : String) : Act Unit :=
  modify fun w =>
    { w with sessions := without name w.sessions }

def removeOperation (name : String) : Act Unit :=
  modify fun w =>
    { w with operations := without name w.operations }

def removeReader (h : Holder) : Act Unit :=
  modify fun w => { w with readers := without h w.readers }

/- A session under a name, without a look at the one before. -/
def setSession
    (name : String)
    (s : Session) : Act Unit :=
  modify fun w =>
    { w with sessions := without name w.sessions ++ [(name, s)] }

def setReader
    (h : Holder)
    (r : Reader) : Act Unit :=
  modify fun w =>
    { w with readers := without h w.readers ++ [(h, r)] }

------------------------------------------------------------
-- Dropping
------------------------------------------------------------

def dropSession (name : String) : Act Unit := do
  match (← get).session? name with
  | none => return ()
  | some s =>
      removeSession name
      s.drop

def dropOperation (name : String) : Act Unit := do
  match (← get).operation? name with
  | none => return ()
  | some o =>
      removeOperation name
      o.drop

/- A name is taken by a session. -/
def keepSession
    (name : String)
    (s : Session) : Act Unit := do
  dropSession name
  setSession name s

/- A reader ends its operation; a session on loan goes back. -/
def dropReader (h : Holder) : Act Unit := do
  match (← get).reader? h with
  | none => return ()
  | some r =>
      removeReader h
      let (_, r) ← liftM (Reader.release.run r)
      match h with
      | .named _ => r.session.drop
      | .lender name => keepSession name r.session

def keepOperation
    (name : String)
    (o : Operation) : Act Unit := do
  dropOperation name
  modify fun w =>
    { w with operations := w.operations ++ [(name, o)] }

def keepReader
    (h : Holder)
    (r : Reader) : Act Unit := do
  dropReader h
  setReader h r

/- A reader takes another name, with the session it holds. -/
def renameReader
    (h : Holder)
    (name : String) : Act Unit := do
  match (← get).reader? h with
  | none => return ()
  | some r =>
      removeReader h
      keepReader (.named name) r

/- Entries in the order of their names. -/
def byName
    {κ α : Type}
    (name : κ → String)
    (xs : List (κ × α)) : List (κ × α) :=
  xs.mergeSort fun a b => decide (name a.1 ≤ name b.1)

/-
  All is dropped where nothing goes on in the background:
  work is stopped, and connections are let go at once.
-/
def abandon (w : Workspace) : Effect Unit := do
  (byName id w.sessions).forM fun x => x.2.dropAbroad
  (byName id w.operations).forM fun x => x.2.dropAbroad
  (byName Holder.name w.readers).forM fun x => do
    let (_, r) ← Reader.release.run x.2
    r.session.dropAbroad

end Workspace

end Failover
