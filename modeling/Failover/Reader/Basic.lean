import Failover.Reader.Cursor
import Failover.Session.Operation

/-
  Readers: the rows of one operation of a session.  When a
  reader is released, its operation is over.

  Key definitions include:
    * `Reader`, `Reader.Act`
    * `Session.openReader`
    * `Reader.read`, `Reader.nextResult`
    * `Reader.release`
    * `Reader.pull`
-/

namespace Failover

/-
  The session is held as long as the reader is.  The shape
  tells where the rows come from and what asked for them.
-/
structure Reader where
  session : Session
  cursor : Cursor
  rowsAffected : UInt64
  shape : String
  context : Operation.Context
  released : Bool

namespace Session

/- Where rows come from and what asked for them. -/
def shape (s : Session) : String :=
  let source := s.repository.name ++ ":" ++ s.repository.engine
  match s.command with
  | some c => source ++ ":" ++ c.kind.name ++ ":" ++ c.text
  | none => source

/- A reader that holds a session, before the first row. -/
def reader
    (s : Session)
    (context : Operation.Context)
    (o : Outcome) : Reader :=
  { session := s
    cursor := .ofSets o.sets
    rowsAffected := o.rowsAffected
    shape := s.shape
    context
    released := false }

/-
  The reader of an operation that is completed; on a failure
  the session comes back alone.
-/
def openReader
    (s : Session)
    (o : Operation) : Effect (Except Failure Reader × Session) := do
  match ← ((completeRows o).run).run s with
  | (.ok outcome, s) =>
      return (.ok (s.reader o.context outcome), s)
  | (.error f, s) => return (.error f, s)

end Session

namespace Reader

/- What a reader does, with the world around it. -/
abbrev Act := StateT Reader Effect

/- What the session of a reader does. -/
def onSession
    {α : Type}
    (act : Session.Act α) : Act α := do
  let r ← get
  let (a, s) ← liftM (act.run r.session)
  set { r with session := s }
  return a

/-
  A move of the cursor.  A failure that it brings to light is
  reported.  Nothing moves once the reader is released.
-/
def move
    (complaint : String)
    (how : Cursor → Cursor.Moved) : Act Bool := do
  let r ← get
  if r.released then return false
  let m := how r.cursor
  set { r with cursor := m.cursor }
  match m.shown with
  | some f => onSession (Session.report f complaint)
  | none => pure ()
  return m.hasMore

def read : Act Bool :=
  move "Failed to read next row" Cursor.read

def nextResult : Act Bool :=
  move "Failed to advance to next result" Cursor.nextResult

/- The operation is over, with the failure that has shown. -/
def release : Act Unit := do
  let r ← get
  if !r.released then
    set { r with
      released := true
      cursor := { r.cursor with failure := none } }
    onSession (Session.settle r.context r.cursor.failure true)

/- A failure of the reader itself, unless one has shown. -/
def failWith
    (r : Reader)
    (message : String) : Reader :=
  let f : Failure :=
    .resultConversion r.session.repository.name message
  { r with
    cursor :=
      { r.cursor with failure := r.cursor.failure <|> some f } }

/-
  The next row, mapped.  After the last row or a row that
  cannot be mapped the reader is released.
-/
def pull
    {α : Type}
    (map : Reader → Except Failure α) :
    Act (Option (Except Failure α)) := do
  if (← get).released then return none
  if ← read then
    match map (← get) with
    | .ok a => return some (.ok a)
    | .error f =>
        modify fun r => r.failWith f.message
        release
        return some (.error f)
  else
    release
    return none

/- A field's error as a failure at the repository. -/
def ofField
    {α : Type}
    (r : Reader)
    (x : Except Cursor.FieldError α) : Except Failure α :=
  x.mapError fun e =>
    .resultConversion r.session.repository.name e.message

end Reader

end Failover
