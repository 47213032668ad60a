import Failover.Session.Basic
import Failover.World.Time

/-
  What holds when something that happens in the world has
  ended.  A rule for each way of putting such things together
  says what must hold before it.

  Key definitions include:
    * `Effect.Ends`, `Effect.Leads`
    * `Act.Ends`, `Act.Leads`
    * `Try.Ends`

  Main statements:
    * `Effect.Ends.mono`, `Act.Ends.mono`, `Try.Ends.mono`
    * `Effect.Leads.bind`, `Act.Leads.bind`
    * `Try.ends_bind`
-/

namespace Failover

variable {α β σ : Type}

------------------------------------------------------------
-- Effects
------------------------------------------------------------

namespace Effect

/- A property of the result and of the world afterwards. -/
def Ends
    (e : Effect α)
    (w : World)
    (Q : α → World → Prop) : Prop :=
  Q (e.run w).1 (e.run w).2

/- What holds at the end may be said with less. -/
theorem Ends.mono
    {e : Effect α}
    {w : World}
    {P Q : α → World → Prop}
    (h : Ends e w P)
    (hImp : ∀ a w', P a w' → Q a w') :
    Ends e w Q :=
  hImp _ _ h

/- What follows is asked of what the first part leads to. -/
theorem Ends.bind
    {e : Effect α}
    {f : α → Effect β}
    {w : World}
    {P : α → World → Prop}
    {Q : β → World → Prop}
    (h : Ends e w P)
    (hNext : ∀ a w', P a w' → Ends (f a) w' Q) :
    Ends (e >>= f) w Q :=
  hNext _ _ h

/- Two things that hold at the end hold together. -/
theorem Ends.and
    {e : Effect α}
    {w : World}
    {P Q : α → World → Prop}
    (hP : Ends e w P)
    (hQ : Ends e w Q) :
    Ends e w fun a w' => P a w' ∧ Q a w' :=
  ⟨hP, hQ⟩

/-
  The same is done for each of a list.  What holds is about
  those that are left.
-/
theorem Ends.forM
    {xs : List α}
    {f : α → Effect PUnit}
    {w : World}
    {P : List α → World → Prop}
    (h : P xs w)
    (hNext : ∀ x xs w, P (x :: xs) w →
      Ends (f x) w fun _ w' => P xs w') :
    Ends (xs.forM f) w fun _ w' => P [] w' := by
  induction xs generalizing w with
  | nil => exact h
  | cons x xs ih =>
      change Ends (f x >>= fun _ => xs.forM f) w _
      refine (hNext x xs w h).bind ?_
      exact fun _ w' hRest => ih hRest

/-
  An effect whose result is thrown away ends where the effect
  does.
-/
theorem Ends.discard
    {e : Effect α}
    {w : World}
    {P : α → World → Prop}
    {Q : PUnit → World → Prop}
    (h : Ends e w P)
    (hImp : ∀ a w', P a w' → Q ⟨⟩ w') :
    Ends (discard e) w Q :=
  hImp _ _ h

/- Claims that say the same may stand for each other. -/
theorem ends_congr
    {e : Effect α}
    {w : World}
    {P Q : α → World → Prop}
    (h : ∀ a w', P a w' ↔ Q a w') :
    Ends e w P ↔ Ends e w Q :=
  h _ _

variable (w : World)

@[simp] theorem ends_pure
    (a : α)
    (Q : α → World → Prop) :
    Ends (pure a) w Q ↔ Q a w :=
  Iff.rfl

/- A second effect begins where the first one ends. -/
@[simp] theorem ends_bind
    (e : Effect α)
    (f : α → Effect β)
    (Q : β → World → Prop) :
    Ends (e >>= f) w Q ↔
      Ends e w fun a w' => Ends (f a) w' Q :=
  Iff.rfl

/- A result that is made into another leaves the world alone. -/
@[simp] theorem ends_map
    (e : Effect α)
    (f : α → β)
    (Q : β → World → Prop) :
    Ends (f <$> e) w Q ↔ Ends e w fun a w' => Q (f a) w' :=
  Iff.rfl

/- The result is thrown away, but not the failure. -/
@[simp] theorem ends_discard
    (e : Effect α)
    (Q : PUnit → World → Prop) :
    Ends (discard e) w Q ↔ Ends e w fun _ w' => Q ⟨⟩ w' :=
  Iff.rfl

/- The state that is read is the one there is. -/
@[simp] theorem ends_get (Q : World → World → Prop) :
    Ends get w Q ↔ Q w w :=
  Iff.rfl

@[simp] theorem ends_set
    (w' : World)
    (Q : PUnit → World → Prop) :
    Ends (set w') w Q ↔ Q ⟨⟩ w' :=
  Iff.rfl

@[simp] theorem ends_modify
    (f : World → World)
    (Q : PUnit → World → Prop) :
    Ends (modify f) w Q ↔ Q ⟨⟩ (f w) :=
  Iff.rfl

@[simp] theorem ends_modifyGet
    (f : World → α × World)
    (Q : α → World → Prop) :
    Ends (modifyGet f) w Q ↔ Q (f w).1 (f w).2 :=
  Iff.rfl

/- The result that an effect gives, and the world after it. -/
def Leads
    (e : Effect α)
    (w : World)
    (a : α)
    (w' : World) : Prop :=
  e.run w = (a, w')

/- Every effect ends, and with one result only. -/
theorem exists_leads
    (e : Effect α)
    (w : World) : ∃ a w', Leads e w a w' :=
  ⟨_, _, rfl⟩

section
variable {w} {w' : World} {e : Effect α} {a : α}

/- Where the end is known, a claim is one about this end. -/
theorem Leads.ends_iff
    (h : Leads e w a w')
    (Q : α → World → Prop) : Ends e w Q ↔ Q a w' := by
  rw [Ends, show e.run w = (a, w') from h]

/- Ends that are known follow one another. -/
theorem Leads.bind
    {f : α → Effect β}
    {b : β}
    {w'' : World}
    (h : Leads e w a w')
    (hNext : Leads (f a) w' b w'') :
    Leads (e >>= f) w b w'' := by
  rw [Leads, StateT.run_bind, show e.run w = (a, w') from h]
  exact hNext

end

end Effect

------------------------------------------------------------
-- Effects with a state of their own
------------------------------------------------------------

namespace Act

/- A property of the result, the state and the world. -/
def Ends
    (act : StateT σ Effect α)
    (s : σ)
    (w : World)
    (Q : α → σ → World → Prop) : Prop :=
  Effect.Ends (act.run s) w fun x w' => Q x.1 x.2 w'

/- What holds at the end may be said with less. -/
theorem Ends.mono
    {act : StateT σ Effect α}
    {s : σ}
    {w : World}
    {P Q : α → σ → World → Prop}
    (h : Ends act s w P)
    (hImp : ∀ a s' w', P a s' w' → Q a s' w') :
    Ends act s w Q :=
  hImp _ _ _ h

/- What the first act leaves is what the second one meets. -/
theorem Ends.bind
    {act : StateT σ Effect α}
    {f : α → StateT σ Effect β}
    {s : σ}
    {w : World}
    {P : α → σ → World → Prop}
    {Q : β → σ → World → Prop}
    (h : Ends act s w P)
    (hNext : ∀ a s' w', P a s' w' → Ends (f a) s' w' Q) :
    Ends (act >>= f) s w Q :=
  hNext _ _ _ h

/- Two claims about one end hold together. -/
theorem Ends.and
    {act : StateT σ Effect α}
    {s : σ}
    {w : World}
    {P Q : α → σ → World → Prop}
    (hP : Ends act s w P)
    (hQ : Ends act s w Q) :
    Ends act s w fun a s' w' => P a s' w' ∧ Q a s' w' :=
  ⟨hP, hQ⟩

variable (s : σ) (w : World)

/- An effect with a state, seen as one that gives the state. -/
@[simp] theorem ends_run
    (act : StateT σ Effect α)
    (Q : α × σ → World → Prop) :
    Effect.Ends (act.run s) w Q ↔
      Ends act s w fun a s' w' => Q (a, s') w' :=
  Iff.rfl

@[simp] theorem ends_pure
    (a : α)
    (Q : α → σ → World → Prop) :
    Ends (pure a) s w Q ↔ Q a s w :=
  Iff.rfl

/- A second act begins where the first one ends. -/
@[simp] theorem ends_bind
    (act : StateT σ Effect α)
    (f : α → StateT σ Effect β)
    (Q : β → σ → World → Prop) :
    Ends (act >>= f) s w Q ↔
      Ends act s w fun a s' w' => Ends (f a) s' w' Q :=
  Iff.rfl

/- A result that is made into another changes no state. -/
@[simp] theorem ends_map
    (act : StateT σ Effect α)
    (f : α → β)
    (Q : β → σ → World → Prop) :
    Ends (f <$> act) s w Q ↔
      Ends act s w fun a s' w' => Q (f a) s' w' :=
  Iff.rfl

@[simp] theorem ends_discard
    (act : StateT σ Effect α)
    (Q : PUnit → σ → World → Prop) :
    Ends (discard act) s w Q ↔
      Ends act s w fun _ s' w' => Q ⟨⟩ s' w' :=
  Iff.rfl

@[simp] theorem ends_get (Q : σ → σ → World → Prop) :
    Ends get s w Q ↔ Q s s w :=
  Iff.rfl

@[simp] theorem ends_set
    (s' : σ)
    (Q : PUnit → σ → World → Prop) :
    Ends (set s') s w Q ↔ Q ⟨⟩ s' w :=
  Iff.rfl

@[simp] theorem ends_modify
    (f : σ → σ)
    (Q : PUnit → σ → World → Prop) :
    Ends (modify f) s w Q ↔ Q ⟨⟩ (f s) w :=
  Iff.rfl

/- An effect of the world does not touch the other state. -/
@[simp] theorem ends_lift
    (e : Effect α)
    (Q : α → σ → World → Prop) :
    Ends (liftM e) s w Q ↔
      Effect.Ends e w fun a w' => Q a s w' :=
  Iff.rfl

/- The result, and the state and the world after it. -/
def Leads
    (act : StateT σ Effect α)
    (s : σ)
    (w : World)
    (a : α)
    (s' : σ)
    (w' : World) : Prop :=
  Effect.Leads (act.run s) w (a, s') w'

/- Every act ends, and with one result only. -/
theorem exists_leads
    (act : StateT σ Effect α) :
    ∃ a s' w', Leads act s w a s' w' :=
  ⟨_, _, _, rfl⟩

section
variable {s w} {s' : σ} {w' : World}
variable {act : StateT σ Effect α} {a : α}

/- Where the end is known, a claim is one about this end. -/
theorem Leads.ends_iff
    (h : Leads act s w a s' w')
    (Q : α → σ → World → Prop) :
    Ends act s w Q ↔ Q a s' w' :=
  Effect.Leads.ends_iff h fun x w' => Q x.1 x.2 w'

/- To lead somewhere is to end in just that way. -/
theorem leads_iff :
    Leads act s w a s' w' ↔
      Ends act s w fun b t u => b = a ∧ t = s' ∧ u = w' := by
  constructor
  · intro hLeads
    rw [hLeads.ends_iff]
    exact ⟨rfl, rfl, rfl⟩
  · intro hEnds
    rcases exists_leads s w act with ⟨b, t, u, hLeads⟩
    rw [hLeads.ends_iff] at hEnds
    rcases hEnds with ⟨rfl, rfl, rfl⟩
    exact hLeads

/- Ends that are known follow one another. -/
theorem Leads.bind
    {f : α → StateT σ Effect β}
    {b : β}
    {s'' : σ}
    {w'' : World}
    (h : Leads act s w a s' w')
    (hNext : Leads (f a) s' w' b s'' w'') :
    Leads (act >>= f) s w b s'' w'' := by
  rw [Leads, StateT.run_bind]
  exact Effect.Leads.bind h hNext

end

end Act

------------------------------------------------------------
-- Effects that may fail
------------------------------------------------------------

namespace Try

open Session (Try)

/- A property of the result or failure, state and world. -/
def Ends
    (act : Try α)
    (s : Session)
    (w : World)
    (Q : Except Failure α → Session → World → Prop) : Prop :=
  Act.Ends act.run s w Q

/- What holds at the end may be said with less. -/
theorem Ends.mono
    {act : Try α}
    {s : Session}
    {w : World}
    {P Q : Except Failure α → Session → World → Prop}
    (h : Ends act s w P)
    (hImp : ∀ r s' w', P r s' w' → Q r s' w') :
    Ends act s w Q :=
  hImp _ _ _ h

variable (s : Session) (w : World)

/- An act that may fail ends as one that gives an outcome. -/
@[simp] theorem ends_run
    (act : Try α)
    (Q : Except Failure α → Session → World → Prop) :
    Act.Ends act.run s w Q ↔ Ends act s w Q :=
  Iff.rfl

@[simp] theorem ends_pure
    (a : α)
    (Q : Except Failure α → Session → World → Prop) :
    Ends (pure a) s w Q ↔ Q (.ok a) s w :=
  Iff.rfl

/- What follows a failure is left out. -/
theorem ends_bind
    (act : Try α)
    (f : α → Try β)
    (Q : Except Failure β → Session → World → Prop) :
    Ends (act >>= f) s w Q ↔
      Ends act s w fun r s' w' =>
        match r with
        | .ok a => Ends (f a) s' w' Q
        | .error x => Q (.error x) s' w' := by
  simp only [Ends, ExceptT.run_bind, Act.ends_bind]
  apply iff_of_eq
  congr 1
  funext r s' w'
  cases r with
  | ok a => rfl
  | error x => rfl

/-
  The second act is met by a result only; a failure passes
  it by.
-/
theorem Ends.bind
    {act : Try α}
    {f : α → Try β}
    {s : Session}
    {w : World}
    {P : Except Failure α → Session → World → Prop}
    {Q : Except Failure β → Session → World → Prop}
    (h : Ends act s w P)
    (hOk : ∀ a s' w', P (.ok a) s' w' → Ends (f a) s' w' Q)
    (hError : ∀ x s' w', P (.error x) s' w' →
      Q (.error x) s' w') :
    Ends (act >>= f) s w Q := by
  rw [ends_bind]
  refine h.mono ?_
  intro r s' w' hP
  cases r with
  | ok a => exact hOk a s' w' hP
  | error x => exact hError x s' w' hP

/- A result is made into another, and a failure stays. -/
@[simp] theorem ends_map
    (act : Try α)
    (f : α → β)
    (Q : Except Failure β → Session → World → Prop) :
    Ends (f <$> act) s w Q ↔
      Ends act s w fun r s' w' => Q (r.map f) s' w' := by
  simp only [Ends, ExceptT.run_map, Act.ends_map]

@[simp] theorem ends_get
    (Q : Except Failure Session → Session → World → Prop) :
    Ends get s w Q ↔ Q (.ok s) s w :=
  Iff.rfl

@[simp] theorem ends_getWorld
    (Q : Except Failure World → Session → World → Prop) :
    Ends (getThe World) s w Q ↔ Q (.ok w) s w :=
  Iff.rfl

@[simp] theorem ends_set
    (s' : Session)
    (Q : Except Failure PUnit → Session → World → Prop) :
    Ends (set s') s w Q ↔ Q (.ok ⟨⟩) s' w :=
  Iff.rfl

@[simp] theorem ends_modify
    (f : Session → Session)
    (Q : Except Failure PUnit → Session → World → Prop) :
    Ends (modify f) s w Q ↔ Q (.ok ⟨⟩) (f s) w :=
  Iff.rfl

/- What happens in the world alone cannot fail. -/
@[simp] theorem ends_liftEffect
    (e : Effect α)
    (Q : Except Failure α → Session → World → Prop) :
    Ends (liftM e) s w Q ↔
      Effect.Ends e w fun a w' => Q (.ok a) s w' :=
  Iff.rfl

/- An act that cannot fail has a result. -/
@[simp] theorem ends_liftAct
    (act : Session.Act α)
    (Q : Except Failure α → Session → World → Prop) :
    Ends (liftM act) s w Q ↔
      Act.Ends act s w fun a s' w' => Q (.ok a) s' w' :=
  Iff.rfl

@[simp] theorem ends_lift
    (act : Session.Act α)
    (Q : Except Failure α → Session → World → Prop) :
    Ends (ExceptT.lift act) s w Q ↔
      Act.Ends act s w fun a s' w' => Q (.ok a) s' w' :=
  Iff.rfl

/- What failed before the act is the failure of it. -/
@[simp] theorem ends_liftExcept
    (r : Except Failure α)
    (Q : Except Failure α → Session → World → Prop) :
    Ends (liftExcept r) s w Q ↔ Q r s w := by
  cases r with
  | ok a => exact Iff.rfl
  | error f => exact Iff.rfl

@[simp] theorem ends_discard
    (act : Try α)
    (Q : Except Failure PUnit → Session → World → Prop) :
    Ends (discard act) s w Q ↔
      Ends act s w fun r s' w' =>
        Q (r.map fun _ => ⟨⟩) s' w' :=
  ends_map s w act _ Q

/- A refusal is a failure of the session's own. -/
@[simp] theorem ends_refuse
    (message : String)
    (Q : Except Failure α → Session → World → Prop) :
    Ends (Session.refuse message) s w Q ↔
      Q (.error (s.invalid message)) s w :=
  Iff.rfl

end Try

end Failover
