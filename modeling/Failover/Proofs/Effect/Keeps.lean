import Failover.Proofs.Effect.Ends
import Mathlib.Order.Defs.Unbundled

/-
  What happens leads from one world to another, and keeps to
  a relation between the two.  A relation that goes on from
  step to step is kept by all that is put together of steps
  that keep it.

  Key definitions include:
    * `Effect.Keeps`
    * `Act.Keeps`
    * `Session.Keeps`

  Main statements:
    * `Effect.Keeps.bind`, `Act.Keeps.bind`
    * `Session.Keeps.tryBind`
-/

namespace Failover

variable {α β σ : Type}

------------------------------------------------------------
-- Effects
------------------------------------------------------------

namespace Effect

/- The worlds before and after are related. -/
def Keeps
    (R : World → World → Prop)
    (e : Effect α) : Prop :=
  ∀ w, Ends e w fun _ w' => R w w'

namespace Keeps

variable {R S : World → World → Prop}
variable {e : Effect α}

/- What is kept may be said with less. -/
theorem mono
    (h : Keeps R e)
    (hImp : ∀ w w', R w w' → S w w') : Keeps S e :=
  fun w => (h w).mono fun _ w' hR => hImp w w' hR

/- The result has no part in what is kept. -/
theorem discard (h : Keeps R e) : Keeps R (discard e) :=
  fun w => (h w).discard fun _ _ hR => hR

variable [IsPreorder World R]

/- To do nothing keeps what relates each world to itself. -/
theorem pure (a : α) : Keeps R (Pure.pure a : Effect α) :=
  fun w => refl_of R w

/- What each of two effects keeps, both keep. -/
theorem bind
    {f : α → Effect β}
    (h : Keeps R e)
    (hNext : ∀ a, Keeps R (f a)) : Keeps R (e >>= f) := by
  intro w
  refine (h w).bind fun a w₁ hFirst => ?_
  exact (hNext a w₁).mono fun _ _ hLast => trans_of R hFirst hLast

/- What comes next depends on the world as it is. -/
theorem get_bind
    {f : World → Effect β}
    (hNext : ∀ w, Keeps R (f w)) : Keeps R (get >>= f) :=
  .bind (fun w => refl_of R w) hNext

/- A list of effects keeps what each of them keeps. -/
theorem mapM
    {f : α → Effect β}
    (h : ∀ a, Keeps R (f a))
    (xs : List α) : Keeps R (xs.mapM f) := by
  induction xs with
  | nil => exact .pure _
  | cons x xs ih =>
      rw [List.mapM_cons]
      exact (h x).bind fun _ => ih.bind fun _ => .pure _

/-
  A list of effects without results keeps what each of them
  keeps.
-/
theorem forM
    {f : α → Effect PUnit}
    (h : ∀ a, Keeps R (f a))
    (xs : List α) : Keeps R (xs.forM f) := by
  induction xs with
  | nil => exact .pure _
  | cons x xs ih => exact (h x).bind fun _ => ih

end Keeps

end Effect

------------------------------------------------------------
-- Effects with a state of their own
------------------------------------------------------------

namespace Act

/- The states and worlds before and after are related. -/
def Keeps
    (R : σ × World → σ × World → Prop)
    (act : StateT σ Effect α) : Prop :=
  ∀ s w, Ends act s w fun _ s' w' => R (s, w) (s', w')

namespace Keeps

variable {R : σ × World → σ × World → Prop}
variable {act : StateT σ Effect α}

/- To make another result of the result keeps the same. -/
theorem map
    (f : α → β)
    (h : Keeps R act) : Keeps R (f <$> act) :=
  h

/- A step of the state keeps what the step itself keeps. -/
theorem modify
    {f : σ → σ}
    (h : ∀ s w, R (s, w) (f s, w)) :
    Keeps R (modify f : StateT σ Effect PUnit) :=
  h

/- The world goes on, and the state stays as it is. -/
theorem lift
    {S : World → World → Prop}
    {e : Effect α}
    (h : Effect.Keeps S e)
    (hImp : ∀ s w w', S w w' → R (s, w) (s, w')) :
    Keeps R (liftM e : StateT σ Effect α) :=
  fun s w => (h w).mono fun _ w' hS => hImp s w w' hS

variable [IsPreorder (σ × World) R]

/- To do nothing keeps what relates each state to itself. -/
theorem pure (a : α) :
    Keeps R (Pure.pure a : StateT σ Effect α) :=
  fun s w => refl_of R (s, w)

/- What each of two acts keeps, both keep. -/
theorem bind
    {f : α → StateT σ Effect β}
    (h : Keeps R act)
    (hNext : ∀ a, Keeps R (f a)) : Keeps R (act >>= f) := by
  intro s w
  refine (h s w).bind fun a s₁ w₁ hFirst => ?_
  exact (hNext a s₁ w₁).mono
    fun _ _ _ hLast => trans_of R hFirst hLast

/- What follows on the state may depend on it. -/
theorem get_bind
    {f : σ → StateT σ Effect β}
    (hNext : ∀ s, Keeps R (f s)) : Keeps R (get >>= f) :=
  .bind (fun s w => refl_of R (s, w)) hNext

end Keeps

end Act

------------------------------------------------------------
-- Sessions
------------------------------------------------------------

namespace Session

/- The worlds are related, and the repository is the same. -/
def Stays
    (R : World → World → Prop)
    (x y : Session × World) : Prop :=
  y.1.repository = x.1.repository ∧ R x.2 y.2

instance
    (R : World → World → Prop)
    [IsPreorder World R] :
    IsPreorder (Session × World) (Stays R) where
  refl x := ⟨rfl, refl_of R x.2⟩
  trans _ _ _ h hNext :=
    ⟨hNext.1.trans h.1, trans_of R h.2 hNext.2⟩

/- A session keeps its repository in what it does. -/
def Keeps
    (R : World → World → Prop)
    (act : Session.Act α) : Prop :=
  Act.Keeps (Stays R) act

namespace Keeps

variable {R S : World → World → Prop}

/- What is kept may be said with less. -/
theorem mono
    {act : Session.Act α}
    (h : Keeps R act)
    (hImp : ∀ w w', R w w' → S w w') : Keeps S act :=
  fun s w => (h s w).mono fun _ _ w' hR => ⟨hR.1, hImp w w' hR.2⟩

/- An effect keeps as an act what it keeps by itself. -/
theorem lift
    {e : Effect α}
    (h : Effect.Keeps R e) :
    Keeps R (liftM e : Session.Act α) :=
  Act.Keeps.lift h fun _ _ _ hR => ⟨rfl, hR⟩

/-
  An act that cannot fail keeps the same when failures are
  possible.
-/
theorem tryLift
    {act : Session.Act α}
    (h : Keeps R act) : Keeps R (ExceptT.lift act : Try α).run :=
  h

variable [IsPreorder World R]

/- A result by itself keeps everything. -/
theorem tryPure
    (a : α) : Keeps R (Pure.pure a : Try α).run :=
  Act.Keeps.pure _

/- A failure by itself does so too. -/
theorem throw
    (f : Failure) : Keeps R (throw f : Try α).run :=
  Act.Keeps.pure _

/- A refusal changes nothing, so it keeps any such relation. -/
theorem refuse
    (message : String) : Keeps R (refuse message : Try α).run :=
  fun s w => refl_of (Stays R) (s, w)

/-
  A failure ends the rest, so that it keeps what the first act
  keeps.
-/
theorem tryBind
    {act : Try α}
    {f : α → Try β}
    (h : Keeps R act.run)
    (hNext : ∀ a, Keeps R (f a).run) :
    Keeps R (act >>= f).run := by
  intro s w
  rw [Try.ends_run, Try.ends_bind, ← Try.ends_run]
  refine (h s w).mono fun r s₁ w₁ hFirst => ?_
  cases r with
  | error f => exact hFirst
  | ok a =>
      exact (hNext a s₁ w₁).mono fun _ _ _ hLast =>
        trans_of (Stays R) hFirst hLast

/- What follows on the session may depend on it. -/
theorem tryGet
    {f : Session → Try β}
    (hNext : ∀ s, Keeps R (f s).run) :
    Keeps R (get >>= f).run :=
  .tryBind (fun s w => refl_of (Stays R) (s, w)) hNext

end Keeps

end Session

end Failover
