import Delegation.Journal
import Delegation.Model.Basic
/-!
# Actions

A call on a model either answers or is refused, leaves a model behind in both cases, and reports
what it did. `Outcome` is those three things; an `Action` takes a model to an outcome. Actions are
sequenced by `do`: the journals follow each other, and a refusal ends the sequence while keeping the
state and the journal that were reached.

Everything a call does is made of six steps: it asks about the state, consults a question that may
be refused, changes the state, reports an event, allocates a method, or works within a span. Each
has one equation for `run`, and `run_bind` joins them.
-/

namespace Delegation

/-- What a call leaves behind. -/
structure Outcome (β α : Type) where
  answer : Except Fault α
  model : Model β
  journal : Journal

/-- A call that is still to be made. -/
def Action (β α : Type) : Type := Model β → Outcome β α

namespace Outcome

variable {β α γ : Type}

/-- Goes on after an answer, and stops at a refusal. -/
def andThen (o : Outcome β α) (f : α → Action β γ) : Outcome β γ :=
  match o.answer with
  | .ok a =>
    let o' := f a o.model
    { answer := o'.answer, model := o'.model, journal := o.journal ++ o'.journal }
  | .error e => { answer := .error e, model := o.model, journal := o.journal }

/-- Applies a function to the answer, if there is one. -/
def map (f : α → γ) (o : Outcome β α) : Outcome β γ :=
  { answer := o.answer.map f, model := o.model, journal := o.journal }

/-- Puts the reports of a span around those made in it. -/
def wrap (span : Span) (o : Outcome β α) : Outcome β α :=
  { o with journal := .opened span :: o.journal ++ [.closed span] }

end Outcome

namespace Action

variable {β α γ : Type}

/-- Makes the call on a model. -/
def run (x : Action β α) (m : Model β) : Outcome β α := x m

instance : Monad (Action β) where
  pure a := fun m => { answer := .ok a, model := m, journal := [] }
  bind x f := fun m => (x.run m).andThen f
  map f x := fun m => (x.run m).map f

/-! ## Steps -/

/-- Asks about the state. -/
def ask (f : Model β → α) : Action β α := fun m =>
  { answer := .ok (f m), model := m, journal := [] }

/-- Asks a question that may be refused. -/
def consult (f : Model β → Except Fault α) : Action β α := fun m =>
  { answer := f m, model := m, journal := [] }

/-- Changes the state. -/
def change (f : Model β → Model β) : Action β Unit := fun m =>
  { answer := .ok (), model := f m, journal := [] }

/-- Reports an event. -/
def report (event : Event) : Action β Unit := fun m =>
  { answer := .ok (), model := m, journal := [.logged event] }

/-- Allocates a method. -/
def allocate (name : String) (body : β) : Action β (Method β) := fun m =>
  { answer := .ok (m.nextMethod name body), model := m.countMethod, journal := [] }

/-- Works within a span, which is closed in the end however the work ends. -/
def within (span : Span) (x : Action β α) : Action β α := fun m => (x.run m).wrap span

/-! ## Equations -/

theorem ext {x y : Action β α} (h : ∀ m, x.run m = y.run m) : x = y := funext h

@[simp] theorem run_pure (a : α) (m : Model β) :
    (pure a : Action β α).run m = { answer := .ok a, model := m, journal := [] } := rfl

@[simp] theorem run_bind (x : Action β α) (f : α → Action β γ) (m : Model β) :
    (x >>= f).run m = (x.run m).andThen f := rfl

@[simp] theorem run_map (f : α → γ) (x : Action β α) (m : Model β) :
    (f <$> x).run m = (x.run m).map f := rfl

@[simp] theorem run_ask (f : Model β → α) (m : Model β) :
    (ask f).run m = { answer := .ok (f m), model := m, journal := [] } := rfl

@[simp] theorem run_consult (f : Model β → Except Fault α) (m : Model β) :
    (consult f).run m = { answer := f m, model := m, journal := [] } := rfl

@[simp] theorem run_change (f : Model β → Model β) (m : Model β) :
    (change f).run m = { answer := .ok (), model := f m, journal := [] } := rfl

@[simp] theorem run_report (event : Event) (m : Model β) :
    (report event).run m = { answer := .ok (), model := m, journal := [.logged event] } := rfl

@[simp] theorem run_allocate (name : String) (body : β) (m : Model β) :
    (allocate name body).run m =
      { answer := .ok (m.nextMethod name body), model := m.countMethod, journal := [] } := rfl

@[simp] theorem run_within (span : Span) (x : Action β α) (m : Model β) :
    (within span x).run m = (x.run m).wrap span := rfl

@[simp] theorem andThen_ok (a : α) (m : Model β) (j : Journal) (f : α → Action β γ) :
    ({ answer := .ok a, model := m, journal := j } : Outcome β α).andThen f =
      { answer := ((f a).run m).answer
        model := ((f a).run m).model
        journal := j ++ ((f a).run m).journal } := rfl

@[simp] theorem andThen_error (e : Fault) (m : Model β) (j : Journal) (f : α → Action β γ) :
    ({ answer := .error e, model := m, journal := j } : Outcome β α).andThen f =
      { answer := .error e, model := m, journal := j } := rfl

@[simp] theorem map_ok (a : α) (m : Model β) (j : Journal) (f : α → γ) :
    ({ answer := .ok a, model := m, journal := j } : Outcome β α).map f =
      { answer := .ok (f a), model := m, journal := j } := rfl

@[simp] theorem map_error (e : Fault) (m : Model β) (j : Journal) (f : α → γ) :
    ({ answer := .error e, model := m, journal := j } : Outcome β α).map f =
      { answer := .error e, model := m, journal := j } := rfl

instance : LawfulMonad (Action β) :=
  LawfulMonad.mk' (Action β)
    (fun x => ext fun m => by
      rw [run_map]
      rcases x.run m with ⟨_ | _, m', j⟩ <;> rfl)
    (fun a f => ext fun m => by simp)
    (fun x f g => ext fun m => by
      simp only [run_bind]
      rcases x.run m with ⟨_ | a, m', j⟩
      · rfl
      · simp only [andThen_ok, run_bind]
        rcases (f a).run m' with ⟨_ | b, m'', j'⟩
        · rfl
        · simp [List.append_assoc])
    (fun _ _ => rfl)
    (fun _ _ => rfl)
    (fun _ _ => rfl)
    (fun f x => ext fun m => by
      rw [run_bind, run_map]
      rcases x.run m with ⟨_ | a, m', j⟩ <;> simp)
    (fun _ _ => rfl)

end Action

end Delegation
