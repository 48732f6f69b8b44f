import Delegation.Model.Construct
/-!
# Operations and histories

Every call that may change a model, as data, and what it yields when it is answered. A model's
history is a list of operations: `Model.after` is the state it leads to, and a model is `Reachable`
if some history leads to it from a new model. Refused operations count as well, since a refusal need
not leave the model as it was.
-/

namespace Delegation

/-- A call that may change a model. -/
inductive Operation (β : Type) where
  | construct (strategy : Strategy) (fields : PropertyMap β) (methods : MethodTable β)
      (tag : String)
  | constructNamed (strategy : String) (fields : PropertyMap β) (methods : MethodTable β)
      (tag : String)
  | createRecord (tag : String)
  | setSlot (id : RecordId) (name : String) (value : Value (Method β))
  | mutateSharedSlot (tag : String) (name : String) (value : Value (Method β))
  | relinkConstructor (tag : String)
  | replaceSlots (id : RecordId) (slots : PropertyMap β)
  | replacePrototype (tag : String) (methods : MethodTable β)
  | replacePrototypeSlots (tag : String) (slots : PropertyMap β)
  | allocate (name : String) (body : β)

/-- What an operation yields. -/
inductive Product (β : Type) where
  | nothing
  | record (id : RecordId)
  | object (i : Instance β)
  | method (f : Method β)

variable {β : Type}

/-- The call that an operation stands for. -/
def Operation.action : Operation β → Action β (Product β)
  | .construct strategy fields methods tag =>
    .object <$> Model.construct strategy fields methods tag
  | .constructNamed strategy fields methods tag =>
    .object <$> Model.constructNamed strategy fields methods tag
  | .createRecord tag => .record <$> Model.createRecord tag
  | .setSlot id name value => (fun _ => .nothing) <$> Model.setSlot id name value
  | .mutateSharedSlot tag name value =>
    (fun _ => .nothing) <$> Model.mutateSharedSlot tag name value
  | .relinkConstructor tag => (fun _ => .nothing) <$> Model.relinkConstructor tag
  | .replaceSlots id slots => .record <$> Model.replaceSlots id slots
  | .replacePrototype tag methods => .record <$> Model.replacePrototype tag methods
  | .replacePrototypeSlots tag slots => .record <$> Model.replacePrototypeSlots tag slots
  | .allocate name body => .method <$> Action.allocate name body

namespace Model

/-- The state after one operation. -/
def afterOne (m : Model β) (op : Operation β) : Model β := (op.action.run m).model

/-- The state after a history. -/
def after (m : Model β) (history : List (Operation β)) : Model β := history.foldl afterOne m

/-- The states that some history leads to. -/
inductive Reachable : Model β → Prop where
  | new (nonce : UInt32) (limits : Limits) : Reachable (.new nonce limits)
  | step {m : Model β} (h : Reachable m) (op : Operation β) : Reachable (m.afterOne op)

@[simp] theorem after_nil (m : Model β) : m.after [] = m := rfl

@[simp] theorem after_cons (m : Model β) (op : Operation β) (history : List (Operation β)) :
    m.after (op :: history) = (m.afterOne op).after history := rfl

theorem after_append (m : Model β) (h h' : List (Operation β)) :
    m.after (h ++ h') = (m.after h).after h' := List.foldl_append

/-- A history leads from reachable states to reachable states. -/
theorem Reachable.after {m : Model β} (h : Reachable m) (history : List (Operation β)) :
    Reachable (m.after history) := by
  induction history generalizing m with
  | nil => exact h
  | cons op history ih => exact ih (h.step op)

end Model

end Delegation
