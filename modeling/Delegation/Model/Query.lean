import Delegation.Instance
import Delegation.Model.Basic
/-!
# Queries

What a model says about an instance without changing anything. Lookup has two tiers: the own
property first, then the slot of the record the instance delegates to, and no further. A prototype
that is no record of this model makes every lookup past the own properties fail as an invalid
handle (`get_foreign`).

A method is called with the instance as its receiver. What its body then does is said by `Code`:
a body sees the model, the receiver and the arguments, and answers with a value or a fault.
-/

namespace Delegation

variable {β : Type}

namespace Model

/-! ## Lookup -/

/-- The value of a name: the instance's own, or else the slot of its record. -/
def get (m : Model β) (i : Instance β) (name : String) : Except Fault (Value (Method β)) :=
  match i.getOwn name with
  | some value => .ok value
  | none =>
    match i.prototype with
    | none => .error (.propertyNotFound name)
    | some id => do
      let record ← m.record id
      match record.slots.get? name with
      | some value => .ok value
      | none => .error (.propertyNotFound name)

/-- Whether a name has a value. -/
def hasProperty (m : Model β) (i : Instance β) (name : String) : Bool :=
  (m.get i name).isOk

/-- **Own properties come first.** -/
theorem get_own {m : Model β} {i : Instance β} {name : String} {v : Value (Method β)}
    (h : i.getOwn name = some v) : m.get i name = .ok v := by
  rw [get, h]

/-- **Foreign prototypes.** Past the own properties, a foreign prototype answers nothing. -/
theorem get_foreign {m : Model β} {i : Instance β} {name : String} {id : RecordId}
    (hown : i.getOwn name = none) (hproto : i.prototype = some id) (hid : id.model ≠ m.nonce) :
    m.get i name = .error .invalidHandle := by
  simp only [get, hown, hproto, record_foreign hid]
  rfl

/-! ## Identity -/

/-- The record that the instance delegates to, if it is one of this model. -/
def prototypeRecord? (m : Model β) (i : Instance β) : Option (Record β) :=
  i.prototype.bind m.record?

/-- Whether both instances delegate to one and the same record of this model. -/
def sharesRecordWith (m : Model β) (a b : Instance β) : Bool :=
  match a.prototype, b.prototype with
  | some ra, some rb => ra == rb && ra.model == m.nonce
  | _, _ => false

/-- Whether the instance delegates to a record made for the tag. -/
def producedBy (m : Model β) (i : Instance β) (tag : String) : Bool :=
  match m.prototypeRecord? i with
  | some record => record.creatorTag == tag
  | none => false

/-- Whether the instance delegates to the tag's current record. -/
def isInstanceOf (m : Model β) (i : Instance β) (tag : String) : Bool :=
  match i.prototype, m.currentRecord tag with
  | some id, some current => id == current
  | _, _ => false

/-- The tag that the instance's record links back to. -/
def constructorOf (m : Model β) (i : Instance β) : Option String :=
  (m.prototypeRecord? i).bind (·.backLink)

/-- Whether the name leads to the same method on both instances. -/
def sameMethodReference (m : Model β) (a b : Instance β) (name : String) : Except Fault Bool := do
  let va ← m.get a name
  let vb ← m.get b name
  match va, vb with
  | .method f, .method g => return f.same g
  | _, _ => return false

end Model

/-! ## Calls -/

/-- What a method body gets to see. -/
structure Call (β : Type) where
  model : Model β
  /-- The receiver. -/
  this : Instance β
  args : List (Value (Method β))

namespace Call

/-- A property of the receiver. -/
def get (c : Call β) (name : String) : Except Fault (Value (Method β)) := c.model.get c.this name

/-- The argument at a place; undefined past the last one. -/
def arg (c : Call β) (place : Nat) : Value (Method β) := c.args[place]?.getD .undefined

end Call

/-- Types of method bodies: a body answers a call. -/
class Code (β : Type) where
  run : β → Call β → Except Fault (Value (Method β))

namespace Model

/-- Calls the method of a name, with the instance as its receiver. -/
def callMethod [Code β] (m : Model β) (i : Instance β) (name : String)
    (args : List (Value (Method β))) : Except Fault (Value (Method β)) := do
  match (← m.get i name).asMethod with
  | some method => Code.run method.body { model := m, this := i, args }
  | none => .error .notCallable

end Model

end Delegation
