import Delegation.Method
/-!
# Instances

An instance owns its properties and may delegate to one record, which it does not own. Writing an
own property never touches the record, so an own property hides the slot of its name until it is
deleted.
-/

namespace Delegation

/-- An object: its own properties, and the record it delegates to. -/
structure Instance (β : Type) where
  own : PropertyMap β
  prototype : Option RecordId

namespace Instance

variable {β : Type}

/-- Delegates to another record, or to none. -/
def setPrototype (i : Instance β) (prototype : Option RecordId) : Instance β :=
  { i with prototype }

/-- The own property of a name. -/
def getOwn (i : Instance β) (name : String) : Option (Value (Method β)) := i.own.get? name

/-- Writes an own property. -/
def setOwn (i : Instance β) (name : String) (value : Value (Method β)) : Instance β :=
  { i with own := i.own.insert name value }

/-- Removes an own property. -/
def deleteOwn (i : Instance β) (name : String) : Instance β :=
  { i with own := i.own.erase name }

/-- Whether the name is an own property. -/
def hasOwn (i : Instance β) (name : String) : Bool := i.own.contains name

/-- The names of the own properties, ascending. -/
def ownKeys (i : Instance β) : List String := i.own.keys

end Instance

end Delegation
