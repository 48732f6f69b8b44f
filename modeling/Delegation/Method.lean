import Delegation.Handle
import Delegation.NameMap.Basic
import Delegation.Value
/-!
# Methods

A method is a body with an identity and a name. The type `β` of bodies is a parameter throughout:
what a body does is said by `Code`, and nothing below depends on more than that.

Two methods are the same only if they are the same allocation; equal bodies do not matter.
-/

namespace Delegation

/-- A method: a body that was given an identity. -/
structure Method (β : Type) where
  id : MethodId
  name : String
  body : β

/-- Whether two methods are the same allocation. -/
def Method.same {β : Type} (m n : Method β) : Bool := m.id == n.id

/-- Named values: the own properties of an instance, or the slots of a record. -/
abbrev PropertyMap (β : Type) := NameMap (Value (Method β))

/-- Named bodies, from which construction makes methods. -/
abbrev MethodTable (β : Type) := NameMap β

end Delegation
