import Delegation.Text.Quoted
/-!
# Faults

Why a call on a model is refused. A fault is the cause, and `Fault.message` alone words it.
-/

namespace Delegation

/-- The cause of a refused call. -/
inductive Fault where
  /-- Neither the instance nor its record defines the name. -/
  | propertyNotFound (name : String)
  /-- No record has been made for the tag yet. -/
  | unknownTag (tag : String)
  /-- The name of no construction strategy. -/
  | invalidStrategy (name : String)
  /-- The handle is not one of this model's records. -/
  | invalidHandle
  /-- The value to be called is not a method. -/
  | notCallable
  /-- The value has the wrong type for the operation. -/
  | typeError (reason : String)
  /-- Another record would exceed the model's limit. -/
  | recordLimitExceeded (limit : Nat)
  /-- A method calls itself, directly or through others, and never returns. -/
  | endlessCall
  deriving DecidableEq

/-- The wording of a fault. -/
def Fault.message : Fault → String
  | .propertyNotFound name => "property not found: " ++ name
  | .unknownTag tag => "unknown creator tag: " ++ tag
  | .invalidStrategy name => "invalid construction strategy: " ++ Text.quoted name
  | .invalidHandle => "invalid handle"
  | .notCallable => "value is not callable"
  | .typeError reason => "type error: " ++ reason
  | .recordLimitExceeded limit =>
    "prototype record limit exceeded (limit " ++ toString limit ++ ")"
  | .endlessCall => "method calls do not end"

end Delegation
