import Delegation.Model.Operation
import Delegation.Model.Snapshot
/-!
# Commands and answers

What can be asked of a session, and what it answers. A command names instances, records and methods
by the registers that hold them, also the methods inside its values, so that no command can make a
method up. Commands that produce one of these may name a register to keep it in.
-/

namespace Delegation

/-- The name of a register. -/
abbrev Register := String

/-- A value of a command: its methods are named by their registers. -/
abbrev Term := Value Register

/-- What a session can be asked to do. The model a command is for is given beside it. -/
inductive Command (β : Type) where
  -- Calls that change a model.
  | construct (strategy : String) (tag : String) (fields : NameMap Term)
      (methods : MethodTable β) (keep : Option Register)
  | createRecord (tag : String) (keep : Option Register)
  | replaceSlots (record : Register) (slots : NameMap Term) (keep : Option Register)
  | replacePrototype (tag : String) (methods : MethodTable β) (keep : Option Register)
  | replacePrototypeSlots (tag : String) (slots : NameMap Term) (keep : Option Register)
  | setSlot (record : Register) (name : String) (value : Term)
  | mutateSharedSlot (tag : String) (name : String) (value : Term)
  | relinkConstructor (tag : String)
  | allocateMethod (name : String) (body : β) (keep : Option Register)
  -- Questions to a model about itself.
  | recordForTag (tag : String) (keep : Option Register)
  | currentRecord (tag : String) (keep : Option Register)
  | recordCount
  | limits
  | describeRecord (record : Register)
  | recordSnapshot (record : Register)
  | slot (record : Register) (name : String)
  -- Questions to a model about instances.
  | get (object : Register) (name : String)
  | hasProperty (object : Register) (name : String)
  | call (object : Register) (name : String) (args : List Term)
  | sharesRecordWith (a b : Register)
  | sameMethodReference (a b : Register) (name : String)
  | producedBy (object : Register) (tag : String)
  | isInstanceOf (object : Register) (tag : String)
  | constructorOf (object : Register)
  | snapshot (object : Register)
  -- Work on instances.
  | prototype (object : Register) (keep : Option Register)
  | setPrototype (object : Register) (record : Option Register)
  | getOwn (object : Register) (name : String)
  | setOwn (object : Register) (name : String) (value : Term)
  | deleteOwn (object : Register) (name : String)
  | hasOwn (object : Register) (name : String)
  | ownKeys (object : Register)
  /-- Looks a property up, concatenates the value to it, and keeps the result as own property. -/
  | appendOwn (object : Register) (name : String) (value : Term)
  /-- Looks a property up and keeps it, as it is, as an own property of another instance. -/
  | copyProperty (object : Register) (name : String) (target : Register) (targetName : String)
  | clone (object : Register) (keep : Register)
  | drop (object : Register)
  -- Comparisons of identities.
  | compareRecords (a b : Register)
  | compareMethods (a b : Register)

/-- What a session answers to a command that was not refused. -/
inductive Answer (β : Type) where
  | done
  | flag (b : Bool)
  | count (n : Nat)
  | limit (n : Nat)
  | value (v : Value (Method β))
  | optionalValue (v : Option (Value (Method β)))
  | names (ns : List String)
  | optionalTag (tag : Option String)
  | object (i : Instance β)
  | record (id : RecordId)
  | optionalRecord (id : Option RecordId)
  | prototype (id : Option RecordId)
  | method (f : Method β)
  | recordState (r : Record β)
  | recordSnapshot (s : RecordSnapshot β)
  | snapshot (s : Snapshot β)
  | comparison (equal : Bool) (order : Ordering)

end Delegation
