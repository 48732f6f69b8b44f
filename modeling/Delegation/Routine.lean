import Delegation.Model.Query
import Delegation.Number.Rounding
/-!
# Routines

A small language of method bodies: each body does one thing with the receiver and the arguments. A
body may hold values, values may hold methods, and methods have bodies, so the type of instructions
takes the type of its values as a parameter and `Closure` ties the knot.

Two instructions call a method of the receiver by name. Which method that is depends on the name
alone, since nothing changes during a call. So a chain of calls that is longer than the number of
names on the receiver has come back to a name, and never ends: `Closure.run` follows a chain that
far and then answers `endlessCall`. A chain that ends is followed to its end.
-/

namespace Delegation

/-! ## Instructions -/

/-- What a body does; values in it are of type `ν`. -/
inductive Routine (ν : Type) where
  /-- A property of the receiver. -/
  | get (name : String)
  /-- The same, with a value to answer where there is no such property. -/
  | getOr (name : String) (fallback : ν)
  | const (value : ν)
  /-- One argument, by its place. -/
  | arg (place : Nat)
  /-- All arguments, as an array. -/
  | args
  | argCount
  /-- An array of the receiver followed by an argument. -/
  | concat (name : String) (place : Nat)
  /-- A method of the receiver, called with the same arguments. -/
  | call (name : String)
  /-- A method of the receiver, called with one argument. -/
  | callWith (name : String) (value : ν)
  /-- The names of the receiver's own properties. -/
  | ownKeys
  | has (name : String)
  /-- The name of the type of a property. -/
  | typeName (name : String)
  /-- Says that the receiver greets the first argument. -/
  | greet
  | fail (fault : Fault)

/-- Replaces every value in an instruction by something that may have effects. -/
def Routine.traverse {m : Type → Type} [Monad m] {ν ξ : Type} (f : ν → m ξ) :
    Routine ν → m (Routine ξ)
  | .get name => return .get name
  | .getOr name fallback => do return .getOr name (← f fallback)
  | .const value => do return .const (← f value)
  | .arg place => return .arg place
  | .args => return .args
  | .argCount => return .argCount
  | .concat name place => return .concat name place
  | .call name => return .call name
  | .callWith name value => do return .callWith name (← f value)
  | .ownKeys => return .ownKeys
  | .has name => return .has name
  | .typeName name => return .typeName name
  | .greet => return .greet
  | .fail fault => return .fail fault

/-- A method body: a routine whose values may hold methods with such bodies. -/
inductive Closure where
  | mk (code : Routine (Value (Method Closure)))

/-- The routine of a body. -/
def Closure.code : Closure → Routine (Value (Method Closure))
  | .mk code => code

/-! ## Running -/

/-- Carries an instruction out; `invoke` calls a method of the receiver. -/
def Routine.run {β : Type}
    (invoke : String → List (Value (Method β)) → Except Fault (Value (Method β)))
    (code : Routine (Value (Method β))) (c : Call β) : Except Fault (Value (Method β)) :=
  match code with
  | .get name => c.get name
  | .getOr name fallback =>
    match c.get name with
    | .error (.propertyNotFound _) => .ok fallback
    | answer => answer
  | .const value => .ok value
  | .arg place => .ok (c.arg place)
  | .args => .ok (.array c.args)
  | .argCount => .ok (.number (Number.ofNat c.args.length))
  | .concat name place => do (← c.get name).concat (c.arg place)
  | .call name => invoke name c.args
  | .callWith name value => invoke name [value]
  | .ownKeys => .ok (.array (c.this.ownKeys.map .string))
  | .has name => .ok (.bool (c.model.hasProperty c.this name))
  | .typeName name => do return .string (← c.get name).typeName
  | .greet => do
    let name := (← c.get "name").asString.getD ""
    let other := (c.arg 0).asString.getD "nobody"
    return .string (name ++ " greets " ++ other)
  | .fail fault => .error fault

/-- How many names can be looked up on the receiver at most. -/
def Call.nameBound {β : Type} (c : Call β) : Nat :=
  c.this.own.size + ((c.model.prototypeRecord? c.this).map fun r => r.slots.size).getD 0

/-- Carries a body out, following at most `depth` calls of the receiver's methods. -/
def Closure.runWithin : Nat → Closure → Call Closure → Except Fault (Value (Method Closure))
  | 0, f, c => f.code.run (fun _ _ => .error .endlessCall) c
  | depth + 1, f, c =>
    f.code.run
      (fun name args => do
        match (← c.get name).asMethod with
        | some method => Closure.runWithin depth method.body { c with args }
        | none => .error .notCallable)
      c

/-- Carries a body out. -/
def Closure.run (f : Closure) (c : Call Closure) : Except Fault (Value (Method Closure)) :=
  f.runWithin (c.nameBound + 1) c

instance : Code Closure := ⟨Closure.run⟩

end Delegation
