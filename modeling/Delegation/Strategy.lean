import Delegation.Fault
/-!
# Construction strategies

How a new instance is laid out. Two strategies copy every method into the instance; two leave the
methods in a record that all instances of a tag share, and differ in when they write them there.
Each strategy has one name, and reading a name gives its strategy back (`ofName?_name`).
-/

namespace Delegation

/-- The layout of a new instance. -/
inductive Strategy where
  /-- Fields and a fresh copy of every method, no record. -/
  | factory
  /-- The same layout as `factory`. -/
  | constructorOnly
  /-- Fields only; the methods are in the tag's record, written when the record is made. -/
  | constructorWithPrototype
  /-- Fields only; the methods are in the tag's record, written when it is found empty. -/
  | dynamicPrototype
  deriving DecidableEq

namespace Strategy

/-- All strategies, in their order. -/
def all : List Strategy := [factory, constructorOnly, constructorWithPrototype, dynamicPrototype]

/-- The name of a strategy. -/
def name : Strategy → String
  | factory => "factory"
  | constructorOnly => "constructorOnly"
  | constructorWithPrototype => "constructorWithPrototype"
  | dynamicPrototype => "dynamicPrototype"

/-- Whether instances share a record. -/
def delegates : Strategy → Bool
  | factory | constructorOnly => false
  | constructorWithPrototype | dynamicPrototype => true

/-- Place in the order of all strategies. -/
def position : Strategy → Nat
  | factory => 0
  | constructorOnly => 1
  | constructorWithPrototype => 2
  | dynamicPrototype => 3

/-- The strategy of a name. -/
def ofName? (s : String) : Option Strategy := all.find? fun strategy => strategy.name == s

/-- The strategy of a name, or the fault of naming none. -/
def ofName (s : String) : Except Fault Strategy :=
  match ofName? s with
  | some strategy => .ok strategy
  | none => .error (.invalidStrategy s)

theorem ofName?_name (s : Strategy) : ofName? s.name = some s := by
  cases s <;> decide

theorem name_of_ofName? {s : String} {strategy : Strategy} (h : ofName? s = some strategy) :
    strategy.name = s := by
  simpa using List.find?_some h

end Strategy

end Delegation
