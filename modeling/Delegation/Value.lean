import Delegation.Fault
import Delegation.Number.Basic
/-!
# Values

What a property holds: a plain datum, an array of values, or a method. The kind of method is a
parameter `μ`, so one definition serves values with methods in them, values that still name their
methods, and values in which methods have been renamed; `Value.map` passes between these.

A value nests through the lists inside arrays. `Value.induct` is the induction that goes with it:
an array may assume the statement of every value it holds.
-/

namespace Delegation

/-- A value whose methods are of type `μ`. -/
inductive Value (μ : Type) where
  | undefined
  | null
  | bool (b : Bool)
  | number (x : Number)
  | string (s : String)
  /-- An array never changes; operations make a new one. -/
  | array (items : List (Value μ))
  | method (m : μ)

namespace Value

variable {μ ν : Type}

instance : Inhabited (Value μ) := ⟨undefined⟩

/-- **Induction on values.** An array may assume the statement of everything it holds. -/
theorem induct {motive : Value μ → Prop} (undefined : motive .undefined) (null : motive .null)
    (bool : ∀ b, motive (.bool b)) (number : ∀ x, motive (.number x))
    (string : ∀ s, motive (.string s))
    (array : ∀ items, (∀ v ∈ items, motive v) → motive (.array items))
    (method : ∀ m, motive (.method m)) (v : Value μ) : motive v :=
  Value.rec (motive_1 := motive) (motive_2 := fun items => ∀ v ∈ items, motive v)
    undefined null bool number string array method
    (fun _ h => nomatch h)
    (fun _ _ hd tl v h => (List.mem_cons.1 h).elim (fun e => e ▸ hd) (tl v)) v

/-! ## Views -/

/-- The text of a string. -/
def asString : Value μ → Option String
  | .string s => some s
  | _ => none

/-- The number of a number. -/
def asNumber : Value μ → Option Number
  | .number x => some x
  | _ => none

/-- The items of an array. -/
def asArray : Value μ → Option (List (Value μ))
  | .array items => some items
  | _ => none

/-- The method of a method. -/
def asMethod : Value μ → Option μ
  | .method m => some m
  | _ => none

/-- Whether the value is a method. -/
def isMethod (v : Value μ) : Bool := v.asMethod.isSome

/-- The name of a value's type. Null and arrays are objects. -/
def typeName : Value μ → String
  | .undefined => "undefined"
  | .null | .array _ => "object"
  | .bool _ => "boolean"
  | .number _ => "number"
  | .string _ => "string"
  | .method _ => "function"

/-! ## Changing the methods -/

mutual

/-- Applies a function to every method in a value. -/
def map (f : μ → ν) : Value μ → Value ν
  | .undefined => .undefined
  | .null => .null
  | .bool b => .bool b
  | .number x => .number x
  | .string s => .string s
  | .array items => .array (mapAll f items)
  | .method m => .method (f m)

/-- Applies a function to every method in a list of values. -/
def mapAll (f : μ → ν) : List (Value μ) → List (Value ν)
  | [] => []
  | v :: vs => map f v :: mapAll f vs

end

@[simp] theorem mapAll_eq (f : μ → ν) (vs : List (Value μ)) : mapAll f vs = vs.map (map f) := by
  induction vs with
  | nil => rfl
  | cons v vs ih => rw [mapAll, ih, List.map_cons]

mutual

/-- Replaces every method in a value, in order, by something that may have effects. -/
def traverse {m : Type → Type} [Monad m] (f : μ → m ν) : Value μ → m (Value ν)
  | .undefined => return .undefined
  | .null => return .null
  | .bool b => return .bool b
  | .number x => return .number x
  | .string s => return .string s
  | .array items => do return .array (← traverseAll f items)
  | .method x => do return .method (← f x)

/-- Replaces every method in a list of values. -/
def traverseAll {m : Type → Type} [Monad m] (f : μ → m ν) : List (Value μ) → m (List (Value ν))
  | [] => return []
  | v :: vs => do return (← traverse f v) :: (← traverseAll f vs)

end

/-! ## Equality -/

mutual

/-- Equality as programs see it: content, number by number; methods are compared by `same`. -/
def equals (same : μ → μ → Bool) : Value μ → Value μ → Bool
  | .undefined, .undefined => true
  | .null, .null => true
  | .bool a, .bool b => a == b
  | .number x, .number y => x.equals y
  | .string s, .string t => s == t
  | .array xs, .array ys => equalsAll same xs ys
  | .method m, .method n => same m n
  | _, _ => false

/-- Lists are equal with the same length and equal items. -/
def equalsAll (same : μ → μ → Bool) : List (Value μ) → List (Value μ) → Bool
  | [], [] => true
  | v :: vs, w :: ws => equals same v w && equalsAll same vs ws
  | _, _ => false

end

/-! ## Concatenation -/

/-- What a value contributes to an array: an array its items, anything else itself. -/
def spread : Value μ → List (Value μ)
  | .array items => items
  | v => [v]

/-- A new array with `extra` after the items of the array `v`. -/
def concat (v extra : Value μ) : Except Fault (Value μ) :=
  match v with
  | .array items => .ok (.array (items ++ extra.spread))
  | _ => .error (.typeError "concat called on a non-array value")

@[simp] theorem concat_array (items : List (Value μ)) (extra : Value μ) :
    (array items).concat extra = .ok (.array (items ++ extra.spread)) := rfl

end Value

end Delegation
