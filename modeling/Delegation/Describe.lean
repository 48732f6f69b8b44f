import Delegation.Method
import Delegation.Number.Shortest
import Delegation.Strategy
/-!
# Descriptions

How values, handles and tables are shown to a developer: every constructor by its name, texts
quoted, and numbers in the fewest digits that read back, set out positionally for the sizes that are
read easily that way. How a model is called is a parameter, since its number means little to a
reader.
-/

namespace Delegation

variable {β : Type}

/-- How numbers are set out: positionally from the fourth place after the point to the sixteenth
before it. -/
def describeLayout : Number.Layout := { leastPositional := -4, greatestPositional := 15 }

/-- A record's handle. -/
def RecordId.describe (modelName : UInt32 → String) (id : RecordId) : String :=
  "RecordId \x7b index: " ++ toString id.index.toNat ++ ", model: " ++ modelName id.model ++ " \x7d"

/-- A method, by its identity and name. -/
def Method.describe (modelName : UInt32 → String) (f : Method β) : String :=
  "Method \x7b id: MethodId \x7b model: ModelNonce(" ++ modelName f.id.model ++ "), seq: "
    ++ toString f.id.seq ++ " \x7d, name: " ++ Text.quoted f.name ++ " \x7d"

namespace Value

mutual

/-- A value, by its constructor and content. -/
def describe (modelName : UInt32 → String) : Value (Method β) → String
  | .undefined => "Undefined"
  | .null => "Null"
  | .bool b => if b then "Bool(true)" else "Bool(false)"
  | .number x => "Number(" ++ describeLayout.number x ++ ")"
  | .string s => "String(" ++ Text.quoted s ++ ")"
  | .array items => "Array([" ++ ", ".intercalate (describeAll modelName items) ++ "])"
  | .method f => "Method(" ++ f.describe modelName ++ ")"

/-- Each value of a list. -/
def describeAll (modelName : UInt32 → String) : List (Value (Method β)) → List String
  | [] => []
  | v :: vs => describe modelName v :: describeAll modelName vs

end

end Value

/-- A method table, as the set of its names. -/
def MethodTable.describe (t : MethodTable β) : String :=
  "\x7b" ++ ", ".intercalate (t.keys.map Text.quoted) ++ "\x7d"

/-- A creator tag. -/
def describeTag (tag : String) : String := "CreatorTag(" ++ Text.quoted tag ++ ")"

/-- A strategy, by its constructor. -/
def Strategy.describe : Strategy → String
  | .factory => "Factory"
  | .constructorOnly => "ConstructorOnly"
  | .constructorWithPrototype => "ConstructorWithPrototype"
  | .dynamicPrototype => "DynamicPrototype"

end Delegation
