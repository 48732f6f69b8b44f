import Delegation.Number.Shortest
/-!
# Documents

JSON documents as the program writes them. An object keeps the order of its fields. Integers
are written without a point and numbers always with one, or with an exponent, in the fewest digits
that read back; a number that is not finite cannot be written and stands as null.
-/

namespace Delegation

/-- A JSON document. -/
inductive Document where
  | null
  | bool (b : Bool)
  /-- A whole number, such as a place or an identity. -/
  | integer (n : Int)
  | number (x : Number)
  | string (s : String)
  | list (items : List Document)
  | object (fields : List (String × Document))

namespace Document

instance : Inhabited Document := ⟨null⟩

/-- The document of something that may be missing. -/
def ofOption {α : Type} (f : α → Document) : Option α → Document
  | some a => f a
  | none => .null

/-! ## Writing -/

/-- How numbers are set out: positionally from the fifth place after the point to the sixteenth
before it. -/
def layout : Number.Layout := { leastPositional := -5, greatestPositional := 15 }

/-- One character between the quotes of a string. -/
def stringChar (c : Char) : List Char :=
  if c = '"' then ['\\', '"']
  else if c = '\\' then ['\\', '\\']
  else if c = '\x08' then ['\\', 'b']
  else if c = '\x0c' then ['\\', 'f']
  else if c = '\n' then ['\\', 'n']
  else if c = '\r' then ['\\', 'r']
  else if c = '\t' then ['\\', 't']
  else if c.toNat < 0x20 then
    ['\\', 'u', '0', '0', Nat.digitChar (c.toNat / 16), Nat.digitChar (c.toNat % 16)]
  else [c]

/-- A string between its quotes. -/
def renderString (s : String) : String :=
  String.ofList ('"' :: s.toList.flatMap stringChar ++ ['"'])

/-- A number, or null where there is no way to write it. -/
def renderNumber (x : Number) : String :=
  if x.isFinite then layout.number x else "null"

mutual

/-- The text of a document, without any blank. -/
def render : Document → String
  | .null => "null"
  | .bool b => if b then "true" else "false"
  | .integer n => toString n
  | .number x => renderNumber x
  | .string s => renderString s
  | .list items => "[" ++ ",".intercalate (renderItems items) ++ "]"
  | .object fields => "\x7b" ++ ",".intercalate (renderFields fields) ++ "\x7d"

/-- The texts of the items of a list. -/
def renderItems : List Document → List String
  | [] => []
  | d :: ds => render d :: renderItems ds

/-- The texts of the fields of an object. -/
def renderFields : List (String × Document) → List String
  | [] => []
  | (name, d) :: fields => (renderString name ++ ":" ++ render d) :: renderFields fields

end

end Document

end Delegation
