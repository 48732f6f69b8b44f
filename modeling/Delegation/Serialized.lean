import Delegation.Document
import Delegation.Model.Snapshot
/-!
# Values and snapshots as documents

What leaves the program. Undefined and methods have no counterpart in a document, so each is an
object with a marker for its first field; no value is written as an object otherwise. A method is
written by its name and its age, without its model, because a snapshot describes one model only.
-/

namespace Delegation

variable {β : Type}

/-- The document of a number: one that is not finite is null. -/
def Number.document (x : Number) : Document := if x.isFinite then .number x else .null

/-- The document of a method. -/
def Method.document (f : Method β) : Document :=
  .object [("$method", .string f.name), ("id", .integer f.id.seq)]

namespace Value

/-- The document that marks an undefined value. -/
def undefinedDocument : Document := .object [("$undefined", .bool true)]

mutual

/-- The document of a value. -/
def document : Value (Method β) → Document
  | .undefined => undefinedDocument
  | .null => .null
  | .bool b => .bool b
  | .number x => x.document
  | .string s => .string s
  | .array items => .list (documents items)
  | .method f => f.document

/-- The documents of a list of values. -/
def documents : List (Value (Method β)) → List Document
  | [] => []
  | v :: vs => document v :: documents vs

end

@[simp] theorem documents_eq (vs : List (Value (Method β))) : documents vs = vs.map document := by
  induction vs with
  | nil => rfl
  | cons v vs ih => rw [documents, ih, List.map_cons]

end Value

/-- The document of named values, in the order of the names. -/
def propertiesDocument (ps : PropertyMap β) : Document :=
  .object (ps.toList.map fun p => (p.1, p.2.document))

/-- The document of a record's snapshot. -/
def RecordSnapshot.document (s : RecordSnapshot β) : Document :=
  .object [
    ("id", .integer s.id.index.toNat),
    ("creator_tag", .string s.creatorTag),
    ("constructor", .ofOption .string s.backLink),
    ("slots", propertiesDocument s.slots)]

/-- The document of an instance's snapshot; without a record there is no field for one. -/
def Snapshot.document (s : Snapshot β) : Document :=
  match s.prototype with
  | none => .object [("own", propertiesDocument s.own)]
  | some r => .object [("own", propertiesDocument s.own), ("prototype", r.document)]

end Delegation
