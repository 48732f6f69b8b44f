import Delegation.Model.Query
/-!
# Snapshots

What an instance and its record look like at one moment, both tiers side by side and apart from the
model. A snapshot of an instance is refused exactly when its prototype is no record of this model.
-/

namespace Delegation

/-- A record at one moment. -/
structure RecordSnapshot (β : Type) where
  id : RecordId
  creatorTag : String
  backLink : Option String
  slots : PropertyMap β

/-- An instance at one moment, with the record it delegates to. -/
structure Snapshot (β : Type) where
  own : PropertyMap β
  prototype : Option (RecordSnapshot β)

/-- What a snapshot keeps of a record. -/
def Record.snapshot {β : Type} (r : Record β) : RecordSnapshot β :=
  { id := r.id, creatorTag := r.creatorTag, backLink := r.backLink, slots := r.slots }

namespace Model

variable {β : Type}

/-- The snapshot of a record, under the handle it was asked for. -/
def recordSnapshot (m : Model β) (id : RecordId) : Except Fault (RecordSnapshot β) := do
  let record ← m.record id
  return { record.snapshot with id }

/-- The snapshot of an instance. -/
def snapshot (m : Model β) (i : Instance β) : Except Fault (Snapshot β) :=
  match i.prototype with
  | none => .ok { own := i.own, prototype := none }
  | some id => do
    let prototype ← m.recordSnapshot id
    return { own := i.own, prototype := some prototype }

end Model

end Delegation
