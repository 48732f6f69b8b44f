import Delegation.Method
import Delegation.NameMap.Lemmas
/-!
# Records

A record holds the slots that instances delegate to. Its identity and its tag are fixed; its slots
change in place, one write at a time, and every write is counted. A record made by construction
links back to its tag; one made as a replacement starts with its slots and without the link.
-/

namespace Delegation

/-- A shared record of slots. -/
structure Record (β : Type) where
  id : RecordId
  /-- The tag whose instances attach to the record. -/
  creatorTag : String
  /-- What delegating instances see. -/
  slots : PropertyMap β
  /-- The tag whose constructor owns the record, if the link is in place. -/
  backLink : Option String
  /-- How many slots have been written in place. -/
  slotWrites : Nat

namespace Record

variable {β : Type}

/-- A record without slots, linked to its tag. -/
def new (id : RecordId) (tag : String) : Record β :=
  { id, creatorTag := tag, slots := ∅, backLink := some tag, slotWrites := 0 }

/-- A record that starts out with slots and without a link. -/
def withSlots (id : RecordId) (tag : String) (slots : PropertyMap β) : Record β :=
  { id, creatorTag := tag, slots, backLink := none, slotWrites := 0 }

/-- Whether there is any slot. -/
def isPopulated (r : Record β) : Bool := !r.slots.isEmpty

/-- Writes a slot in place. -/
def setSlot (r : Record β) (name : String) (value : Value (Method β)) : Record β :=
  { r with slots := r.slots.insert name value, slotWrites := r.slotWrites + 1 }

/-- Writes slots in place, one after another. -/
def setSlots (r : Record β) (ps : List (String × Value (Method β))) : Record β :=
  ps.foldl (fun r p => r.setSlot p.1 p.2) r

/-- Links the record to its own tag. -/
def relink (r : Record β) : Record β := { r with backLink := some r.creatorTag }

@[simp] theorem id_setSlot (r : Record β) (n : String) (v) : (r.setSlot n v).id = r.id := rfl

@[simp] theorem creatorTag_setSlot (r : Record β) (n : String) (v) :
    (r.setSlot n v).creatorTag = r.creatorTag := rfl

@[simp] theorem backLink_setSlot (r : Record β) (n : String) (v) :
    (r.setSlot n v).backLink = r.backLink := rfl

@[simp] theorem slotWrites_setSlot (r : Record β) (n : String) (v) :
    (r.setSlot n v).slotWrites = r.slotWrites + 1 := rfl

/-- A written record has a slot. -/
@[simp] theorem isPopulated_setSlot (r : Record β) (n : String) (v) :
    (r.setSlot n v).isPopulated = true := by
  simp [isPopulated, setSlot]

end Record

end Delegation
