import Delegation.Model.Action
/-!
# Storing and replacing records

The calls that store records and write their slots. Writing a slot changes a record in place, so all
instances that delegate to it see the write. Replacing stores a new record and leaves the old one as
it is: instances that delegate to the old record keep it, and only if it was its tag's current one
do later instances attach to the new one.

A replacement is refused before anything is stored. Methods for `replacePrototype` are allocated
first of all, so their identities are spent even when the table turns out to be full.

The second half gives one equation for each call: what it answers, the state it leaves and the
journal it writes, all of them at once. Proofs use these and leave the definitions closed.
-/

namespace Delegation.Model

variable {β : Type}

/-- Stores a record and reports it. -/
def store (r : Record β) (bind : Bool) : Action β Unit := do
  .report (.allocated r.id.index.toNat r.creatorTag bind)
  .change fun m => m.push r bind

/-- Stores an empty record for the tag and makes it the current one. -/
def createRecord (tag : String) : Action β RecordId := do
  let id ← .consult nextRecordId
  store (.new id tag) true
  return id

/-- Writes a slot in place. -/
def setSlot (id : RecordId) (name : String) (value : Value (Method β)) : Action β Unit := do
  let r ← .consult fun m => m.record id
  .report (.slotSet r.id.index.toNat name)
  .change fun m => m.modifyRecord id fun r => r.setSlot name value

/-- Writes a slot of the tag's current record. -/
def mutateSharedSlot (tag : String) (name : String) (value : Value (Method β)) :
    Action β Unit := do
  let id ← .consult fun m => m.recordForTag tag
  setSlot id name value

/-- Links the tag's current record to the tag again. -/
def relinkConstructor (tag : String) : Action β Unit := do
  let id ← .consult fun m => m.recordForTag tag
  let _ ← .consult fun m => m.record id
  .change fun m => m.modifyRecord id Record.relink

/-- Stores a record with `slots` for the tag, reported as a replacement of `old`. -/
def storeReplacement (tag : String) (old : Option RecordId) (new : RecordId)
    (slots : PropertyMap β) (bind : Bool) : Action β RecordId :=
  .within (.replaceSlots tag (old.map (·.index.toNat)) new.index.toNat) do
    store (.withSlots new tag slots) bind
    .report .severed
    return new

/-- Replaces a record by one with `slots`, for later instances of its tag if it was current. -/
def replaceSlots (id : RecordId) (slots : PropertyMap β) : Action β RecordId := do
  let old ← .consult fun m => m.record id
  let new ← .consult nextRecordId
  let bound ← .ask fun m => decide (m.currentRecord old.creatorTag = some id)
  storeReplacement old.creatorTag (some id) new slots bound

/-- Gives the tag a new current record with `slots`, whether or not it had one. -/
def replacePrototypeSlots (tag : String) (slots : PropertyMap β) : Action β RecordId := do
  match ← .ask fun m => m.currentRecord tag with
  | some old => replaceSlots old slots
  | none =>
    let new ← .consult nextRecordId
    storeReplacement tag none new slots true

/-- Allocates a method for every body in a list, in order. -/
def allocateAll : List (String × β) → Action β (List (String × Value (Method β)))
  | [] => return []
  | (name, body) :: rest => do
    let method ← .allocate name body
    ((name, .method method) :: ·) <$> allocateAll rest

/-- Gives the tag a new current record with a method for every body of the table. -/
def replacePrototype (tag : String) (methods : MethodTable β) : Action β RecordId := do
  let slots ← allocateAll methods.toList
  replacePrototypeSlots tag (.ofList slots)

/-! ## One equation for each call -/

theorem run_createRecord (tag : String) (m : Model β) :
    (createRecord tag).run m =
      match m.nextRecordId with
      | .ok id =>
        { answer := .ok id
          model := m.push (.new id tag) true
          journal := [.logged (.allocated id.index.toNat tag true)] }
      | .error f => { answer := .error f, model := m, journal := [] } := by
  rw [createRecord, Action.run_bind, Action.run_consult]
  cases m.nextRecordId <;> rfl

theorem run_setSlot (id : RecordId) (name : String) (value : Value (Method β)) (m : Model β) :
    (setSlot id name value).run m =
      match m.record id with
      | .ok r =>
        { answer := .ok ()
          model := m.modifyRecord id fun r => r.setSlot name value
          journal := [.logged (.slotSet r.id.index.toNat name)] }
      | .error f => { answer := .error f, model := m, journal := [] } := by
  rw [setSlot, Action.run_bind, Action.run_consult]
  cases m.record id <;> rfl

theorem run_mutateSharedSlot (tag name : String) (value : Value (Method β)) (m : Model β) :
    (mutateSharedSlot tag name value).run m =
      match m.recordForTag tag with
      | .ok id => (setSlot id name value).run m
      | .error f => { answer := .error f, model := m, journal := [] } := by
  rw [mutateSharedSlot, Action.run_bind, Action.run_consult]
  cases m.recordForTag tag <;> rfl

theorem run_relinkConstructor (tag : String) (m : Model β) :
    (relinkConstructor tag).run m =
      match m.recordForTag tag with
      | .ok id =>
        { answer := (m.record id).map fun _ => ()
          model := m.modifyRecord id Record.relink
          journal := [] }
      | .error f => { answer := .error f, model := m, journal := [] } := by
  rw [relinkConstructor, Action.run_bind, Action.run_consult]
  cases m.recordForTag tag with
  | error f => rfl
  | ok id =>
    simp only [Action.andThen_ok, Action.run_bind, Action.run_consult]
    cases h : m.record id with
    | ok r => rfl
    | error f =>
      simp only [Action.andThen_error, modifyRecord_eq_self_of_error h]
      rfl

theorem run_storeReplacement (tag : String) (old : Option RecordId) (new : RecordId)
    (slots : PropertyMap β) (bind : Bool) (m : Model β) :
    (storeReplacement tag old new slots bind).run m =
      { answer := .ok new
        model := m.push (.withSlots new tag slots) bind
        journal := [
          .opened (.replaceSlots tag (old.map (·.index.toNat)) new.index.toNat),
          .logged (.allocated new.index.toNat tag bind),
          .logged .severed,
          .closed (.replaceSlots tag (old.map (·.index.toNat)) new.index.toNat)] } := rfl

theorem run_replaceSlots (id : RecordId) (slots : PropertyMap β) (m : Model β) :
    (replaceSlots id slots).run m =
      match m.record id, m.nextRecordId with
      | .ok old, .ok new =>
        (storeReplacement old.creatorTag (some id) new slots
          (decide (m.currentRecord old.creatorTag = some id))).run m
      | .error f, _ => { answer := .error f, model := m, journal := [] }
      | .ok _, .error f => { answer := .error f, model := m, journal := [] } := by
  rw [replaceSlots, Action.run_bind, Action.run_consult]
  cases m.record id with
  | error f => rfl
  | ok old =>
    simp only [Action.andThen_ok, Action.run_bind, Action.run_consult]
    cases m.nextRecordId <;> rfl

theorem run_replacePrototypeSlots (tag : String) (slots : PropertyMap β) (m : Model β) :
    (replacePrototypeSlots tag slots).run m =
      match m.currentRecord tag, m.nextRecordId with
      | some old, _ => (replaceSlots old slots).run m
      | none, .ok new => (storeReplacement tag none new slots true).run m
      | none, .error f => { answer := .error f, model := m, journal := [] } := by
  rw [replacePrototypeSlots, Action.run_bind, Action.run_ask, Action.andThen_ok]
  cases m.currentRecord tag with
  | some old => rfl
  | none =>
    simp only [Action.run_bind, Action.run_consult]
    cases m.nextRecordId <;> rfl

/-! ## Allocating many methods -/

/-- Allocating a list of bodies yields their methods in order, is never refused, and is silent. -/
theorem run_allocateAll (bodies : List (String × β)) (m : Model β) :
    (allocateAll bodies).run m =
      { answer := .ok (m.nextMethods bodies)
        model := m.countMethods bodies.length
        journal := [] } := by
  induction bodies generalizing m with
  | nil => rfl
  | cons p rest ih =>
    obtain ⟨name, body⟩ := p
    rw [allocateAll, Action.run_bind, Action.run_allocate, Action.andThen_ok, Action.run_map, ih]
    simp only [Action.map_ok, nextMethods, countMethods, countMethod, List.length_cons,
      List.nil_append, Nat.add_assoc, Nat.add_comm 1]

theorem run_replacePrototype (tag : String) (methods : MethodTable β) (m : Model β) :
    (replacePrototype tag methods).run m =
      (replacePrototypeSlots tag (.ofList (m.nextMethods methods.toList))).run
        (m.countMethods methods.size) := by
  rw [replacePrototype, Action.run_bind, run_allocateAll, Action.andThen_ok]
  rfl

end Delegation.Model
