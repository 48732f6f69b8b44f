import Delegation.Session.Command
/-!
# Sessions

Several models side by side, and registers that hold what they made. A session carries out one
command after another. A command that is refused leaves the registers as they were, but not
necessarily its model: a model keeps what the call had done before it was refused.

Instances remember the model that built them, since they may be asked about at any other. Copies of
an instance keep that memory.
-/

namespace Delegation

/-- An instance in a register, with the place of the model that built it. -/
structure Resident (β : Type) where
  home : Nat
  object : Instance β

/-- Models, and registers for what they made. -/
structure Session (β : Type) where
  models : Array (Model β)
  objects : NameMap (Resident β)
  records : NameMap RecordId
  methods : NameMap (Method β)

/-- What a command names that is not there. -/
inductive Missing where
  | model (place : Nat)
  | object (register : Register)
  | record (register : Register)
  | method (register : Register)
  deriving DecidableEq

/-- What a command leaves behind. -/
structure Turn (β : Type) where
  answer : Except Fault (Answer β)
  session : Session β
  journal : Journal

namespace Session

variable {β : Type}

/-- A session with one model for every entry, numbered in order. -/
def new (limits : List Limits) : Session β :=
  { models := (limits.mapIdx fun place l => Model.new (UInt32.ofNat place) l).toArray
    objects := ∅, records := ∅, methods := ∅ }

/-! ## Registers -/

/-- Keeps something in a register, if one is given. -/
def keepIn {α : Type} (registers : NameMap α) (register : Option Register) (x : α) : NameMap α :=
  match register with
  | some name => registers.insert name x
  | none => registers

/-- The model at a place. -/
def model (s : Session β) (place : Nat) : Except Missing (Model β) :=
  match s.models[place]? with
  | some m => .ok m
  | none => .error (.model place)

/-- The instance in a register, with its home. -/
def resident (s : Session β) (name : Register) : Except Missing (Resident β) :=
  match s.objects.get? name with
  | some r => .ok r
  | none => .error (.object name)

/-- The instance in a register. -/
def object (s : Session β) (name : Register) : Except Missing (Instance β) := do
  return (← s.resident name).object

/-- The record's handle in a register. -/
def recordId (s : Session β) (name : Register) : Except Missing RecordId :=
  match s.records.get? name with
  | some id => .ok id
  | none => .error (.record name)

/-- The method in a register. -/
def method (s : Session β) (name : Register) : Except Missing (Method β) :=
  match s.methods.get? name with
  | some f => .ok f
  | none => .error (.method name)

/-- A value of a command, with the methods that its registers hold. -/
def value (s : Session β) (term : Term) : Except Missing (Value (Method β)) :=
  term.traverse s.method

/-- Named values of a command, with the methods that their registers hold. -/
def properties (s : Session β) (terms : NameMap Term) : Except Missing (PropertyMap β) := do
  return .ofList (← terms.toList.mapM fun p => do return (p.1, ← s.value p.2))

/-- Puts an instance back into its register. -/
def putObject (s : Session β) (name : Register) (object : Instance β) : Session β :=
  match s.objects.get? name with
  | some r => { s with objects := s.objects.insert name { r with object } }
  | none => s

/-- Keeps a record's handle, if there is one and a register for it. -/
def keepRecord (s : Session β) (register : Option Register) (id : Option RecordId) : Session β :=
  match id with
  | some id => { s with records := keepIn s.records register id }
  | none => s

/-- Keeps what an operation on the model at `place` yields, each kind in its registers. -/
def keepProduct (s : Session β) (place : Nat) (register : Option Register) :
    Product β → Session β
  | .nothing => s
  | .record id => s.keepRecord register (some id)
  | .object i => { s with objects := keepIn s.objects register { home := place, object := i } }
  | .method f => { s with methods := keepIn s.methods register f }

/-! ## Ways to answer -/

/-- The answer that shows what an operation yields. -/
def productAnswer : Product β → Answer β
  | .nothing => .done
  | .record id => .record id
  | .object i => .object i
  | .method f => .method f

/-- Carries out an operation on a model, and keeps what it yields. -/
def operate (s : Session β) (place : Nat) (op : Operation β) (keep : Option Register) :
    Except Missing (Turn β) := do
  let o := op.action.run (← s.model place)
  let s := { s with models := s.models.setIfInBounds place o.model }
  match o.answer with
  | .ok product =>
    return {
      answer := .ok (productAnswer product)
      session := s.keepProduct place keep product
      journal := o.journal }
  | .error f => return { answer := .error f, session := s, journal := o.journal }

/-- Answers a question. -/
def reply {α : Type} (s : Session β) (question : Except Fault α) (answer : α → Answer β) :
    Turn β :=
  { answer := question.map answer, session := s, journal := [] }

/-- Answers, and leaves another session behind. -/
def finish (after : Session β) (answer : Answer β) : Turn β :=
  { answer := .ok answer, session := after, journal := [] }

/-! ## Commands -/

/-- Carries out a command on the model at a place. -/
def step [Code β] (s : Session β) (place : Nat) : Command β → Except Missing (Turn β)
  | .construct strategy tag fields methods keep => do
    s.operate place (.constructNamed strategy (← s.properties fields) methods tag) keep
  | .createRecord tag keep => s.operate place (.createRecord tag) keep
  | .replaceSlots record slots keep => do
    s.operate place (.replaceSlots (← s.recordId record) (← s.properties slots)) keep
  | .replacePrototype tag methods keep => s.operate place (.replacePrototype tag methods) keep
  | .replacePrototypeSlots tag slots keep => do
    s.operate place (.replacePrototypeSlots tag (← s.properties slots)) keep
  | .setSlot record name value => do
    s.operate place (.setSlot (← s.recordId record) name (← s.value value)) none
  | .mutateSharedSlot tag name value => do
    s.operate place (.mutateSharedSlot tag name (← s.value value)) none
  | .relinkConstructor tag => s.operate place (.relinkConstructor tag) none
  | .allocateMethod name body keep => s.operate place (.allocate name body) keep
  | .recordForTag tag keep => do
    match (← s.model place).recordForTag tag with
    | .ok id => return finish (s.keepRecord keep (some id)) (.record id)
    | .error f => return s.reply (.error f) .record
  | .currentRecord tag keep => do
    let id := (← s.model place).currentRecord tag
    return finish (s.keepRecord keep id) (.optionalRecord id)
  | .recordCount => do
    return s.reply (.ok (← s.model place).recordCount) .count
  | .limits => do
    return s.reply (.ok (← s.model place).limits.maxRecords) .limit
  | .describeRecord record => do
    return s.reply ((← s.model place).record (← s.recordId record)) .recordState
  | .recordSnapshot record => do
    return s.reply ((← s.model place).recordSnapshot (← s.recordId record)) .recordSnapshot
  | .slot record name => do
    return s.reply ((← s.model place).record (← s.recordId record))
      fun r => .optionalValue (r.slots.get? name)
  | .get object name => do
    return s.reply ((← s.model place).get (← s.object object) name) .value
  | .hasProperty object name => do
    return s.reply (.ok ((← s.model place).hasProperty (← s.object object) name)) .flag
  | .call object name args => do
    let args ← args.mapM s.value
    return s.reply ((← s.model place).callMethod (← s.object object) name args) .value
  | .sharesRecordWith a b => do
    return s.reply (.ok ((← s.model place).sharesRecordWith (← s.object a) (← s.object b))) .flag
  | .sameMethodReference a b name => do
    return s.reply ((← s.model place).sameMethodReference (← s.object a) (← s.object b) name) .flag
  | .producedBy object tag => do
    return s.reply (.ok ((← s.model place).producedBy (← s.object object) tag)) .flag
  | .isInstanceOf object tag => do
    return s.reply (.ok ((← s.model place).isInstanceOf (← s.object object) tag)) .flag
  | .constructorOf object => do
    return s.reply (.ok ((← s.model place).constructorOf (← s.object object))) .optionalTag
  | .snapshot object => do
    return s.reply ((← s.model place).snapshot (← s.object object)) .snapshot
  | .prototype object keep => do
    let id := (← s.object object).prototype
    return finish (s.keepRecord keep id) (.prototype id)
  | .setPrototype object record => do
    let i ← s.object object
    let id ← record.mapM s.recordId
    return finish (s.putObject object (i.setPrototype id)) .done
  | .getOwn object name => do
    return s.reply (.ok ((← s.object object).getOwn name)) .optionalValue
  | .setOwn object name value => do
    let i ← s.object object
    return finish (s.putObject object (i.setOwn name (← s.value value))) .done
  | .deleteOwn object name => do
    let i ← s.object object
    return finish (s.putObject object (i.deleteOwn name)) (.optionalValue (i.getOwn name))
  | .hasOwn object name => do
    return s.reply (.ok ((← s.object object).hasOwn name)) .flag
  | .ownKeys object => do
    return s.reply (.ok (← s.object object).ownKeys) .names
  | .appendOwn object name value => do
    let m ← s.model place
    let i ← s.object object
    match m.get i name with
    | .ok held =>
      match held.concat (← s.value value) with
      | .ok grown => return finish (s.putObject object (i.setOwn name grown)) (.value grown)
      | .error f => return s.reply (.error f) .value
    | .error f => return s.reply (.error f) .value
  | .copyProperty object name target targetName => do
    let m ← s.model place
    match m.get (← s.object object) name with
    | .ok found =>
      let j ← s.object target
      return finish (s.putObject target (j.setOwn targetName found)) (.value found)
    | .error f => return s.reply (.error f) .value
  | .clone object keep => do
    let r ← s.resident object
    return finish { s with objects := s.objects.insert keep r } .done
  | .drop object =>
    return finish { s with objects := s.objects.erase object } (.flag (s.objects.contains object))
  | .compareRecords a b => do
    let ra ← s.recordId a
    let rb ← s.recordId b
    return finish s (.comparison (ra == rb) (compare ra rb))
  | .compareMethods a b => do
    let fa ← s.method a
    let fb ← s.method b
    return finish s (.comparison (fa.id == fb.id) (compare fa.id fb.id))

/-! ## What there is in the end -/

/-- Every instance by its register, as it looks on the model that built it. -/
def snapshots (s : Session β) : List (Register × Except Fault (Snapshot β)) :=
  s.objects.toList.map fun (name, r) =>
    (name, match s.models[r.home]? with
      | some m => m.snapshot r.object
      | none => .error .invalidHandle)

end Session

end Delegation
