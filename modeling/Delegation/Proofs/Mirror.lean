import Mathlib.Logic.Equiv.Basic
import Delegation.Model.Snapshot
import Delegation.Proofs.World

/-!
# Mirrored models

Two models can be used side by side, call by call. What is a handle of one of them has a counterpart
on the other, which differs in the number of the model alone, and so have methods, values, records,
instances and whole states. `Mirror` says what stands for the numbers of models and for the bodies of
methods; everything else follows. The mirrored model may also have room for more records.

Mirroring goes through every question (`Mirror.Agrees`, `agrees_model`): what a model answers is shown
by its mirror image as the mirror image of the answer. Methods are called in the same way, provided
that a mirrored body does what the body does (`Mirror.Faithful`), and so does not look at the limits.
-/

namespace Delegation

variable {β : Type}

/-- What stands for what when a second model is used beside a first one. -/
structure Mirror (β : Type) where
  /-- The numbers of models. -/
  models : Equiv.Perm UInt32
  /-- The bodies of methods. -/
  bodies : β → β
  /-- How many more records the second model takes. -/
  more : Nat

namespace Mirror

variable (σ : Mirror β)

def recordId (id : RecordId) : RecordId := .ofParts id.index (σ.models id.model)

def methodId (id : MethodId) : MethodId := ⟨σ.models id.model, id.seq⟩

def method (f : Method β) : Method β :=
  { id := σ.methodId f.id, name := f.name, body := σ.bodies f.body }

def value (v : Value (Method β)) : Value (Method β) := v.map σ.method

def properties (ps : PropertyMap β) : PropertyMap β := ps.map σ.value

def named (ps : List (String × Value (Method β))) : List (String × Value (Method β)) :=
  ps.map fun p => (p.1, σ.value p.2)

def methods (table : MethodTable β) : MethodTable β := table.map σ.bodies

def record (r : Record β) : Record β :=
  { r with id := σ.recordId r.id, slots := σ.properties r.slots }

def object (i : Instance β) : Instance β :=
  { own := σ.properties i.own, prototype := i.prototype.map σ.recordId }

def limits (l : Limits) : Limits := ⟨l.maxRecords + σ.more⟩

def model (m : Model β) : Model β :=
  { nonce := σ.models m.nonce
    limits := σ.limits m.limits
    records := m.records.map σ.record
    current := m.current.map σ.recordId
    methodCount := m.methodCount }

def world (w : World β) : World β :=
  { model := σ.model w.model, objects := w.objects.map σ.object }

def product : Product β → Product β
  | .nothing => .nothing
  | .record id => .record (σ.recordId id)
  | .object i => .object (σ.object i)
  | .method f => .method (σ.method f)

def operation : Operation β → Operation β
  | .construct strategy fields methods tag =>
    .construct strategy (σ.properties fields) (σ.methods methods) tag
  | .constructNamed strategy fields methods tag =>
    .constructNamed strategy (σ.properties fields) (σ.methods methods) tag
  | .createRecord tag => .createRecord tag
  | .setSlot id name value => .setSlot (σ.recordId id) name (σ.value value)
  | .mutateSharedSlot tag name value => .mutateSharedSlot tag name (σ.value value)
  | .relinkConstructor tag => .relinkConstructor tag
  | .replaceSlots id slots => .replaceSlots (σ.recordId id) (σ.properties slots)
  | .replacePrototype tag methods => .replacePrototype tag (σ.methods methods)
  | .replacePrototypeSlots tag slots => .replacePrototypeSlots tag (σ.properties slots)
  | .allocate name body => .allocate name (σ.bodies body)

def act : Act β → Act β
  | .operate op => .operate (σ.operation op)
  | .setPrototype i prototype => .setPrototype i (prototype.map σ.recordId)
  | .setOwn i name value => .setOwn i name (σ.value value)
  | .deleteOwn i name => .deleteOwn i name
  | .clone i => .clone i

def recordSnapshot (s : RecordSnapshot β) : RecordSnapshot β :=
  { s with id := σ.recordId s.id, slots := σ.properties s.slots }

def snapshot (s : Snapshot β) : Snapshot β :=
  { own := σ.properties s.own, prototype := s.prototype.map σ.recordSnapshot }

def call (c : Call β) : Call β :=
  { model := σ.model c.model, this := σ.object c.this, args := c.args.map σ.value }

/-! ## Handles -/

@[simp] theorem index_recordId (id : RecordId) : (σ.recordId id).index = id.index :=
  RecordId.index_ofParts ..

@[simp] theorem model_recordId (id : RecordId) : (σ.recordId id).model = σ.models id.model :=
  RecordId.model_ofParts ..

theorem recordId_injective : Function.Injective σ.recordId := by
  intro id id' h
  have hindex := congrArg RecordId.index h
  have hmodel := congrArg RecordId.model h
  simp only [index_recordId, model_recordId] at hindex hmodel
  exact RecordId.eq_of_parts hindex (σ.models.injective hmodel)

@[simp] theorem recordId_inj {id id' : RecordId} : σ.recordId id = σ.recordId id' ↔ id = id' :=
  σ.recordId_injective.eq_iff

theorem recordId_ofParts (index model : UInt32) :
    σ.recordId (.ofParts index model) = .ofParts index (σ.models model) := by
  rw [recordId, RecordId.index_ofParts, RecordId.model_ofParts]

theorem methodId_injective : Function.Injective σ.methodId := by
  rintro ⟨model, seq⟩ ⟨model', seq'⟩ h
  have hmodel : σ.models model = σ.models model' := congrArg MethodId.model h
  have hseq : seq = seq' := congrArg MethodId.seq h
  rw [σ.models.injective hmodel, hseq]

theorem same_method (f g : Method β) : (σ.method f).same (σ.method g) = f.same g := by
  simp only [Method.same, method, beq_eq_beq, σ.methodId_injective.eq_iff]

/-! ## Records -/

@[simp] theorem id_record (r : Record β) : (σ.record r).id = σ.recordId r.id := rfl

@[simp] theorem creatorTag_record (r : Record β) : (σ.record r).creatorTag = r.creatorTag := rfl

@[simp] theorem isPopulated_record (r : Record β) : (σ.record r).isPopulated = r.isPopulated := by
  simp [Record.isPopulated, record, properties]

theorem record_setSlot (r : Record β) (name : String) (v : Value (Method β)) :
    σ.record (r.setSlot name v) = (σ.record r).setSlot name (σ.value v) := by
  have hslots : σ.properties (r.slots.insert name v) =
      (σ.properties r.slots).insert name (σ.value v) := NameMap.map_insert ..
  rw [record, Record.setSlot, hslots]
  rfl

theorem properties_insertAll (m : PropertyMap β) (ps : List (String × Value (Method β))) :
    σ.properties (m.insertAll ps) = (σ.properties m).insertAll (σ.named ps) :=
  NameMap.map_insertAll m ps σ.value

theorem properties_ofList (ps : List (String × Value (Method β))) :
    σ.properties (.ofList ps) = .ofList (σ.named ps) := σ.properties_insertAll ∅ ps

/-! ## Questions about records and tags -/

variable (m : Model β)

theorem record?_model (id : RecordId) :
    (σ.model m).record? (σ.recordId id) = (m.record? id).map σ.record := by
  unfold Model.record?
  simp only [model, model_recordId, index_recordId, σ.models.injective.eq_iff]
  split
  · exact Array.getElem?_map
  · rfl

theorem record_model (id : RecordId) :
    (σ.model m).record (σ.recordId id) = (m.record id).map σ.record := by
  rw [Model.record, record?_model, Model.record]
  cases m.record? id <;> rfl

theorem currentRecord_model (tag : String) :
    (σ.model m).currentRecord tag = (m.currentRecord tag).map σ.recordId :=
  NameMap.get?_map ..

theorem recordForTag_model (tag : String) :
    (σ.model m).recordForTag tag = (m.recordForTag tag).map σ.recordId := by
  rw [Model.recordForTag, currentRecord_model, Model.recordForTag]
  cases m.currentRecord tag <;> rfl

@[simp] theorem recordCount_model : (σ.model m).recordCount = m.recordCount := Array.size_map

/-- The mirrored model has room if the model has. -/
theorem hasRoom_model (h : m.hasRoom = true) : (σ.model m).hasRoom = true := by
  simp only [Model.hasRoom, model, limits, Array.size_map, Bool.and_eq_true,
    decide_eq_true_eq] at h ⊢
  omega

theorem nextRecordId_model (h : m.hasRoom = true) :
    (σ.model m).nextRecordId = m.nextRecordId.map σ.recordId := by
  rw [Model.nextRecordId, if_pos (σ.hasRoom_model m h), Model.nextRecordId, if_pos h, Except.map,
    recordId_ofParts]
  simp only [model, Array.size_map]

/-! ## Questions about instances -/

variable (i : Instance β)

theorem getOwn_object (name : String) :
    (σ.object i).getOwn name = (i.getOwn name).map σ.value := NameMap.get?_map ..

theorem prototypeRecord?_model :
    (σ.model m).prototypeRecord? (σ.object i) = (m.prototypeRecord? i).map σ.record := by
  rw [Model.prototypeRecord?, Model.prototypeRecord?, object]
  cases i.prototype with
  | none => rfl
  | some id => exact σ.record?_model m id

theorem get_model (name : String) :
    (σ.model m).get (σ.object i) name = (m.get i name).map σ.value := by
  rw [Model.get, getOwn_object, Model.get]
  cases i.getOwn name with
  | some v => rfl
  | none =>
    cases hproto : i.prototype with
    | none =>
      simp only [object, hproto]
      rfl
    | some id =>
      simp only [object, hproto, Option.map_some, Option.map_none, record_model]
      cases m.record id with
      | error f => rfl
      | ok r =>
        have hslot : (σ.record r).slots.get? name = (r.slots.get? name).map σ.value :=
          NameMap.get?_map ..
        simp only [Except.map, bind, Except.bind, hslot]
        cases r.slots.get? name <;> rfl

theorem hasProperty_model (name : String) :
    (σ.model m).hasProperty (σ.object i) name = m.hasProperty i name := by
  rw [Model.hasProperty, get_model, Model.hasProperty]
  cases m.get i name <;> rfl

theorem asMethod_value (v : Value (Method β)) :
    (σ.value v).asMethod = v.asMethod.map σ.method := by
  cases v <;> rfl

/-- A mirrored body does what the body does, on the other side. -/
def Faithful [Code β] : Prop :=
  ∀ f c, Code.run (σ.bodies f) (σ.call c) = (Code.run f c).map σ.value

theorem callMethod_model [Code β] (h : σ.Faithful) (name : String)
    (args : List (Value (Method β))) :
    (σ.model m).callMethod (σ.object i) name (args.map σ.value) =
      (m.callMethod i name args).map σ.value := by
  rw [Model.callMethod, get_model, Model.callMethod]
  cases m.get i name with
  | error f => rfl
  | ok v =>
    simp only [Except.map, bind, Except.bind, asMethod_value]
    cases v.asMethod with
    | none => rfl
    | some f => exact h f.body { model := m, this := i, args }

theorem sharesRecordWith_model (j : Instance β) :
    (σ.model m).sharesRecordWith (σ.object i) (σ.object j) = m.sharesRecordWith i j := by
  rw [Model.sharesRecordWith, Model.sharesRecordWith, object, object]
  cases i.prototype with
  | none => rfl
  | some id =>
    cases j.prototype with
    | none => rfl
    | some id' =>
      have hid : (σ.recordId id == σ.recordId id') = (id == id') := by
        simp only [beq_eq_beq, recordId_inj]
      have hmodel : (σ.models id.model == σ.models m.nonce) = (id.model == m.nonce) := by
        simp only [beq_eq_beq, σ.models.injective.eq_iff]
      show (σ.recordId id == σ.recordId id' && (σ.recordId id).model == σ.models m.nonce) = _
      rw [hid, model_recordId, hmodel]

theorem producedBy_model (tag : String) :
    (σ.model m).producedBy (σ.object i) tag = m.producedBy i tag := by
  rw [Model.producedBy, prototypeRecord?_model, Model.producedBy]
  cases m.prototypeRecord? i <;> rfl

theorem isInstanceOf_model (tag : String) :
    (σ.model m).isInstanceOf (σ.object i) tag = m.isInstanceOf i tag := by
  rw [Model.isInstanceOf, currentRecord_model, Model.isInstanceOf, object]
  cases i.prototype with
  | none => rfl
  | some id =>
    cases m.currentRecord tag with
    | none => rfl
    | some current =>
      show (σ.recordId id == σ.recordId current) = (id == current)
      simp only [beq_eq_beq, recordId_inj]

theorem constructorOf_model :
    (σ.model m).constructorOf (σ.object i) = m.constructorOf i := by
  rw [Model.constructorOf, prototypeRecord?_model, Model.constructorOf]
  cases m.prototypeRecord? i <;> rfl

theorem sameMethodReference_model (j : Instance β) (name : String) :
    (σ.model m).sameMethodReference (σ.object i) (σ.object j) name =
      m.sameMethodReference i j name := by
  rw [Model.sameMethodReference, get_model, get_model, Model.sameMethodReference]
  cases m.get i name with
  | error f => rfl
  | ok v =>
    cases m.get j name with
    | error f => rfl
    | ok v' =>
      cases v with
      | method f =>
        cases v' with
        | method g => exact congrArg Except.ok (σ.same_method f g)
        | _ => rfl
      | _ => rfl

theorem recordSnapshot_model (id : RecordId) :
    (σ.model m).recordSnapshot (σ.recordId id) = (m.recordSnapshot id).map σ.recordSnapshot := by
  rw [Model.recordSnapshot, record_model, Model.recordSnapshot]
  cases m.record id <;> rfl

theorem snapshot_model :
    (σ.model m).snapshot (σ.object i) = (m.snapshot i).map σ.snapshot := by
  rw [Model.snapshot, Model.snapshot]
  cases hproto : i.prototype with
  | none =>
    simp only [object, hproto]
    rfl
  | some id =>
    simp only [object, hproto, Option.map_some, recordSnapshot_model]
    cases m.recordSnapshot id <;> rfl

/-- What one model answers is what the other answers, up to what stands for what. -/
structure Agrees [Code β] (m m' : Model β) : Prop where
  recordCount : m'.recordCount = m.recordCount
  record : ∀ id, m'.record (σ.recordId id) = (m.record id).map σ.record
  currentRecord : ∀ tag, m'.currentRecord tag = (m.currentRecord tag).map σ.recordId
  recordForTag : ∀ tag, m'.recordForTag tag = (m.recordForTag tag).map σ.recordId
  getOwn : ∀ (i : Instance β) name, (σ.object i).getOwn name = (i.getOwn name).map σ.value
  hasOwn : ∀ (i : Instance β) name, (σ.object i).hasOwn name = i.hasOwn name
  ownKeys : ∀ i : Instance β, (σ.object i).ownKeys = i.ownKeys
  get : ∀ i name, m'.get (σ.object i) name = (m.get i name).map σ.value
  hasProperty : ∀ i name, m'.hasProperty (σ.object i) name = m.hasProperty i name
  callMethod : ∀ i name args,
    m'.callMethod (σ.object i) name (args.map σ.value) = (m.callMethod i name args).map σ.value
  sharesRecordWith : ∀ i j,
    m'.sharesRecordWith (σ.object i) (σ.object j) = m.sharesRecordWith i j
  producedBy : ∀ i tag, m'.producedBy (σ.object i) tag = m.producedBy i tag
  isInstanceOf : ∀ i tag, m'.isInstanceOf (σ.object i) tag = m.isInstanceOf i tag
  constructorOf : ∀ i, m'.constructorOf (σ.object i) = m.constructorOf i
  sameMethodReference : ∀ i j name,
    m'.sameMethodReference (σ.object i) (σ.object j) name = m.sameMethodReference i j name
  recordSnapshot : ∀ id,
    m'.recordSnapshot (σ.recordId id) = (m.recordSnapshot id).map σ.recordSnapshot
  snapshot : ∀ i, m'.snapshot (σ.object i) = (m.snapshot i).map σ.snapshot

theorem agrees_model [Code β] (h : σ.Faithful) : σ.Agrees m (σ.model m) where
  recordCount := σ.recordCount_model m
  record := σ.record_model m
  currentRecord := σ.currentRecord_model m
  recordForTag := σ.recordForTag_model m
  getOwn := σ.getOwn_object
  hasOwn _ name := NameMap.contains_map _ _ name
  ownKeys _ := NameMap.keys_map _ _
  get := σ.get_model m
  hasProperty := σ.hasProperty_model m
  callMethod i := σ.callMethod_model m i h
  sharesRecordWith := σ.sharesRecordWith_model m
  producedBy := σ.producedBy_model m
  isInstanceOf := σ.isInstanceOf_model m
  constructorOf := σ.constructorOf_model m
  sameMethodReference := σ.sameMethodReference_model m
  recordSnapshot := σ.recordSnapshot_model m
  snapshot := σ.snapshot_model m

end Mirror

end Delegation
