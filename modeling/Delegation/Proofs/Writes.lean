import Delegation.Model.Query
import Delegation.Proofs.Refusal

/-!
# What an operation writes

An operation writes into slots in two ways: in place, into a record that is there
(`Operation.slotWrite`), and at the start, into a record it makes (`Operation.slotAtStart`). Between
them they give all slots of the next state in one equation (`Model.slot?_afterOne`). The instance
that a construction answers with is described in the same way (`Operation.ownAtStart`).
-/

namespace Delegation

variable {β : Type}

/-! ## What one act writes -/

namespace Model

/-- The method that a table's body of this name becomes when the table is allocated next. -/
def methodOf (m : Model β) (methods : MethodTable β) (name : String) : Option (Value (Method β)) :=
  (m.nextMethods methods.toList).lookup name

/-- Whether building writes its methods into the tag's record: there is none yet, or it is empty and
the strategy is to fill it. -/
def writesMethods (m : Model β) (b : Blueprint β) : Bool :=
  match m.currentRecord b.tag with
  | none => b.strategy.delegates
  | some id => decide (b.strategy = .dynamicPrototype) && (m.record? id).any fun r => !r.isPopulated

end Model

namespace Operation

/-- What an operation that is answered writes in place into a slot. -/
def slotWrite (m : Model β) (op : Operation β) (id : RecordId) (name : String) :
    Option (Value (Method β)) :=
  match op, (op.action.run m).answer with
  | .setSlot id' name' value, .ok _ => if id' = id ∧ name' = name then some value else none
  | .mutateSharedSlot tag name' value, .ok _ =>
    if m.currentRecord tag = some id ∧ name' = name then some value else none
  | op, .ok (.object i) =>
    op.blueprint?.bind fun b =>
      if i.prototype = some id ∧ m.writesMethods b = true then m.methodOf b.methods name else none
  | _, _ => none

/-- What a replacement that is answered puts into a slot of the record it makes. -/
def slotAtStart (m : Model β) (op : Operation β) (id : RecordId) (name : String) :
    Option (Value (Method β)) :=
  match op, (op.action.run m).answer with
  | .replaceSlots _ slots, .ok (.record id')
  | .replacePrototypeSlots _ slots, .ok (.record id') =>
    if id' = id then slots.get? name else none
  | .replacePrototype _ methods, .ok (.record id') =>
    if id' = id then m.methodOf methods name else none
  | _, _ => none

/-- What the instance that an operation is to build starts out with under a name: a copy of the
method of that name if the strategy copies, or else the field. -/
def ownAtStart (m : Model β) (op : Operation β) (name : String) : Option (Value (Method β)) :=
  op.blueprint?.bind fun b =>
    if b.strategy.delegates then b.fields.get? name
    else (m.methodOf b.methods name).or (b.fields.get? name)

end Operation

/-! ## Slots -/

namespace Model

def slot? (m : Model β) (id : RecordId) (name : String) : Option (Value (Method β)) :=
  (m.record? id).bind fun r => r.slots.get? name

theorem exists_of_slot? {m : Model β} {id : RecordId} {name : String} {v : Value (Method β)}
    (h : m.slot? id name = some v) : ∃ r ∈ m.records, r.slots.get? name = some v := by
  obtain ⟨r, hr, hv⟩ := Option.bind_eq_some_iff.1 h
  exact ⟨r, Array.mem_of_getElem? (record?_eq_some_iff.1 hr).2, hv⟩

theorem Sound.slot?_eq {m : Model β} (hm : m.Sound) {r : Record β} (hr : r ∈ m.records)
    (name : String) : m.slot? r.id name = r.slots.get? name := by
  rw [slot?, hm.record?_of_mem hr, Option.bind_some]

@[simp] theorem slot?_countMethods (m : Model β) (n : Nat) (id : RecordId) (name : String) :
    (m.countMethods n).slot? id name = m.slot? id name := rfl

theorem slot?_push {m : Model β} {r : Record β} (h : m.nextRecordId = .ok r.id) (bind : Bool)
    (id : RecordId) (name : String) :
    (m.push r bind).slot? id name =
      if r.id = id then r.slots.get? name else m.slot? id name := by
  rw [slot?, record?_push h]
  by_cases e : id = r.id
  · simp [e]
  · rw [if_neg e, if_neg (Ne.symm e), slot?]

theorem slot?_modifyRecord {m : Model β} {id : RecordId} {r : Record β} (hr : m.record? id = some r)
    (f : Record β → Record β) (id' : RecordId) (name : String) :
    (m.modifyRecord id f).slot? id' name =
      if id = id' then (f r).slots.get? name else m.slot? id' name := by
  rw [slot?, record?_modifyRecord]
  by_cases e : id' = id
  · subst e
    simp [hr]
  · rw [if_neg e, if_neg (Ne.symm e), slot?]

theorem slot?_of_nextRecordId {m : Model β} {id : RecordId} (h : m.nextRecordId = .ok id)
    (name : String) : m.slot? id name = none := by
  rw [slot?, record?_of_nextRecordId h, Option.bind_none]

/-! ### Methods of a table -/

/-- Methods bear the names of their bodies. -/
theorem map_fst_nextMethods (m : Model β) (bodies : List (String × β)) :
    (m.nextMethods bodies).map (·.1) = bodies.map (·.1) := by
  induction bodies generalizing m with
  | nil => rfl
  | cons p rest ih =>
    obtain ⟨name, body⟩ := p
    simp [nextMethods, ih]

theorem sorted_nextMethods (m : Model β) (methods : MethodTable β) :
    (m.nextMethods methods.toList).Pairwise (fun a b => a.1 < b.1) := by
  have h : ((m.nextMethods methods.toList).map (·.1)).Pairwise (· < ·) := by
    rw [map_fst_nextMethods]
    exact methods.keys_sorted
  exact List.pairwise_map.1 h

theorem get?_insertAll_nextMethods (m : Model β) (methods : MethodTable β) (p : PropertyMap β)
    (name : String) :
    (p.insertAll (m.nextMethods methods.toList)).get? name =
      (m.methodOf methods name).or (p.get? name) :=
  NameMap.get?_insertAll_of_sorted p (m.sorted_nextMethods methods) name

theorem get?_ofList_nextMethods (m : Model β) (methods : MethodTable β) (name : String) :
    (NameMap.ofList (m.nextMethods methods.toList)).get? name = m.methodOf methods name := by
  rw [NameMap.ofList, get?_insertAll_nextMethods, NameMap.get?_empty, Option.or_none]

/-! ### One equation for all operations -/

theorem slot?_push_new {m : Model β} {id' : RecordId} (h : m.nextRecordId = .ok id') (tag : String)
    (bind : Bool) (id : RecordId) (name : String) :
    (m.push (.new id' tag) bind).slot? id name = m.slot? id name := by
  rw [slot?_push (show m.nextRecordId = .ok (Record.new id' tag : Record β).id from h)]
  split
  next e => rw [← e, Record.id_new, slot?_of_nextRecordId h]; rfl
  next => rfl

theorem slot?_push_withSlots {m : Model β} {id' : RecordId} (h : m.nextRecordId = .ok id')
    (tag : String) (slots : PropertyMap β) (bind : Bool) (id : RecordId) (name : String) :
    (m.push (.withSlots id' tag slots) bind).slot? id name =
      (if id' = id then slots.get? name else none).or (m.slot? id name) := by
  rw [slot?_push (show m.nextRecordId = .ok (Record.withSlots id' tag slots).id from h)]
  by_cases e : id' = id
  · subst e
    simp [slot?_of_nextRecordId h, Record.withSlots]
  · simp [e]

theorem slot?_setSlot {m : Model β} {id' : RecordId} {name' : String} {value : Value (Method β)}
    (h : ((setSlot id' name' value).run m).answer = .ok ()) (id : RecordId) (name : String) :
    ((setSlot id' name' value).run m).model.slot? id name =
      (if id' = id ∧ name' = name then some value else none).or (m.slot? id name) := by
  rw [run_setSlot] at h ⊢
  cases hr : m.record id' with
  | error f => simp [hr] at h
  | ok r =>
    have hr' := record_eq_ok_iff.1 hr
    show (m.modifyRecord id' _).slot? id name = _
    rw [slot?_modifyRecord hr']
    by_cases e : id' = id
    · subst e
      rw [if_pos rfl, Record.setSlot, NameMap.get?_insert, slot?, hr', Option.bind_some]
      by_cases e' : name' = name
      · simp [e']
      · simp [e', Ne.symm e']
    · simp [e]

/-- Writing a table's methods into a record of the model. -/
theorem slot?_setSlots {m : Model β} {id' : RecordId} {r : Record β} (hr : m.record? id' = some r)
    (methods : MethodTable β) (id : RecordId) (name : String) :
    (m.modifyRecord id' fun r => r.setSlots (m.nextMethods methods.toList)).slot? id name =
      (if id' = id then m.methodOf methods name else none).or (m.slot? id name) := by
  rw [slot?_modifyRecord hr]
  by_cases e : id' = id
  · subst e
    rw [if_pos rfl, if_pos rfl, Record.slots_setSlots, get?_insertAll_nextMethods, slot?, hr,
      Option.bind_some]
  · simp [e]

theorem slot?_push_setSlots {m : Model β} {id' : RecordId} (h : m.nextRecordId = .ok id')
    (tag : String) (methods : MethodTable β) (id : RecordId) (name : String) :
    (m.push ((Record.new id' tag).setSlots (m.nextMethods methods.toList)) true).slot? id name =
      (if id' = id then m.methodOf methods name else none).or (m.slot? id name) := by
  rw [slot?_push (by simpa using h)]
  by_cases e : id' = id
  · subst e
    rw [Record.id_setSlots, Record.id_new, if_pos rfl, if_pos rfl, Record.slots_setSlots,
      get?_insertAll_nextMethods, slot?_of_nextRecordId h]
    rfl
  · simp [e]

/-! ### Building an instance -/

theorem writesMethods_of_left {m : Model β} {b : Blueprint β} {id : RecordId}
    (hcur : m.currentRecord b.tag = some id)
    (hleft : b.strategy = .constructorWithPrototype ∨
      ∃ r, m.record? id = some r ∧ r.isPopulated = true) : m.writesMethods b = false := by
  rcases hleft with hs | ⟨r, hr, hp⟩
  · simp [writesMethods, hcur, hs]
  · simp [writesMethods, hcur, hr, hp]

theorem writesMethods_of_empty {m : Model β} {b : Blueprint β} {id : RecordId} {r : Record β}
    (hs : b.strategy = .dynamicPrototype) (hcur : m.currentRecord b.tag = some id)
    (hr : m.record? id = some r) (hempty : r.isPopulated = false) : m.writesMethods b = true := by
  simp [writesMethods, hcur, hs, hr, hempty]

theorem writesMethods_of_unbound {m : Model β} {b : Blueprint β}
    (hs : b.strategy.delegates = true) (hcur : m.currentRecord b.tag = none) :
    m.writesMethods b = true := by
  simp [writesMethods, hcur, hs]

theorem slot?_build {m : Model β} {b : Blueprint β} {i : Instance β}
    (h : ((build b).run m).answer = .ok i) (id : RecordId) (name : String) :
    ((build b).run m).model.slot? id name =
      (if i.prototype = some id ∧ m.writesMethods b = true then m.methodOf b.methods name
        else none).or (m.slot? id name) := by
  have hbuilt := built_eq h
  generalize ((build b).run m).model = m' at hbuilt ⊢
  cases hbuilt with
  | copying => simp
  | found id' hs hcur hleft =>
    have hwrites := writesMethods_of_left hcur hleft
    simp [hwrites]
  | populated id' r hs hcur hr hempty =>
    have hwrites := writesMethods_of_empty hs hcur hr hempty
    rw [slot?_countMethods, slot?_setSlots hr]
    simp [hwrites]
  | made id' hs hcur hid =>
    have hwrites := writesMethods_of_unbound hs hcur
    rw [slot?_countMethods, slot?_push_setSlots hid]
    simp [hwrites]

theorem slotWrite_of_refused {m : Model β} {op : Operation β} {f : Fault}
    (h : (op.action.run m).answer = .error f) (id : RecordId) (name : String) :
    op.slotWrite m id name = none ∧ op.slotAtStart m id name = none := by
  unfold Operation.slotWrite Operation.slotAtStart
  rw [h]
  cases op <;> exact ⟨rfl, rfl⟩

theorem slot?_relinkConstructor (m : Model β) (tag : String) (id : RecordId) (name : String) :
    ((relinkConstructor tag).run m).model.slot? id name = m.slot? id name := by
  rw [run_relinkConstructor]
  cases m.recordForTag tag with
  | error f => rfl
  | ok id' =>
    show (m.modifyRecord id' Record.relink).slot? id name = _
    rw [slot?, record?_modifyRecord]
    split
    next e => subst e; cases h : m.record? id <;> simp [slot?, h, Record.relink]
    next => rfl

theorem slot?_createRecord {m : Model β} {tag : String} {id' : RecordId}
    (h : ((createRecord tag).run m).answer = .ok id') (id : RecordId) (name : String) :
    ((createRecord tag).run m).model.slot? id name = m.slot? id name := by
  have hid := (stores_createRecord h).1
  rw [run_createRecord, hid]
  exact slot?_push_new hid tag true id name

theorem slot?_mutateSharedSlot {m : Model β} {tag name' : String} {value : Value (Method β)}
    (h : ((mutateSharedSlot tag name' value).run m).answer = .ok ()) (id : RecordId)
    (name : String) :
    ((mutateSharedSlot tag name' value).run m).model.slot? id name =
      (if m.currentRecord tag = some id ∧ name' = name then some value else none).or
        (m.slot? id name) := by
  rw [run_mutateSharedSlot] at h ⊢
  cases htag : m.recordForTag tag with
  | error f => simp [htag] at h
  | ok id' =>
    rw [htag] at h
    rw [recordForTag_eq_ok htag]
    simpa using slot?_setSlot h id name

theorem slot?_replaceSlots {m : Model β} {old id' : RecordId} {slots : PropertyMap β}
    (h : ((replaceSlots old slots).run m).answer = .ok id') (id : RecordId) (name : String) :
    ((replaceSlots old slots).run m).model.slot? id name =
      (if id' = id then slots.get? name else none).or (m.slot? id name) := by
  rw [run_replaceSlots] at h ⊢
  cases hr : m.record old with
  | error f => simp [hr] at h
  | ok r =>
    cases hid : m.nextRecordId with
    | error f => simp [hr, hid] at h
    | ok new =>
      obtain rfl : new = id' := by simpa [hr, hid, run_storeReplacement] using h
      exact slot?_push_withSlots hid r.creatorTag slots _ id name

theorem slot?_replacePrototypeSlots {m : Model β} (hm : m.Sound) {tag : String}
    {slots : PropertyMap β} {id' : RecordId}
    (h : ((replacePrototypeSlots tag slots).run m).answer = .ok id') (id : RecordId)
    (name : String) :
    ((replacePrototypeSlots tag slots).run m).model.slot? id name =
      (if id' = id then slots.get? name else none).or (m.slot? id name) := by
  have hid := (stores_replacePrototypeSlots hm h).1
  rw [run_replacePrototypeSlots_of_sound hm, hid]
  exact slot?_push_withSlots hid tag slots true id name

theorem slot?_replacePrototype {m : Model β} (hm : m.Sound) {tag : String}
    {methods : MethodTable β} {id' : RecordId}
    (h : ((replacePrototype tag methods).run m).answer = .ok id') (id : RecordId) (name : String) :
    ((replacePrototype tag methods).run m).model.slot? id name =
      (if id' = id then m.methodOf methods name else none).or (m.slot? id name) := by
  rw [run_replacePrototype] at h ⊢
  rw [slot?_replacePrototypeSlots (hm.countMethods methods.size) h, get?_ofList_nextMethods,
    slot?_countMethods]

/-- **Slots after an operation.** What it writes in place, or else what it makes a record with, or
else what was there before. -/
theorem slot?_afterOne {m : Model β} (hm : m.Sound) (op : Operation β) (id : RecordId)
    (name : String) :
    (m.afterOne op).slot? id name =
      ((op.slotWrite m id name).or (op.slotAtStart m id name)).or (m.slot? id name) := by
  cases hans : (op.action.run m).answer with
  | error f =>
    obtain ⟨hwrite, hstart⟩ := slotWrite_of_refused hans id name
    rw [model_of_refused hans, hwrite, hstart]
    rfl
  | ok p =>
    cases op with
    | allocate name' body => cases hans; rfl
    | createRecord tag =>
      obtain ⟨id', hok, rfl⟩ := answer_map_eq_ok hans
      simp only [Operation.slotWrite, Operation.slotAtStart, hans]
      exact slot?_createRecord hok id name
    | setSlot id' name' value =>
      obtain ⟨_, hok, rfl⟩ := answer_map_eq_ok hans
      simp only [Operation.slotWrite, Operation.slotAtStart, hans, Option.or_none]
      exact slot?_setSlot hok id name
    | mutateSharedSlot tag name' value =>
      obtain ⟨_, hok, rfl⟩ := answer_map_eq_ok hans
      simp only [Operation.slotWrite, Operation.slotAtStart, hans, Option.or_none]
      exact slot?_mutateSharedSlot hok id name
    | relinkConstructor tag =>
      obtain ⟨_, -, rfl⟩ := answer_map_eq_ok hans
      simp only [Operation.slotWrite, Operation.slotAtStart, hans, Option.or_none]
      exact slot?_relinkConstructor m tag id name
    | replaceSlots old slots =>
      obtain ⟨id', hok, rfl⟩ := answer_map_eq_ok hans
      simp only [Operation.slotWrite, Operation.slotAtStart, hans, Option.none_or]
      exact slot?_replaceSlots hok id name
    | replacePrototypeSlots tag slots =>
      obtain ⟨id', hok, rfl⟩ := answer_map_eq_ok hans
      simp only [Operation.slotWrite, Operation.slotAtStart, hans, Option.none_or]
      exact slot?_replacePrototypeSlots hm hok id name
    | replacePrototype tag methods =>
      obtain ⟨id', hok, rfl⟩ := answer_map_eq_ok hans
      simp only [Operation.slotWrite, Operation.slotAtStart, hans, Option.none_or]
      exact slot?_replacePrototype hm hok id name
    | construct strategy fields methods tag | constructNamed strategy fields methods tag =>
      obtain ⟨i, -, rfl⟩ := answer_map_eq_ok hans
      obtain ⟨b, hb, hbuild, hafter⟩ := built_of_answer hans
      simp only [Operation.slotWrite, Operation.slotAtStart, hans, hb, Option.bind_some,
        Option.or_none]
      rw [hafter, slot?_build hbuild]

/-- A record that starts out with a slot was not there before, and is not written in place. -/
theorem record?_of_slotAtStart {m : Model β} (hm : m.Sound) {op : Operation β} {id : RecordId}
    {name : String} {v : Value (Method β)} (h : op.slotAtStart m id name = some v) :
    op.slotWrite m id name = none ∧ m.record? id = none := by
  have hnew : ∀ {id'}, (op.action.run m).answer = .ok (.record id') → id' = id →
      m.record? id = none := by
    intro id' hans e
    exact record?_of_nextRecordId (e ▸ (stores_of_answer hm hans).1)
  cases op with
  | replaceSlots old slots =>
    simp only [Operation.slotAtStart] at h
    split at h <;> simp_all [Operation.slotWrite]
  | replacePrototypeSlots tag slots =>
    simp only [Operation.slotAtStart] at h
    split at h <;> simp_all [Operation.slotWrite]
  | replacePrototype tag methods =>
    simp only [Operation.slotAtStart] at h
    split at h <;> simp_all [Operation.slotWrite]
  | _ => simp [Operation.slotAtStart] at h

/-- A slot of a record that is there keeps its value through an operation that does not write it. -/
theorem slot?_of_slotWrite_eq_none {m : Model β} (hm : m.Sound) {op : Operation β} {id : RecordId}
    {name : String} (h : op.slotWrite m id name = none) {r : Record β} (hr : m.record? id = some r) :
    (m.afterOne op).slot? id name = m.slot? id name := by
  have hstart : op.slotAtStart m id name = none := by
    cases hstart : op.slotAtStart m id name with
    | none => rfl
    | some v =>
      have hnone := (record?_of_slotAtStart hm hstart).2
      rw [hr] at hnone
      cases hnone
  rw [slot?_afterOne hm, h, hstart, Option.or_none, Option.none_or]

/-! ## Own properties -/

theorem getOwn_of_answer {m : Model β} {op : Operation β} {i : Instance β}
    (h : (op.action.run m).answer = .ok (.object i)) (name : String) :
    i.getOwn name = op.ownAtStart m name := by
  obtain ⟨b, hb, hok, -⟩ := built_of_answer h
  have hbuilt := built_eq hok
  generalize ((build b).run m).model = m' at hbuilt
  rw [Operation.ownAtStart, hb, Option.bind_some]
  cases hbuilt with
  | copying hs =>
    rw [hs]
    show (m.ownAtBirth b).get? name = _
    rw [ownAtBirth, hs]
    exact get?_insertAll_nextMethods m b.methods b.fields name
  | found _ hs | made _ hs => rw [hs]; rfl
  | populated _ _ hs => rw [hs]; rfl

/-! ## Lookups -/

/-- A lookup whose prototype is in order goes through the two tiers and no further. -/
theorem get_eq {m : Model β} {o : Instance β}
    (hproto : ∀ id, o.prototype = some id → ∃ r, m.record? id = some r) (name : String) :
    m.get o name =
      match (o.getOwn name).or (o.prototype.bind fun id => m.slot? id name) with
      | some v => .ok v
      | none => .error (.propertyNotFound name) := by
  unfold get
  cases o.getOwn name with
  | some v => rfl
  | none =>
    cases hid : o.prototype with
    | none => rfl
    | some id =>
      obtain ⟨r, hr⟩ := hproto id hid
      simp only [record_eq_ok_iff.2 hr, Option.none_or, Option.bind_some, slot?, hr]
      rfl

theorem get_congr {m : Model β} {o o' : Instance β} {name : String}
    (hown : o'.getOwn name = o.getOwn name) (hproto : o'.prototype = o.prototype) :
    m.get o' name = m.get o name := by
  rw [get, get, hown, hproto]

end Model

end Delegation
