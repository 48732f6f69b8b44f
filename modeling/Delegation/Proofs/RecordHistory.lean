import Delegation.Proofs.RecordTable

/-!
# One record through one operation

`Change` says what an operation does to a model as a whole. Here the same is said from the side of
one record. What becomes of a record that is there is an equation (`record?_afterOne`): two
operations write a slot of it, one links it, one construction may fill it, and all others leave it
alone. A record that was not there is seen for the first time as the operation is to store it
(`stores_of_record?`): without slots, but for the methods of a construction, or with the slots of a
replacement.
Which record a tag has is a second equation (`currentRecord_afterOne`): a tag keeps its record, or
gets the record that the operation itself has just stored.
-/

namespace Delegation

variable {β : Type}

namespace Operation

/-- What an operation makes of the record under a handle. -/
def rewrites (m : Model β) (op : Operation β) (id : RecordId) (r : Record β) : Record β :=
  match op with
  | .setSlot id' name value => if id' = id then r.setSlot name value else r
  | .mutateSharedSlot tag name value =>
    if m.currentRecord tag = some id then r.setSlot name value else r
  | .relinkConstructor tag => if m.currentRecord tag = some id then r.relink else r
  | op =>
    match op.blueprint? with
    | some b =>
      if b.strategy = .dynamicPrototype ∧ m.currentRecord b.tag = some id ∧ r.isPopulated = false then
        r.setSlots (m.nextMethods b.methods.toList)
      else r
    | none => r

/-- The record that an operation stores under a handle, if it stores one. -/
def stores (m : Model β) (op : Operation β) (id : RecordId) : Option (Record β) :=
  match op with
  | .createRecord tag => some (.new id tag)
  | .replaceSlots old slots => (m.record? old).map fun r => .withSlots id r.creatorTag slots
  | .replacePrototypeSlots tag slots => some (.withSlots id tag slots)
  | .replacePrototype tag methods =>
    some (.withSlots id tag (.ofList (m.nextMethods methods.toList)))
  | op =>
    op.blueprint?.map fun b =>
      (Record.new id b.tag).setSlots (m.nextMethods b.methods.toList)

/-- Whether an operation is a construction, be the strategy given as such or by name. -/
def isConstruction : Operation β → Bool
  | .construct .. | .constructNamed .. => true
  | _ => false

end Operation

namespace Model

/-! ## A record that is there -/

/-- A record that is there is not the one that is stored next. -/
theorem record?_push_of_some {m : Model β} {id : RecordId} {r : Record β}
    (hr : m.record? id = some r) (new : Record β) (hid : m.nextRecordId = .ok new.id) (bind : Bool) :
    (m.push new bind).record? id = some r := by
  have hne : id ≠ new.id := by
    intro e
    rw [e, record?_of_nextRecordId hid] at hr
    cases hr
  rw [record?_push hid, if_neg hne, hr]

theorem record?_setSlot {m : Model β} {id : RecordId} {r : Record β} (hr : m.record? id = some r)
    (id' : RecordId) (name : String) (value : Value (Method β)) :
    ((setSlot id' name value).run m).model.record? id =
      some (if id' = id then r.setSlot name value else r) := by
  rw [run_setSlot]
  cases hr' : m.record id' with
  | error f =>
    have hne : id' ≠ id := by
      rintro rfl
      rw [record_eq_ok_iff.2 hr] at hr'
      cases hr'
    rw [if_neg hne]
    exact hr
  | ok r' =>
    show (m.modifyRecord id' _).record? id = _
    rw [record?_modifyRecord, hr]
    by_cases e : id' = id
    · rw [if_pos e.symm, if_pos e, Option.map_some]
    · rw [if_neg (Ne.symm e), if_neg e]

theorem record?_mutateSharedSlot {m : Model β} {id : RecordId} {r : Record β}
    (hr : m.record? id = some r) (tag name : String) (value : Value (Method β)) :
    ((mutateSharedSlot tag name value).run m).model.record? id =
      some (if m.currentRecord tag = some id then r.setSlot name value else r) := by
  rw [run_mutateSharedSlot]
  cases htag : m.recordForTag tag with
  | error f =>
    have hne : m.currentRecord tag ≠ some id := by
      intro hcur
      simp [recordForTag, hcur] at htag
    rw [if_neg hne]
    exact hr
  | ok id' =>
    show ((setSlot id' name value).run m).model.record? id = _
    rw [record?_setSlot hr, recordForTag_eq_ok htag]
    simp only [Option.some.injEq]

theorem record?_relinkConstructor {m : Model β} {id : RecordId} {r : Record β}
    (hr : m.record? id = some r) (tag : String) :
    ((relinkConstructor tag).run m).model.record? id =
      some (if m.currentRecord tag = some id then r.relink else r) := by
  rw [run_relinkConstructor]
  cases htag : m.recordForTag tag with
  | error f =>
    have hne : m.currentRecord tag ≠ some id := by
      intro hcur
      simp [recordForTag, hcur] at htag
    rw [if_neg hne]
    exact hr
  | ok id' =>
    show (m.modifyRecord id' Record.relink).record? id = _
    rw [record?_modifyRecord, hr, recordForTag_eq_ok htag]
    by_cases e : id' = id
    · rw [if_pos e.symm, if_pos (congrArg some e), Option.map_some]
    · rw [if_neg (Ne.symm e), if_neg (by simpa using e)]

theorem record?_replaceSlots {m : Model β} {id : RecordId} {r : Record β}
    (hr : m.record? id = some r) (old : RecordId) (slots : PropertyMap β) :
    ((replaceSlots old slots).run m).model.record? id = some r := by
  rw [run_replaceSlots]
  cases m.record old with
  | error f => exact hr
  | ok r' =>
    cases hid : m.nextRecordId with
    | error f => exact hr
    | ok new =>
      exact record?_push_of_some hr (.withSlots new r'.creatorTag slots) hid _

theorem record?_replacePrototypeSlots {m : Model β} {id : RecordId} {r : Record β}
    (hr : m.record? id = some r) (tag : String) (slots : PropertyMap β) :
    ((replacePrototypeSlots tag slots).run m).model.record? id = some r := by
  rw [run_replacePrototypeSlots]
  cases m.currentRecord tag with
  | some old => exact record?_replaceSlots hr old slots
  | none =>
    cases hid : m.nextRecordId with
    | error f => exact hr
    | ok new => exact record?_push_of_some hr (.withSlots new tag slots) hid _

theorem record?_createRecord {m : Model β} {id : RecordId} {r : Record β}
    (hr : m.record? id = some r) (tag : String) :
    ((createRecord tag).run m).model.record? id = some r := by
  rw [run_createRecord]
  cases hid : m.nextRecordId with
  | error f => exact hr
  | ok new => exact record?_push_of_some hr (.new new tag) hid _

theorem record?_build {m : Model β} {id : RecordId} {r : Record β} (hr : m.record? id = some r)
    (b : Blueprint β) :
    ((build b).run m).model.record? id =
      some (if b.strategy = .dynamicPrototype ∧ m.currentRecord b.tag = some id ∧
          r.isPopulated = false then r.setSlots (m.nextMethods b.methods.toList) else r) := by
  have hbuilt := built b m
  generalize ((build b).run m).answer = answer, ((build b).run m).model = m' at hbuilt ⊢
  cases hbuilt with
  | copying hs =>
    have hdyn : b.strategy ≠ .dynamicPrototype := fun e => by simp [e, Strategy.delegates] at hs
    rw [if_neg fun h => hdyn h.1]
    exact hr
  | found id' hs hcur hleft =>
    rw [hr, if_neg]
    rintro ⟨hdyn, hcur', hempty⟩
    obtain rfl : id' = id := Option.some.inj (hcur.symm.trans hcur')
    rcases hleft with hs' | ⟨r', hr', hp⟩
    · rw [hs'] at hdyn
      cases hdyn
    · obtain rfl : r = r' := Option.some.inj (hr.symm.trans hr')
      rw [hp] at hempty
      cases hempty
  | populated id' r' hs hcur hr' hempty =>
    rw [record?_countMethods, record?_modifyRecord, hr]
    by_cases e : id = id'
    · subst e
      obtain rfl : r = r' := Option.some.inj (hr.symm.trans hr')
      rw [if_pos rfl, if_pos ⟨hs, hcur, hempty⟩, Option.map_some]
    · rw [if_neg e, if_neg]
      rintro ⟨-, hcur', -⟩
      exact e (Option.some.inj (hcur'.symm.trans hcur))
  | made id' hs hcur hid =>
    rw [record?_countMethods, record?_push_of_some hr _ (by simpa using hid), if_neg]
    rintro ⟨-, hcur', -⟩
    rw [hcur] at hcur'
    cases hcur'
  | full f hs hcur =>
    rw [hr, if_neg]
    rintro ⟨-, hcur', -⟩
    rw [hcur] at hcur'
    cases hcur'
  | dangling id' f hs hcur hr' =>
    rw [hr, if_neg]
    rintro ⟨-, hcur', -⟩
    obtain rfl : id' = id := Option.some.inj (hcur.symm.trans hcur')
    rw [record_eq_ok_iff.2 hr] at hr'
    cases hr'

/-- An operation with a blueprint builds it. -/
theorem run_of_blueprint {op : Operation β} {b : Blueprint β} (hb : op.blueprint? = some b)
    (m : Model β) : op.action.run m = ((build b).run m).map .object := by
  cases op with
  | construct strategy fields methods tag =>
    obtain rfl : _ = b := Option.some.inj hb
    rfl
  | constructNamed name fields methods tag =>
    obtain ⟨strategy, hs, rfl⟩ := Option.map_eq_some_iff.1 hb
    show ((Product.object <$> constructNamed name fields methods tag).run m) = _
    simp only [Action.run_map, run_constructNamed, Strategy.ofName, hs]
  | _ => cases hb

theorem afterOne_of_blueprint {op : Operation β} {b : Blueprint β} (hb : op.blueprint? = some b)
    (m : Model β) : m.afterOne op = ((build b).run m).model := by
  rw [afterOne, run_of_blueprint hb]
  rfl

/-- A construction has a blueprint, or else it names no strategy and does nothing. -/
theorem blueprint_or_refused {op : Operation β} (hop : op.isConstruction = true) (m : Model β) :
    (∃ b, op.blueprint? = some b) ∨
      op.blueprint? = none ∧ ∃ f, op.action.run m = { answer := .error f, model := m, journal := [] } := by
  cases op with
  | construct strategy fields methods tag => exact .inl ⟨_, rfl⟩
  | constructNamed name fields methods tag =>
    cases hs : Strategy.ofName? name with
    | some strategy =>
      exact .inl ⟨{ strategy, fields, methods, tag }, by simp [Operation.blueprint?, hs]⟩
    | none =>
      refine .inr ⟨by simp [Operation.blueprint?, hs], .invalidStrategy name, ?_⟩
      show ((Product.object <$> constructNamed name fields methods tag).run m) = _
      simp only [Action.run_map, run_constructNamed, Strategy.ofName, hs, Action.map_error]
  | _ => cases hop

/-- **A record after an operation.** It is what the operation makes of it. -/
theorem record?_afterOne {m : Model β} {id : RecordId} {r : Record β} (hr : m.record? id = some r)
    (op : Operation β) : (m.afterOne op).record? id = some (op.rewrites m id r) := by
  cases op with
  | setSlot id' name value => exact record?_setSlot hr id' name value
  | mutateSharedSlot tag name value => exact record?_mutateSharedSlot hr tag name value
  | relinkConstructor tag => exact record?_relinkConstructor hr tag
  | createRecord tag => exact record?_createRecord hr tag
  | replaceSlots old slots => exact record?_replaceSlots hr old slots
  | replacePrototypeSlots tag slots => exact record?_replacePrototypeSlots hr tag slots
  | allocate name body => exact hr
  | construct strategy fields methods tag =>
    exact record?_build hr { strategy, fields, methods, tag }
  | constructNamed name fields methods tag =>
    have hop : (Operation.constructNamed name fields methods tag).isConstruction = true := rfl
    rcases blueprint_or_refused hop m with
      ⟨b, hb⟩ | ⟨hnone, f, hrun⟩
    · rw [afterOne_of_blueprint hb, record?_build hr]
      simp only [Operation.rewrites, hb]
    · rw [afterOne, hrun, hr]
      simp only [Operation.rewrites, hnone]
  | replacePrototype tag methods =>
    show ((replacePrototype tag methods).run m).model.record? id = some r
    rw [run_replacePrototype]
    exact record?_replacePrototypeSlots (m := m.countMethods methods.size) hr tag _

/-- Whatever an operation makes of a record, it writes slots of it one after another, or links it. -/
theorem rewrites_eq (m : Model β) (op : Operation β) (id : RecordId) (r : Record β) :
    (∃ ps, op.rewrites m id r = r.setSlots ps) ∨ op.rewrites m id r = r.relink := by
  have hkept : ∃ ps, r = r.setSlots ps := ⟨[], rfl⟩
  have hbuild : ∀ b : Blueprint β, ∃ ps, (if b.strategy = .dynamicPrototype ∧
      m.currentRecord b.tag = some id ∧ r.isPopulated = false then
      r.setSlots (m.nextMethods b.methods.toList) else r) = r.setSlots ps := by
    intro b
    split
    · exact ⟨_, rfl⟩
    · exact hkept
  cases op with
  | setSlot id' name value =>
    simp only [Operation.rewrites]
    split
    · exact .inl ⟨[(name, value)], rfl⟩
    · exact .inl hkept
  | mutateSharedSlot tag name value =>
    simp only [Operation.rewrites]
    split
    · exact .inl ⟨[(name, value)], rfl⟩
    · exact .inl hkept
  | relinkConstructor tag =>
    simp only [Operation.rewrites]
    split
    · exact .inr rfl
    · exact .inl hkept
  | construct strategy fields methods tag => exact .inl (hbuild { strategy, fields, methods, tag })
  | constructNamed name fields methods tag =>
    simp only [Operation.rewrites]
    split
    next b _ => exact .inl (hbuild b)
    next => exact .inl hkept
  | _ => exact .inl hkept

/-! ## A record that was not there -/

section NewRecords

variable {m : Model β} {id : RecordId} {r : Record β}

theorem eq_of_record?_push (hnone : m.record? id = none) (new : Record β) {bind : Bool}
    (hid : m.nextRecordId = .ok new.id) (hr : (m.push new bind).record? id = some r) :
    new.id = id ∧ new = r := by
  rw [record?_push hid] at hr
  split at hr
  next e => exact ⟨e.symm, Option.some.inj hr⟩
  next =>
    rw [hnone] at hr
    cases hr

/-- A change in place stores nothing. -/
theorem record?_modifyRecord_of_none (hnone : m.record? id = none) (id' : RecordId)
    (f : Record β → Record β) : (m.modifyRecord id' f).record? id = none := by
  rw [record?_modifyRecord, hnone]
  split <;> rfl

theorem record?_setSlot_of_none (hnone : m.record? id = none) (id' : RecordId) (name : String)
    (value : Value (Method β)) : ((setSlot id' name value).run m).model.record? id = none := by
  rw [run_setSlot]
  cases m.record id' with
  | error f => exact hnone
  | ok r' => exact record?_modifyRecord_of_none hnone id' _

theorem record?_mutateSharedSlot_of_none (hnone : m.record? id = none) (tag name : String)
    (value : Value (Method β)) :
    ((mutateSharedSlot tag name value).run m).model.record? id = none := by
  rw [run_mutateSharedSlot]
  cases m.recordForTag tag with
  | error f => exact hnone
  | ok id' => exact record?_setSlot_of_none hnone id' name value

theorem record?_relinkConstructor_of_none (hnone : m.record? id = none) (tag : String) :
    ((relinkConstructor tag).run m).model.record? id = none := by
  rw [run_relinkConstructor]
  cases m.recordForTag tag with
  | error f => exact hnone
  | ok id' => exact record?_modifyRecord_of_none hnone id' _

theorem stored_of_createRecord (hnone : m.record? id = none) (tag : String)
    (hr : ((createRecord tag).run m).model.record? id = some r) : r = .new id tag := by
  rw [run_createRecord] at hr
  cases hid : m.nextRecordId with
  | error f =>
    rw [hid, hnone] at hr
    cases hr
  | ok new =>
    rw [hid] at hr
    obtain ⟨rfl, rfl⟩ := eq_of_record?_push hnone (.new new tag) hid hr
    rfl

theorem stored_of_replaceSlots (hnone : m.record? id = none) (old : RecordId)
    (slots : PropertyMap β) (hr : ((replaceSlots old slots).run m).model.record? id = some r) :
    ∃ r', m.record? old = some r' ∧ r = .withSlots id r'.creatorTag slots := by
  rw [run_replaceSlots] at hr
  cases hold : m.record old with
  | error f =>
    rw [hold, hnone] at hr
    cases hr
  | ok r' =>
    cases hid : m.nextRecordId with
    | error f =>
      rw [hold, hid, hnone] at hr
      cases hr
    | ok new =>
      rw [hold, hid] at hr
      obtain ⟨rfl, rfl⟩ := eq_of_record?_push hnone (.withSlots new r'.creatorTag slots) hid hr
      exact ⟨r', record_eq_ok_iff.1 hold, rfl⟩

theorem stored_of_replacePrototypeSlots (hm : m.Sound) (hnone : m.record? id = none) (tag : String)
    (slots : PropertyMap β)
    (hr : ((replacePrototypeSlots tag slots).run m).model.record? id = some r) :
    r = .withSlots id tag slots := by
  rw [run_replacePrototypeSlots_of_sound hm] at hr
  cases hid : m.nextRecordId with
  | error f =>
    rw [hid, hnone] at hr
    cases hr
  | ok new =>
    rw [hid] at hr
    obtain ⟨rfl, rfl⟩ := eq_of_record?_push hnone (.withSlots new tag slots) hid hr
    rfl

theorem stored_of_build (hnone : m.record? id = none) (b : Blueprint β)
    (hr : ((build b).run m).model.record? id = some r) :
    b.strategy.delegates = true ∧ m.currentRecord b.tag = none ∧
      ((build b).run m).answer = .ok { own := b.fields, prototype := some id } ∧
      r = (Record.new id b.tag).setSlots (m.nextMethods b.methods.toList) := by
  have hkept : m.record? id ≠ some r := by simp [hnone]
  have hbuilt := built b m
  generalize ((build b).run m).answer = answer, ((build b).run m).model = m' at hbuilt hr
  cases hbuilt with
  | copying | found | full | dangling => exact absurd hr hkept
  | populated id' r' _ _ _ =>
    rw [record?_countMethods, record?_modifyRecord_of_none hnone] at hr
    cases hr
  | made id' hs hcur hid =>
    rw [record?_countMethods] at hr
    obtain ⟨hsame, rfl⟩ := eq_of_record?_push hnone _ (by simpa using hid) hr
    obtain rfl : id' = id := by simpa using hsame
    exact ⟨hs, hcur, rfl, rfl⟩

/-- **New records.** A record that an operation stores is the one that it is to store. -/
theorem stores_of_record? (hm : m.Sound) (hnone : m.record? id = none) (op : Operation β)
    (hr : (m.afterOne op).record? id = some r) : op.stores m id = some r := by
  have hkept : m.record? id ≠ some r := by simp [hnone]
  cases op with
  | allocate name body => exact absurd hr hkept
  | setSlot id' name value =>
    exact absurd ((record?_setSlot_of_none hnone id' name value).symm.trans hr) (by simp)
  | mutateSharedSlot tag name value =>
    exact absurd ((record?_mutateSharedSlot_of_none hnone tag name value).symm.trans hr) (by simp)
  | relinkConstructor tag =>
    exact absurd ((record?_relinkConstructor_of_none hnone tag).symm.trans hr) (by simp)
  | createRecord tag => rw [stored_of_createRecord hnone tag hr, Operation.stores]
  | replaceSlots old slots =>
    obtain ⟨r', hold, rfl⟩ := stored_of_replaceSlots hnone old slots hr
    rw [Operation.stores, hold, Option.map_some]
  | replacePrototypeSlots tag slots =>
    rw [stored_of_replacePrototypeSlots hm hnone tag slots hr, Operation.stores]
  | replacePrototype tag methods =>
    rw [show m.afterOne (.replacePrototype tag methods) = ((replacePrototype tag methods).run m).model
      from rfl, run_replacePrototype] at hr
    rw [stored_of_replacePrototypeSlots (hm.countMethods methods.size) hnone tag _ hr,
      Operation.stores]
  | construct strategy fields methods tag =>
    obtain ⟨-, -, -, rfl⟩ := stored_of_build hnone { strategy, fields, methods, tag } hr
    rfl
  | constructNamed name fields methods tag =>
    have hop : (Operation.constructNamed name fields methods tag).isConstruction = true := rfl
    rcases blueprint_or_refused hop m with ⟨b, hb⟩ | ⟨-, f, hrun⟩
    · rw [afterOne_of_blueprint hb] at hr
      obtain ⟨-, -, -, rfl⟩ := stored_of_build hnone b hr
      simp only [Operation.stores, hb, Option.map_some]
    · rw [afterOne, hrun] at hr
      exact absurd hr hkept

end NewRecords

/-! ## Bindings -/

/-- **The record of a tag after an operation.** It is the one it was, or the one stored just now. -/
theorem currentRecord_afterOne (m : Model β) (op : Operation β) (tag : String) :
    (m.afterOne op).currentRecord tag = m.currentRecord tag ∨
      ∃ id, m.nextRecordId = .ok id ∧ (m.afterOne op).currentRecord tag = some id := by
  have hchange := change_afterOne m op
  generalize m.afterOne op = m' at hchange ⊢
  cases hchange with
  | counted n => exact .inl rfl
  | changed id r f n hr hid htag => exact .inl (currentRecord_modifyRecord ..)
  | stored r bind n hid =>
    show (m.push r bind).currentRecord tag = _ ∨ ∃ id, _ ∧ (m.push r bind).currentRecord tag = _
    rw [currentRecord_push]
    split
    · exact .inr ⟨r.id, hid, rfl⟩
    · exact .inl rfl

end Model

end Delegation
