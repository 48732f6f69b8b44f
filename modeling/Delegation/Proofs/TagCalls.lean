import Delegation.Proofs.Renaming

/-!
# Calls on a tag

Six operations are given a tag and no handle. Each of them depends on the model only through the tag's
current record, and changes nothing but this record, unless it stores a new one. `TagCall.effect` says
so: it is a function of the tag's record, of the handle that the next record would get, and of the
methods that the call allocates. `effected` shows that in a sound state with room a call does what its
effect says, and `effect_renamed` that an effect under other names is the same effect renamed.
-/

namespace Delegation

variable {β : Type}

/-- An operation that is still to be given its tag. -/
inductive TagCall (β : Type) where
  | create
  | construct (strategy : Strategy) (fields : PropertyMap β) (methods : MethodTable β)
  | replace (methods : MethodTable β)
  | replaceSlots (slots : PropertyMap β)
  | mutate (name : String) (value : Value (Method β))
  | relink

/-- What a call does to its tag. -/
structure Effect (β : Type) where
  answer : Except Fault (Product β)
  /-- What has become of the record that the tag had. -/
  kept : Option (Record β)
  /-- The record that is stored, and made the tag's current one. -/
  stored : Option (Record β)

/-- The same effect under other names. -/
def Renaming.effect (ρ : Renaming) (e : Effect β) : Effect β :=
  { answer := e.answer.map ρ.product
    kept := e.kept.map ρ.record
    stored := e.stored.map ρ.record }

namespace TagCall

/-- The call on a tag. -/
def on (tag : String) : TagCall β → Operation β
  | .create => .createRecord tag
  | .construct strategy fields methods => .construct strategy fields methods tag
  | .replace methods => .replacePrototype tag methods
  | .replaceSlots slots => .replacePrototypeSlots tag slots
  | .mutate name value => .mutateSharedSlot tag name value
  | .relink => .relinkConstructor tag

/-- The bodies that a call allocates methods for, if the tag's record is `current`. -/
def bodies (current : Option (Record β)) : TagCall β → List (String × β)
  | .replace methods => methods.toList
  | .construct strategy _ methods =>
    match strategy, current with
    | .constructorWithPrototype, some _ => []
    | .dynamicPrototype, some r => if r.isPopulated then [] else methods.toList
    | _, _ => methods.toList
  | .create | .replaceSlots _ | .mutate .. | .relink => []

section

variable {strategy : Strategy} {fields : PropertyMap β} {methods : MethodTable β} {r : Record β}

theorem bodies_of_copies (hs : strategy.delegates = false) (current : Option (Record β)) :
    (construct strategy fields methods).bodies current = methods.toList := by
  cases strategy with
  | factory | constructorOnly => rfl
  | constructorWithPrototype | dynamicPrototype => cases hs

theorem bodies_of_none : (construct strategy fields methods).bodies none = methods.toList := by
  cases strategy <;> rfl

theorem bodies_of_left (hs : strategy.delegates = true)
    (hleft : strategy = .constructorWithPrototype ∨ r.isPopulated = true) :
    (construct strategy fields methods).bodies (some r) = [] := by
  cases strategy with
  | factory | constructorOnly => cases hs
  | constructorWithPrototype => rfl
  | dynamicPrototype =>
    have hpopulated : r.isPopulated = true := hleft.resolve_left fun h => nomatch h
    simp [bodies, hpopulated]

theorem bodies_of_empty (hempty : r.isPopulated = false) :
    (construct .dynamicPrototype fields methods).bodies (some r) = methods.toList := by
  simp [bodies, hempty]

end

/-- The effect of a call, if the tag's record is `current`, the handle of the next record is `id`, and
the methods that it allocates are `named`. -/
def effect (tag : String) (id : RecordId) (named : List (String × Value (Method β)))
    (current : Option (Record β)) : TagCall β → Effect β
  | .create => { answer := .ok (.record id), kept := current, stored := some (.new id tag) }
  | .construct strategy fields _ =>
    if strategy.delegates then
      match current with
      | some r =>
        { answer := .ok (.object { own := fields, prototype := some r.id })
          kept := some (r.setSlots named)
          stored := none }
      | none =>
        { answer := .ok (.object { own := fields, prototype := some id })
          kept := none
          stored := some ((Record.new id tag).setSlots named) }
    else
      { answer := .ok (.object { own := fields.insertAll named, prototype := none })
        kept := current
        stored := none }
  | .replace _ =>
    { answer := .ok (.record id), kept := current, stored := some (.withSlots id tag (.ofList named)) }
  | .replaceSlots slots =>
    { answer := .ok (.record id), kept := current, stored := some (.withSlots id tag slots) }
  | .mutate name value =>
    { answer := if current.isSome then .ok .nothing else .error (.unknownTag tag)
      kept := current.map (·.setSlot name value)
      stored := none }
  | .relink =>
    { answer := if current.isSome then .ok .nothing else .error (.unknownTag tag)
      kept := current.map Record.relink
      stored := none }

/-- A call that stores no record has no use for the handle of one. -/
theorem effect_of_not_stored {c : TagCall β} {tag : String} {id : RecordId}
    {named : List (String × Value (Method β))} {current : Option (Record β)}
    (h : (c.effect tag id named current).stored.isSome = false) (id' : RecordId) :
    c.effect tag id' named current = c.effect tag id named current := by
  cases c with
  | create | replace | replaceSlots => cases h
  | mutate | relink => rfl
  | construct strategy fields methods =>
    simp only [effect] at h ⊢
    cases hs : strategy.delegates with
    | false => rfl
    | true =>
      cases current with
      | some r => rfl
      | none => simp [hs] at h

/-- **Effects know no names.** -/
theorem effect_renamed (ρ : Renaming) (c : TagCall β) (tag : String) (id : RecordId)
    (named : List (String × Value (Method β))) (current : Option (Record β))
    (hpassed : ∀ v, (c.on tag).Passes v → ρ.value v = v) :
    c.effect tag (ρ.recordId id) (ρ.named named) (current.map ρ.record) =
      ρ.effect (c.effect tag id named current) := by
  cases c with
  | create => rfl
  | construct strategy fields methods =>
    have hfields : ρ.properties fields = fields :=
      NameMap.map_eq_self fun name v hv => hpassed v ⟨name, hv⟩
    have hobject : ∀ prototype, ρ.product (.object { own := fields, prototype }) =
        .object { own := fields, prototype := prototype.map ρ.recordId } := by
      intro prototype
      rw [Renaming.product, Renaming.object, hfields]
    simp only [effect]
    split
    · cases current with
      | none => simp [Renaming.effect, Except.map, hobject]
      | some r => simp [Renaming.effect, Except.map, hobject]
    · have hcopies := ρ.properties_insertAll fields named
      rw [hfields] at hcopies
      simp [Renaming.effect, Except.map, Renaming.product, Renaming.object, hcopies]
  | replace methods =>
    simp [effect, Renaming.effect, Except.map, Renaming.product, ρ.properties_ofList]
  | replaceSlots slots =>
    have hslots : ρ.properties slots = slots :=
      NameMap.map_eq_self fun name v hv => hpassed v ⟨name, hv⟩
    simp [effect, Renaming.effect, Except.map, Renaming.product, hslots]
  | mutate name value =>
    have hvalue : ρ.value value = value := hpassed value rfl
    cases current with
    | none => rfl
    | some r => simp [effect, Renaming.effect, Except.map, Renaming.product, hvalue]
  | relink =>
    cases current with
    | none => rfl
    | some r => simp [effect, Renaming.effect, Except.map, Renaming.product]

end TagCall

namespace Model

/-- The tag's current record. -/
def tagRecord? (m : Model β) (tag : String) : Option (Record β) :=
  (m.currentRecord tag).bind m.record?

theorem Sound.exists_tagRecord {m : Model β} (hm : m.Sound) {tag : String} {id : RecordId}
    (hcur : m.currentRecord tag = some id) :
    ∃ r, m.record? id = some r ∧ m.tagRecord? tag = some r ∧ r.id = id ∧ r.creatorTag = tag := by
  obtain ⟨r, hr, htag⟩ := hm.bound tag id hcur
  exact ⟨r, hr, by rw [tagRecord?, hcur, Option.bind_some, hr], hm.id_eq hr, htag⟩

/-- The outcome of a call has the effect `e` on the tag, with `id` for the handle of a new record and
`n` methods allocated, and no other effect. -/
structure Effected (m : Model β) (tag : String) (id : RecordId) (e : Effect β) (n : Nat)
    (o : Outcome β (Product β)) : Prop where
  answer_eq : o.answer = e.answer
  nonce_eq : o.model.nonce = m.nonce
  limits_eq : o.model.limits = m.limits
  record? : ∀ x, o.model.record? x =
    if e.stored.isSome ∧ x = id then e.stored
    else if m.currentRecord tag = some x then e.kept
    else m.record? x
  currentRecord : ∀ t, o.model.currentRecord t =
    if e.stored.isSome ∧ t = tag then some id else m.currentRecord t
  recordCount_eq : o.model.recordCount = m.recordCount + if e.stored.isSome then 1 else 0
  methodCount_eq : o.model.methodCount = m.methodCount + n

section

variable {m : Model β} {tag : String} {id id' : RecordId} {answer : Except Fault (Product β)}
  {journal : Journal}

theorem effected_counted (n : Nat) :
    Effected m tag id { answer, kept := m.tagRecord? tag, stored := none } n
      { answer, model := m.countMethods n, journal } where
  answer_eq := rfl
  nonce_eq := rfl
  limits_eq := rfl
  record? x := by
    by_cases hcur : m.currentRecord tag = some x
    · simp [hcur, tagRecord?]
    · simp [hcur]
  currentRecord t := by simp [Model.currentRecord, countMethods]
  recordCount_eq := rfl
  methodCount_eq := rfl

theorem effected_stored (hid : m.nextRecordId = .ok id) (new : Record β) (hnew : new.id = id)
    (htag : new.creatorTag = tag) (n : Nat) :
    Effected m tag id { answer, kept := m.tagRecord? tag, stored := some new } n
      { answer, model := (m.push new true).countMethods n, journal } where
  answer_eq := rfl
  nonce_eq := rfl
  limits_eq := rfl
  record? x := by
    subst hnew
    rw [record?_countMethods, record?_push hid]
    by_cases hx : x = new.id
    · simp [hx]
    · by_cases hcur : m.currentRecord tag = some x
      · simp [hx, hcur, tagRecord?]
      · simp [hx, hcur]
  currentRecord t := by
    subst hnew htag
    show (m.push new true).currentRecord t = _
    rw [currentRecord_push]
    rfl
  recordCount_eq := by simp [recordCount, countMethods]
  methodCount_eq := rfl

theorem effected_changed {f : Record β → Record β} (hcur : m.currentRecord tag = some id') (n : Nat) :
    Effected m tag id { answer, kept := (m.tagRecord? tag).map f, stored := none } n
      { answer, model := (m.modifyRecord id' f).countMethods n, journal } where
  answer_eq := rfl
  nonce_eq := nonce_modifyRecord ..
  limits_eq := limits_modifyRecord ..
  record? x := by
    rw [record?_countMethods, record?_modifyRecord]
    by_cases hx : x = id'
    · simp [hx, hcur, tagRecord?]
    · simp [hx, hcur, Ne.symm hx]
  currentRecord t := by
    show (m.modifyRecord id' f).currentRecord t = _
    simp
  recordCount_eq := size_records_modifyRecord ..
  methodCount_eq := by simp [countMethods]

theorem tagRecord?_eq_none (hcur : m.currentRecord tag = none) : m.tagRecord? tag = none := by
  rw [tagRecord?, hcur]
  rfl

/-- A call that edits the tag's record, and is refused if there is none. -/
theorem effected_edit (hm : m.Sound) {f : Record β → Record β} {o : Outcome β (Product β)}
    (hnone : m.currentRecord tag = none →
      o = { answer := .error (.unknownTag tag), model := m, journal := [] })
    (hsome : ∀ id' r, m.currentRecord tag = some id' → m.record? id' = some r →
      o.answer = .ok .nothing ∧ o.model = m.modifyRecord id' f) :
    Effected m tag id
      { answer := if (m.tagRecord? tag).isSome then .ok .nothing else .error (.unknownTag tag)
        kept := (m.tagRecord? tag).map f
        stored := none } 0 o := by
  cases hcur : m.currentRecord tag with
  | none =>
    have htag := tagRecord?_eq_none hcur
    have heffected : Effected m tag id
        { answer := .error (.unknownTag tag), kept := m.tagRecord? tag, stored := none } 0 o :=
      hnone hcur ▸ effected_counted 0
    rw [htag] at heffected ⊢
    exact heffected
  | some id' =>
    obtain ⟨r, hr, htag, -⟩ := hm.exists_tagRecord hcur
    obtain ⟨answer, m', j⟩ := o
    obtain ⟨rfl, rfl⟩ := hsome id' r hcur hr
    have hanswer : (if (m.tagRecord? tag).isSome then .ok .nothing else .error (.unknownTag tag) :
        Except Fault (Product β)) = .ok .nothing := by rw [htag]; rfl
    rw [hanswer]
    exact effected_changed hcur 0

end

theorem effected_build {m : Model β} (hm : m.Sound) {id : RecordId} (hid : m.nextRecordId = .ok id)
    (tag : String) (strategy : Strategy) (fields : PropertyMap β) (methods : MethodTable β) :
    let c : TagCall β := .construct strategy fields methods
    let bodies := c.bodies (m.tagRecord? tag)
    Effected m tag id (c.effect tag id (m.nextMethods bodies) (m.tagRecord? tag)) bodies.length
      ((c.on tag).action.run m) := by
  intro c bodies
  let b : Blueprint β := { strategy, fields, methods, tag }
  have hbuilt := built b m
  show Effected m tag id _ _ (((build b).run m).map Product.object)
  generalize (build b).run m = o at hbuilt ⊢
  rcases o with ⟨answer, m', j⟩
  simp only at hbuilt
  cases hbuilt with
  | copying hs =>
    have hbodies : bodies = methods.toList := TagCall.bodies_of_copies hs _
    have hown : m.ownAtBirth b = fields.insertAll (m.nextMethods methods.toList) :=
      if_neg (by simp [hs])
    have heffect : c.effect tag id (m.nextMethods bodies) (m.tagRecord? tag) =
        { answer := .ok (.object { own := m.ownAtBirth b, prototype := none })
          kept := m.tagRecord? tag
          stored := none } := by
      rw [hbodies, hown]
      exact if_neg (by simp [show strategy.delegates = false from hs])
    rw [heffect, hbodies]
    exact effected_counted methods.size
  | found id' hs hcur hleft =>
    obtain ⟨r, hr, htag, rfl, -⟩ := hm.exists_tagRecord hcur
    have hbodies : bodies = [] := by
      show c.bodies (m.tagRecord? tag) = []
      rw [htag]
      refine TagCall.bodies_of_left hs (hleft.imp_right ?_)
      rintro ⟨r', hr', hpopulated⟩
      obtain rfl : r = r' := Option.some.inj (hr.symm.trans hr')
      exact hpopulated
    have heffect : c.effect tag id (m.nextMethods bodies) (m.tagRecord? tag) =
        { answer := .ok (.object { own := fields, prototype := some r.id })
          kept := m.tagRecord? tag
          stored := none } := by
      rw [hbodies, htag]
      exact if_pos hs
    rw [heffect, hbodies]
    exact effected_counted 0
  | populated id' r hs hcur hr hempty =>
    obtain ⟨r', hr', htag, rfl, -⟩ := hm.exists_tagRecord hcur
    obtain rfl : r' = r := Option.some.inj (hr'.symm.trans hr)
    obtain rfl : strategy = .dynamicPrototype := hs
    have hbodies : bodies = methods.toList := by
      show c.bodies (m.tagRecord? tag) = _
      rw [htag]
      exact TagCall.bodies_of_empty hempty
    have heffect : c.effect tag id (m.nextMethods bodies) (m.tagRecord? tag) =
        { answer := .ok (.object { own := fields, prototype := some r'.id })
          kept := (m.tagRecord? tag).map fun r => r.setSlots (m.nextMethods methods.toList)
          stored := none } := by
      rw [hbodies, htag]
      rfl
    rw [heffect, hbodies]
    exact effected_changed hcur methods.size
  | made id' hs hcur hid' =>
    obtain rfl : id = id' := Except.ok.inj (hid.symm.trans hid')
    have htag : m.tagRecord? tag = none := tagRecord?_eq_none hcur
    have hbodies : bodies = methods.toList := by
      show c.bodies (m.tagRecord? tag) = _
      rw [htag]
      exact TagCall.bodies_of_none
    have heffect : c.effect tag id (m.nextMethods bodies) (m.tagRecord? tag) =
        { answer := .ok (.object { own := fields, prototype := some id })
          kept := m.tagRecord? tag
          stored := some ((Record.new id tag).setSlots (m.nextMethods methods.toList)) } := by
      rw [hbodies, htag]
      exact if_pos hs
    rw [heffect, hbodies]
    exact effected_stored hid _ (by simp) (by simp) methods.size
  | full f hs hcur hid' =>
    rw [hid] at hid'
    cases hid'
  | dangling id' f hs hcur hr =>
    obtain ⟨r, hr', -⟩ := hm.exists_tagRecord hcur
    rw [record_eq_ok_iff.2 hr'] at hr
    cases hr

/-- **Calls have their effects**, and no others. -/
theorem effected {m : Model β} (hm : m.Sound) {id : RecordId} (hid : m.nextRecordId = .ok id)
    (c : TagCall β) (tag : String) :
    let bodies := c.bodies (m.tagRecord? tag)
    Effected m tag id (c.effect tag id (m.nextMethods bodies) (m.tagRecord? tag)) bodies.length
      ((c.on tag).action.run m) := by
  cases c with
  | create =>
    simp only [TagCall.on, Operation.action, Action.run_map, run_createRecord, hid]
    exact effected_stored hid (.new id tag) rfl rfl 0
  | construct strategy fields methods => exact effected_build hm hid tag strategy fields methods
  | replace methods =>
    simp only [TagCall.on, Operation.action, Action.run_map, run_replacePrototype,
      run_replacePrototypeSlots_of_sound (hm.countMethods _), nextRecordId_countMethods, hid]
    exact effected_stored hid (.withSlots id tag _) rfl rfl methods.size
  | replaceSlots slots =>
    simp only [TagCall.on, Operation.action, Action.run_map, run_replacePrototypeSlots_of_sound hm, hid]
    exact effected_stored hid (.withSlots id tag slots) rfl rfl 0
  | mutate name value =>
    refine effected_edit hm (fun hcur => ?_) (fun id' r hcur hr => ?_)
    · simp only [TagCall.on, Operation.action, Action.run_map, run_mutateSharedSlot, recordForTag, hcur,
        Action.map_error]
    · simp only [TagCall.on, Operation.action, Action.run_map, run_mutateSharedSlot, recordForTag, hcur,
        run_setSlot, record_eq_ok_iff.2 hr, Action.map_ok, and_self]
  | relink =>
    refine effected_edit hm (fun hcur => ?_) (fun id' r hcur hr => ?_)
    · simp only [TagCall.on, Operation.action, Action.run_map, run_relinkConstructor, recordForTag, hcur,
        Action.map_error]
    · simp only [TagCall.on, Operation.action, Action.run_map, run_relinkConstructor, recordForTag, hcur,
        record_eq_ok_iff.2 hr, Except.map, Action.map_ok, and_self]

end Model

end Delegation
