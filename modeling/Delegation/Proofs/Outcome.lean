import Delegation.Model.Operation

/-!
# What a call leaves behind

`run_` equations say what one call does in terms of the calls it makes. Here they are resolved as
far as the state allows. `Attached` lists the six ways in which an instance is attached to a record
(`attached`), and `Change` the three things that any operation at all can do to a model
(`Operation.change`): allocate methods, store one record, or change one record in place. Invariants
of models are proved from `Change` alone.
-/

namespace Delegation

variable {β : Type}

/-! ## New records, and writing many slots -/

namespace Record

@[simp] theorem id_new (id : RecordId) (tag : String) : (new id tag : Record β).id = id := rfl

@[simp] theorem creatorTag_new (id : RecordId) (tag : String) :
    (new id tag : Record β).creatorTag = tag := rfl

@[simp] theorem id_withSlots (id : RecordId) (tag : String) (slots : PropertyMap β) :
    (withSlots id tag slots).id = id := rfl

@[simp] theorem setSlots_cons (r : Record β) (p : String × Value (Method β))
    (ps : List (String × Value (Method β))) :
    r.setSlots (p :: ps) = (r.setSlot p.1 p.2).setSlots ps := rfl

@[simp] theorem id_setSlots (r : Record β) (ps : List (String × Value (Method β))) :
    (r.setSlots ps).id = r.id := by
  induction ps generalizing r with
  | nil => rfl
  | cons p ps ih => rw [setSlots_cons, ih, id_setSlot]

@[simp] theorem creatorTag_setSlots (r : Record β) (ps : List (String × Value (Method β))) :
    (r.setSlots ps).creatorTag = r.creatorTag := by
  induction ps generalizing r with
  | nil => rfl
  | cons p ps ih => rw [setSlots_cons, ih, creatorTag_setSlot]

theorem backLink_setSlots (r : Record β) (ps : List (String × Value (Method β))) :
    (r.setSlots ps).backLink = r.backLink := by
  induction ps generalizing r with
  | nil => rfl
  | cons p ps ih => rw [setSlots_cons, ih, backLink_setSlot]

theorem slots_setSlots (r : Record β) (ps : List (String × Value (Method β))) :
    (r.setSlots ps).slots = r.slots.insertAll ps := by
  induction ps generalizing r with
  | nil => rfl
  | cons p ps ih => rw [setSlots_cons, ih]; rfl

end Record

/-! ## Blueprints -/

/-- All that building an instance is given. -/
structure Blueprint (β : Type) where
  strategy : Strategy
  fields : PropertyMap β
  methods : MethodTable β
  tag : String

/-- What an operation is to build: an instance, if it is a construction and names a strategy. -/
def Operation.blueprint? : Operation β → Option (Blueprint β)
  | .construct strategy fields methods tag => some { strategy, fields, methods, tag }
  | .constructNamed name fields methods tag =>
    (Strategy.ofName? name).map fun strategy => { strategy, fields, methods, tag }
  | _ => none

namespace Model

/-! ## Counting methods leaves everything else alone -/

@[simp] theorem record?_countMethods (m : Model β) (n : Nat) (id : RecordId) :
    (m.countMethods n).record? id = m.record? id := rfl
@[simp] theorem nextRecordId_countMethods (m : Model β) (n : Nat) :
    (m.countMethods n).nextRecordId = m.nextRecordId := rfl

/-! ## Storing a record -/

/-- A stored record is found under its handle; every other handle finds what it found before. -/
theorem record?_push {m : Model β} {r : Record β} (h : m.nextRecordId = .ok r.id) (bind : Bool)
    (id : RecordId) :
    (m.push r bind).record? id = if id = r.id then some r else m.record? id := by
  obtain ⟨hmodel, hindex⟩ := nextRecordId_eq_ok h
  by_cases e : id = r.id
  · subst e
    simp [record?, hmodel, hindex]
  · rw [if_neg e]
    by_cases hm : id.model = m.nonce
    · have hne : id.index.toNat ≠ m.records.size := fun hi =>
        e (RecordId.eq_of_parts (UInt32.toNat_inj.1 (hi.trans hindex.symm)) (hm.trans hmodel.symm))
      simp [record?, hm, Array.getElem?_push, hne]
    · simp [record?, hm]

theorem record?_push_new {m : Model β} {id : RecordId} (h : m.nextRecordId = .ok id) (tag : String)
    (bind : Bool) : (m.push (.new id tag) bind).record? id = some (.new id tag) := by
  rw [record?_push (show m.nextRecordId = .ok (Record.new id tag : Record β).id from h),
    Record.id_new, if_pos rfl]

theorem record?_eq_some_iff {m : Model β} {id : RecordId} {r : Record β} :
    m.record? id = some r ↔ id.model = m.nonce ∧ m.records[id.index.toNat]? = some r := by
  by_cases h : id.model = m.nonce
  · simp [record?, h]
  · simp [record?, h]

/-- A handle that finds a record is one of the model. -/
theorem model_of_record? {m : Model β} {id : RecordId} {r : Record β} (hr : m.record? id = some r) :
    id.model = m.nonce :=
  (record?_eq_some_iff.1 hr).1

theorem place_of_record? {m : Model β} {id : RecordId} {r : Record β} (hr : m.record? id = some r) :
    id.index.toNat < m.records.size :=
  (Array.getElem?_eq_some_iff.1 (record?_eq_some_iff.1 hr).2).1

/-- The next handle is not honoured yet. -/
theorem record?_of_nextRecordId {m : Model β} {id : RecordId} (h : m.nextRecordId = .ok id) :
    m.record? id = none := by
  obtain ⟨-, hindex⟩ := nextRecordId_eq_ok h
  unfold record?
  split
  · rw [hindex]; simp
  · rfl

theorem currentRecord_push (m : Model β) (r : Record β) (bind : Bool) (tag : String) :
    (m.push r bind).currentRecord tag =
      if bind = true ∧ tag = r.creatorTag then some r.id else m.currentRecord tag := by
  cases bind with
  | false => simp [push, currentRecord]
  | true => simp [push, currentRecord, NameMap.get?_insert]

@[simp] theorem currentRecord_modifyRecord (m : Model β) (id : RecordId) (f : Record β → Record β)
    (tag : String) : (m.modifyRecord id f).currentRecord tag = m.currentRecord tag := by
  rw [currentRecord, current_modifyRecord, currentRecord]

/-- A record that is changed right after it was stored might as well have been stored changed. -/
theorem modifyRecord_push {m : Model β} {r : Record β} (h : m.nextRecordId = .ok r.id)
    (bind : Bool) {f : Record β → Record β} (hid : (f r).id = r.id)
    (htag : (f r).creatorTag = r.creatorTag) :
    (m.push r bind).modifyRecord r.id f = m.push (f r) bind := by
  obtain ⟨hmodel, hindex⟩ := nextRecordId_eq_ok h
  have hrecords : (m.records.push r).modify m.records.size f = m.records.push (f r) := by
    apply Array.ext
    · simp
    · intro i hi hi'
      have hle : i < m.records.size + 1 := by simpa using hi'
      rw [Array.getElem_modify, Array.getElem_push, Array.getElem_push]
      by_cases e : m.records.size = i
      · simp [e]
      · have hlt : i < m.records.size := by omega
        simp [e, hlt]
  rw [modifyRecord, if_pos (show r.id.model = (m.push r bind).nonce from hmodel), hindex]
  simp only [push, hrecords, hid, htag]

/-! ## Attaching to a record -/

/-- The journal of writing methods into the record of a handle. -/
def writeJournal (id : RecordId) (methods : MethodTable β) : Journal :=
  methods.toList.map fun p => .logged (.slotSet id.index.toNat p.1)

/-- The outcomes of attaching an instance to its record, one for each state of the tag. -/
inductive Attached (m : Model β) (strategy : Strategy) (methods : MethodTable β) (tag : String) :
    Outcome β (Option RecordId) → Prop where
  /-- Nothing to attach to. -/
  | copying (hs : strategy.delegates = false) :
      Attached m strategy methods tag { answer := .ok none, model := m, journal := [] }
  /-- The current record is taken as it is. -/
  | found (id : RecordId) (hs : strategy.delegates = true) (hcur : m.currentRecord tag = some id)
      (hleft : strategy = .constructorWithPrototype ∨
        ∃ r, m.record? id = some r ∧ r.isPopulated = true) :
      Attached m strategy methods tag { answer := .ok (some id), model := m, journal := [] }
  /-- The current record was empty, and the methods are written into it. -/
  | populated (id : RecordId) (r : Record β) (hs : strategy = .dynamicPrototype)
      (hcur : m.currentRecord tag = some id) (hr : m.record? id = some r)
      (hempty : r.isPopulated = false) :
      Attached m strategy methods tag
        { answer := .ok (some id)
          model := (m.modifyRecord id fun r =>
            r.setSlots (m.nextMethods methods.toList)).countMethods methods.size
          journal := .logged (.populating id.index.toNat) :: writeJournal r.id methods }
  /-- There was no current record: one is made, and the methods are written into it. -/
  | made (id : RecordId) (hs : strategy.delegates = true) (hcur : m.currentRecord tag = none)
      (hid : m.nextRecordId = .ok id) :
      Attached m strategy methods tag
        { answer := .ok (some id)
          model := (m.push ((Record.new id tag).setSlots
            (m.nextMethods methods.toList)) true).countMethods methods.size
          journal := .logged (.allocated id.index.toNat tag true) ::
            ((if strategy = .dynamicPrototype then [.logged (.populating id.index.toNat)] else []) ++
              writeJournal id methods) }
  /-- There was no current record, and no room for one. -/
  | full (f : Fault) (hs : strategy.delegates = true) (hcur : m.currentRecord tag = none)
      (hid : m.nextRecordId = .error f) :
      Attached m strategy methods tag { answer := .error f, model := m, journal := [] }
  /-- The current record is not in the table. -/
  | dangling (id : RecordId) (f : Fault) (hs : strategy = .dynamicPrototype)
      (hcur : m.currentRecord tag = some id) (hr : m.record id = .error f) :
      Attached m strategy methods tag { answer := .error f, model := m, journal := [] }

/-- A record made for the tag and written at once is stored written. -/
theorem run_createRecord_writeMethods {m : Model β} {id : RecordId} (hid : m.nextRecordId = .ok id)
    (tag : String) (methods : MethodTable β) :
    (writeMethods id methods.toList).run (m.push (.new id tag) true) =
      { answer := .ok ()
        model := (m.push ((Record.new id tag).setSlots
          (m.nextMethods methods.toList)) true).countMethods methods.size
        journal := writeJournal id methods } := by
  have hnext : (m.push (.new id tag) true).nextMethods methods.toList =
      m.nextMethods methods.toList := nextMethods_congr (nonce_push ..) (methodCount_push ..) _
  have hpush := modifyRecord_push (show m.nextRecordId = .ok (Record.new id tag : Record β).id from hid)
    true (f := fun r => r.setSlots (m.nextMethods methods.toList)) (by simp) (by simp)
  rw [Record.id_new] at hpush
  rw [run_writeMethods (record?_push_new hid tag true), hnext, hpush]
  rfl

/-- **Attachment.** One of the six cases applies, whatever the state. -/
theorem attached (strategy : Strategy) (methods : MethodTable β) (tag : String) (m : Model β) :
    Attached m strategy methods tag ((attach strategy methods tag).run m) := by
  cases strategy with
  | factory => exact .copying rfl
  | constructorOnly => exact .copying rfl
  | constructorWithPrototype =>
    rw [attach, Action.run_bind, Action.run_ask, Action.andThen_ok]
    cases hcur : m.currentRecord tag with
    | some id => exact .found id rfl hcur (.inl rfl)
    | none =>
      rw [Action.run_bind, run_createRecord]
      cases hid : m.nextRecordId with
      | error f => exact .full f rfl hcur hid
      | ok id =>
        have h : Attached m .constructorWithPrototype methods tag _ := .made id rfl hcur hid
        simp only [Action.andThen_ok, Action.run_bind, run_createRecord_writeMethods hid]
        simpa using h
  | dynamicPrototype =>
    rw [attach, Action.run_bind, Action.run_ask, Action.andThen_ok]
    cases hcur : m.currentRecord tag with
    | some id =>
      simp only [Action.run_bind, Action.run_pure, Action.andThen_ok, Action.run_consult]
      cases hr : m.record id with
      | error f => exact .dangling id f rfl hcur hr
      | ok r =>
        have hr' := record_eq_ok_iff.1 hr
        simp only [Action.andThen_ok]
        cases hp : r.isPopulated with
        | true => exact .found id rfl hcur (.inr ⟨r, hr', hp⟩)
        | false =>
          have h : Attached m .dynamicPrototype methods tag _ := .populated id r rfl hcur hr' hp
          simp only [Bool.false_eq_true, if_false, Action.run_bind, Action.run_report,
            Action.andThen_ok, run_writeMethods hr', Action.run_pure, List.nil_append,
            List.append_nil, List.cons_append]
          exact h
    | none =>
      simp only [Action.run_bind, run_createRecord]
      cases hid : m.nextRecordId with
      | error f => exact .full f rfl hcur hid
      | ok id =>
        have h : Attached m .dynamicPrototype methods tag _ := .made id rfl hcur hid
        have hfind := record_eq_ok_iff.2 (record?_push_new hid tag true)
        have hempty : (Record.new id tag : Record β).isPopulated = false := rfl
        simp only [Action.andThen_ok, Action.run_consult, hfind, hempty, Bool.false_eq_true,
          if_false, Action.run_bind, Action.run_report, run_createRecord_writeMethods hid]
        simpa using h

/-! ## Building an instance -/

/-- The own properties of an instance built now: the fields, under copies of the methods when the
strategy copies. -/
def ownAtBirth (m : Model β) (b : Blueprint β) : PropertyMap β :=
  if b.strategy.delegates then b.fields
  else b.fields.insertAll (m.nextMethods b.methods.toList)

/-- The call that builds what a blueprint describes. -/
def build (b : Blueprint β) : Action β (Instance β) :=
  construct b.strategy b.fields b.methods b.tag

/-- The answers to building an instance and the states they leave, case by case as in `Attached`. -/
inductive Built (m : Model β) (b : Blueprint β) : Except Fault (Instance β) → Model β → Prop where
  | copying (hs : b.strategy.delegates = false) :
      Built m b (.ok { own := m.ownAtBirth b, prototype := none }) (m.countMethods b.methods.size)
  | found (id : RecordId) (hs : b.strategy.delegates = true)
      (hcur : m.currentRecord b.tag = some id)
      (hleft : b.strategy = .constructorWithPrototype ∨
        ∃ r, m.record? id = some r ∧ r.isPopulated = true) :
      Built m b (.ok { own := b.fields, prototype := some id }) m
  | populated (id : RecordId) (r : Record β) (hs : b.strategy = .dynamicPrototype)
      (hcur : m.currentRecord b.tag = some id) (hr : m.record? id = some r)
      (hempty : r.isPopulated = false) :
      Built m b (.ok { own := b.fields, prototype := some id })
        ((m.modifyRecord id fun r =>
          r.setSlots (m.nextMethods b.methods.toList)).countMethods b.methods.size)
  | made (id : RecordId) (hs : b.strategy.delegates = true) (hcur : m.currentRecord b.tag = none)
      (hid : m.nextRecordId = .ok id) :
      Built m b (.ok { own := b.fields, prototype := some id })
        ((m.push ((Record.new id b.tag).setSlots
          (m.nextMethods b.methods.toList)) true).countMethods b.methods.size)
  | full (f : Fault) (hs : b.strategy.delegates = true) (hcur : m.currentRecord b.tag = none)
      (hid : m.nextRecordId = .error f) : Built m b (.error f) m
  | dangling (id : RecordId) (f : Fault) (hs : b.strategy = .dynamicPrototype)
      (hcur : m.currentRecord b.tag = some id) (hr : m.record id = .error f) :
      Built m b (.error f) m

theorem run_build_of_copies {b : Blueprint β} (hs : b.strategy.delegates = false) (m : Model β) :
    (build b).run m =
      { answer := .ok { own := m.ownAtBirth b, prototype := none }
        model := m.countMethods b.methods.size
        journal := [
          .opened (.construct b.strategy b.tag),
          .logged (.constructed (m.ownAtBirth b).size),
          .closed (.construct b.strategy b.tag)] } := by
  have hattach := attached b.strategy b.methods b.tag m
  generalize ho : (attach b.strategy b.methods b.tag).run m = o at hattach
  cases hattach with
  | copying =>
    simp only [build, construct, Action.run_within, Action.run_bind, ho, Action.andThen_ok, layOut,
      hs, Bool.false_eq_true, if_false, run_allocateAll, Action.run_pure, Action.run_report,
      ownAtBirth]
    rfl
  | populated id r hs' | dangling id f hs' => simp [hs', Strategy.delegates] at hs
  | found id hs' | made id hs' | full f hs' => simp [hs] at hs'

theorem run_build_of_delegates {b : Blueprint β} (hs : b.strategy.delegates = true) (m : Model β) :
    (build b).run m =
      (((attach b.strategy b.methods b.tag).run m).andThen fun prototype => do
        .report (.constructed b.fields.size)
        return { own := b.fields, prototype }).wrap (.construct b.strategy b.tag) := by
  simp only [build, construct, Action.run_within, Action.run_bind, layOut, hs, if_true, pure_bind]

/-- **Construction.** One of the six cases applies, whatever the state. -/
theorem built (b : Blueprint β) (m : Model β) :
    Built m b ((build b).run m).answer ((build b).run m).model := by
  cases hs : b.strategy.delegates with
  | false =>
    rw [run_build_of_copies hs]
    exact .copying hs
  | true =>
    rw [run_build_of_delegates hs]
    have hattach := attached b.strategy b.methods b.tag m
    generalize (attach b.strategy b.methods b.tag).run m = o at hattach ⊢
    cases hattach with
    | copying hs' => simp [hs] at hs'
    | found id hs hcur hleft => exact .found id hs hcur hleft
    | populated id r hs hcur hr hempty => exact .populated id r hs hcur hr hempty
    | made id hs hcur hid => exact .made id hs hcur hid
    | full f hs hcur hid => exact .full f hs hcur hid
    | dangling id f hs hcur hr => exact .dangling id f hs hcur hr

theorem built_eq {m : Model β} {b : Blueprint β} {answer : Except Fault (Instance β)}
    (h : ((build b).run m).answer = answer) : Built m b answer ((build b).run m).model :=
  h ▸ built b m

theorem run_constructNamed (name : String) (fields : PropertyMap β) (methods : MethodTable β)
    (tag : String) (m : Model β) :
    (constructNamed name fields methods tag).run m =
      match Strategy.ofName name with
      | .ok strategy => (build { strategy, fields, methods, tag }).run m
      | .error f => { answer := .error f, model := m, journal := [] } := by
  rw [constructNamed, Action.run_bind, Action.run_consult]
  cases Strategy.ofName name <;> rfl

/-! ## The three changes -/

/-- What one operation can do to a model, besides allocating methods. -/
inductive Change (m : Model β) : Model β → Prop where
  /-- Nothing. -/
  | counted (n : Nat) : Change m (m.countMethods n)
  /-- A record is stored under the next handle. -/
  | stored (r : Record β) (bind : Bool) (n : Nat) (hid : m.nextRecordId = .ok r.id) :
      Change m ((m.push r bind).countMethods n)
  /-- A record of the table is changed in place, but for its identity and its tag. -/
  | changed (id : RecordId) (r : Record β) (f : Record β → Record β) (n : Nat)
      (hr : m.record? id = some r) (hid : (f r).id = r.id)
      (htag : (f r).creatorTag = r.creatorTag) :
      Change m ((m.modifyRecord id f).countMethods n)

theorem Change.refl (m : Model β) : Change m m := .counted 0

/-- Methods allocated before a change are allocated in it. -/
theorem Change.of_countMethods {m m' : Model β} {k : Nat} (h : Change (m.countMethods k) m') :
    Change m m' := by
  cases h with
  | counted n =>
    rw [show (m.countMethods k).countMethods n = m.countMethods (k + n) by
      simp only [countMethods, Nat.add_assoc]]
    exact .counted _
  | stored r bind n hid =>
    rw [show ((m.countMethods k).push r bind).countMethods n = (m.push r bind).countMethods (k + n) by
      simp only [countMethods, push, Nat.add_assoc]]
    exact .stored r bind _ hid
  | changed id r f n hr hid htag =>
    rw [modifyRecord_countMethods,
      show ((m.modifyRecord id f).countMethods k).countMethods n =
        (m.modifyRecord id f).countMethods (k + n) by simp only [countMethods, Nat.add_assoc]]
    exact .changed id r f _ hr hid htag

theorem change_setSlot (id : RecordId) (name : String) (value : Value (Method β)) (m : Model β) :
    Change m ((setSlot id name value).run m).model := by
  rw [run_setSlot]
  cases hr : m.record id with
  | error f => exact .refl m
  | ok r => exact .changed id r (·.setSlot name value) 0 (record_eq_ok_iff.1 hr) rfl rfl

theorem change_relinkConstructor (tag : String) (m : Model β) :
    Change m ((relinkConstructor tag).run m).model := by
  rw [run_relinkConstructor]
  cases m.recordForTag tag with
  | error f => exact .refl m
  | ok id =>
    cases hr : m.record id with
    | error f =>
      simp only [modifyRecord_eq_self_of_error hr]
      exact .refl m
    | ok r => exact .changed id r Record.relink 0 (record_eq_ok_iff.1 hr) rfl rfl

theorem change_replaceSlots (id : RecordId) (slots : PropertyMap β) (m : Model β) :
    Change m ((replaceSlots id slots).run m).model := by
  rw [run_replaceSlots]
  cases m.record id with
  | error f => exact .refl m
  | ok old =>
    cases hid : m.nextRecordId with
    | error f => exact .refl m
    | ok new => exact .stored (.withSlots new old.creatorTag slots) _ 0 hid

theorem change_replacePrototypeSlots (tag : String) (slots : PropertyMap β) (m : Model β) :
    Change m ((replacePrototypeSlots tag slots).run m).model := by
  rw [run_replacePrototypeSlots]
  cases m.currentRecord tag with
  | some old => exact change_replaceSlots old slots m
  | none =>
    cases hid : m.nextRecordId with
    | error f => exact .refl m
    | ok new => exact .stored (.withSlots new tag slots) true 0 hid

theorem change_build (b : Blueprint β) (m : Model β) : Change m ((build b).run m).model := by
  have h := built b m
  generalize ((build b).run m).answer = answer, ((build b).run m).model = m' at h ⊢
  cases h with
  | copying => exact .counted _
  | found | full | dangling => exact .refl m
  | populated id r hs hcur hr =>
    exact .changed id r (·.setSlots (m.nextMethods b.methods.toList)) _ hr (by simp) (by simp)
  | made id hs hcur hid =>
    exact .stored ((Record.new id b.tag).setSlots (m.nextMethods b.methods.toList)) true _ (by simpa)

/-! ## Answers of operations -/

theorem answer_map_eq_ok {α γ : Type} {f : α → γ} {x : Action β α} {m : Model β} {c : γ}
    (h : ((f <$> x).run m).answer = .ok c) : ∃ a, (x.run m).answer = .ok a ∧ f a = c := by
  rw [Action.run_map] at h
  rcases hx : x.run m with ⟨_ | a, m', j⟩
  · simp [hx] at h
  · exact ⟨a, rfl, by simpa [hx] using h⟩

theorem answer_map_eq_error {α γ : Type} {f : α → γ} {x : Action β α} {m : Model β} {e : Fault}
    (h : ((f <$> x).run m).answer = .error e) : (x.run m).answer = .error e := by
  rw [Action.run_map] at h
  rcases hx : x.run m with ⟨_ | a, m', j⟩
  · simpa [hx] using h
  · simp [hx] at h

/-- An operation that answers with an instance had a blueprint, and built it. -/
theorem built_of_answer {m : Model β} {op : Operation β} {i : Instance β}
    (h : (op.action.run m).answer = .ok (.object i)) :
    ∃ b, op.blueprint? = some b ∧ ((build b).run m).answer = .ok i ∧
      m.afterOne op = ((build b).run m).model := by
  cases op with
  | createRecord | setSlot | mutateSharedSlot | relinkConstructor | replaceSlots
  | replacePrototype | replacePrototypeSlots | allocate =>
    obtain ⟨_, -, hp⟩ := answer_map_eq_ok h
    cases hp
  | construct strategy fields methods tag =>
    obtain ⟨_, hok, hp⟩ := answer_map_eq_ok h
    cases hp
    exact ⟨_, rfl, hok, rfl⟩
  | constructNamed name fields methods tag =>
    obtain ⟨_, hok, hp⟩ := answer_map_eq_ok h
    cases hp
    cases hs : Strategy.ofName? name with
    | none => simp [run_constructNamed, Strategy.ofName, hs] at hok
    | some strategy =>
      simp only [run_constructNamed, Strategy.ofName, hs] at hok
      refine ⟨{ strategy, fields, methods, tag }, by simp [Operation.blueprint?, hs], hok, ?_⟩
      show ((constructNamed name fields methods tag).run m).model = _
      simp only [run_constructNamed, Strategy.ofName, hs]

/-- **Operations.** Every operation, refused or not, makes one of the three changes. -/
theorem change_afterOne (m : Model β) (op : Operation β) : Change m (m.afterOne op) := by
  cases op with
  | construct strategy fields methods tag => exact change_build { strategy, fields, methods, tag } m
  | constructNamed name fields methods tag =>
    show Change m ((constructNamed name fields methods tag).run m).model
    rw [run_constructNamed]
    cases Strategy.ofName name with
    | ok strategy => exact change_build { strategy, fields, methods, tag } m
    | error f => exact .refl m
  | createRecord tag =>
    show Change m ((createRecord tag).run m).model
    rw [run_createRecord]
    cases hid : m.nextRecordId with
    | error f => exact .refl m
    | ok id => exact .stored (.new id tag) true 0 hid
  | setSlot id name value => exact change_setSlot id name value m
  | mutateSharedSlot tag name value =>
    show Change m ((mutateSharedSlot tag name value).run m).model
    rw [run_mutateSharedSlot]
    cases m.recordForTag tag with
    | error f => exact .refl m
    | ok id => exact change_setSlot id name value m
  | relinkConstructor tag => exact change_relinkConstructor tag m
  | replaceSlots id slots => exact change_replaceSlots id slots m
  | replacePrototype tag methods =>
    show Change m ((replacePrototype tag methods).run m).model
    rw [run_replacePrototype]
    exact (change_replacePrototypeSlots tag _ _).of_countMethods
  | replacePrototypeSlots tag slots => exact change_replacePrototypeSlots tag slots m
  | allocate name body => exact .counted 1

end Model

end Delegation
