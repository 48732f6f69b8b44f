import Delegation.Proofs.Outcome

/-!
# The table of records

`Model.Sound` is the invariant of every state that calls lead to: the table is within its limits,
each record carries the handle of its own place, and the current record of a tag is a record of the
table made for that tag. `Model.Extends` is what no call takes back: records stay at their places,
with their identities and tags. Both are proved once per `Change`.

From them follows what handles are good for (`record_table_integrity`): a handle that a model gave
out is honoured ever after, no handle is given out a second time, and a call that is not itself
given a handle never fails over one.
-/

namespace Delegation

variable {β : Type}

/-- The handle in what an operation yields: a record's own, or an object's prototype. -/
def Product.recordId? : Product β → Option RecordId
  | .record id => some id
  | .object i => i.prototype
  | .nothing | .method _ => none

/-- Whether an operation is given the handle of the record it works on. -/
def Operation.takesHandle : Operation β → Bool
  | .setSlot .. | .replaceSlots .. => true
  | _ => false

namespace Model

/-! ## The invariant -/

/-- The invariant of a model's records and bindings. -/
structure Sound (m : Model β) : Prop where
  limited : m.records.size ≤ m.limits.maxRecords
  placed : m.records.size ≤ placeLimit
  handles : ∀ (j : Nat) (r : Record β), m.records[j]? = some r →
    r.id.index.toNat = j ∧ r.id.model = m.nonce
  bound : ∀ tag id, m.currentRecord tag = some id →
    ∃ r, m.record? id = some r ∧ r.creatorTag = tag

theorem sound_new (nonce : UInt32) (limits : Limits) : (Model.new nonce limits : Model β).Sound where
  limited := Nat.zero_le _
  placed := Nat.zero_le _
  handles j r h := by simp [Model.new] at h
  bound tag id h := by simp [Model.new, currentRecord] at h

theorem Sound.countMethods {m : Model β} (h : m.Sound) (n : Nat) : (m.countMethods n).Sound :=
  ⟨h.limited, h.placed, h.handles, h.bound⟩

/-- The record that a handle finds carries this handle. -/
theorem Sound.id_eq {m : Model β} (h : m.Sound) {id : RecordId} {r : Record β}
    (hr : m.record? id = some r) : r.id = id := by
  obtain ⟨hm, hget⟩ := record?_eq_some_iff.1 hr
  obtain ⟨hindex, hmodel⟩ := h.handles _ r hget
  exact RecordId.eq_of_parts (UInt32.toNat_inj.1 hindex) (hmodel.trans hm.symm)

/-- A record of the table is found under its own handle. -/
theorem Sound.record?_of_mem {m : Model β} (h : m.Sound) {r : Record β} (hr : r ∈ m.records) :
    m.record? r.id = some r := by
  obtain ⟨j, hj⟩ := Array.mem_iff_getElem?.1 hr
  obtain ⟨hindex, hmodel⟩ := h.handles j r hj
  rw [record?, if_pos hmodel, hindex, hj]

theorem hasRoom_of_nextRecordId {m : Model β} {id : RecordId} (h : m.nextRecordId = .ok id) :
    m.records.size < m.limits.maxRecords ∧ m.records.size < placeLimit := by
  unfold nextRecordId at h
  split at h
  next hroom => simpa [hasRoom] using hroom
  next => simp at h

theorem Sound.push {m : Model β} (h : m.Sound) {r : Record β} (bind : Bool)
    (hid : m.nextRecordId = .ok r.id) : (m.push r bind).Sound := by
  obtain ⟨hlimit, hplace⟩ := hasRoom_of_nextRecordId hid
  obtain ⟨hmodel, hindex⟩ := nextRecordId_eq_ok hid
  refine ⟨?_, ?_, ?_, ?_⟩
  · simpa [Nat.succ_le_iff] using hlimit
  · simpa [Nat.succ_le_iff] using hplace
  · intro j r' hr'
    rw [records_push, Array.getElem?_push] at hr'
    split at hr'
    · obtain rfl : r = r' := by simpa using hr'
      exact ⟨hindex.trans (Eq.symm ‹_›), hmodel⟩
    · exact h.handles j r' hr'
  · intro tag id hcur
    rw [currentRecord_push] at hcur
    split at hcur
    next htag =>
      obtain rfl : r.id = id := by simpa using hcur
      exact ⟨r, by rw [record?_push hid, if_pos rfl], htag.2.symm⟩
    next =>
      obtain ⟨r', hr', htag⟩ := h.bound tag id hcur
      refine ⟨r', ?_, htag⟩
      -- a bound handle is honoured already, so it is not the next one
      have hne : id ≠ r.id := by
        intro e
        rw [e, record?_of_nextRecordId hid] at hr'
        simp at hr'
      rw [record?_push hid, if_neg hne, hr']

/-- Changing records in place moves none of them. -/
theorem getElem?_records_modifyRecord {m : Model β} {id : RecordId} {f : Record β → Record β}
    {j : Nat} {r' : Record β} (h : (m.modifyRecord id f).records[j]? = some r') :
    m.records[j]? = some r' ∨
      ∃ r, m.record? id = some r ∧ m.records[j]? = some r ∧ r' = f r := by
  unfold modifyRecord at h
  split at h
  next hm =>
    simp only [Array.getElem?_modify] at h
    split at h
    next hj =>
      obtain ⟨r, hr, rfl⟩ := Option.map_eq_some_iff.1 h
      exact .inr ⟨r, by rw [record?, if_pos hm, hj, hr], hr, rfl⟩
    next => exact .inl h
  next => exact .inl h

theorem Sound.modifyRecord {m : Model β} (h : m.Sound) {id : RecordId} {r : Record β}
    {f : Record β → Record β} (hr : m.record? id = some r) (hid : (f r).id = r.id)
    (htag : (f r).creatorTag = r.creatorTag) : (m.modifyRecord id f).Sound := by
  refine ⟨?_, ?_, ?_, ?_⟩
  · simpa using h.limited
  · simpa using h.placed
  · intro j r' hr'
    rw [nonce_modifyRecord]
    rcases getElem?_records_modifyRecord hr' with hold | ⟨r₁, hr₁, hj, rfl⟩
    · exact h.handles j r' hold
    · obtain rfl : r = r₁ := by simpa [hr] using hr₁
      rw [hid]
      exact h.handles j r hj
  · intro tag id' hcur
    rw [currentRecord_modifyRecord] at hcur
    obtain ⟨r', hr', htag'⟩ := h.bound tag id' hcur
    rw [record?_modifyRecord]
    split
    next e =>
      subst e
      obtain rfl : r = r' := by simpa [hr] using hr'
      exact ⟨f r, by rw [hr, Option.map_some], htag.trans htag'⟩
    next => exact ⟨r', hr', htag'⟩

theorem Sound.change {m m' : Model β} (h : m.Sound) (hc : Change m m') : m'.Sound := by
  cases hc with
  | counted n => exact h.countMethods n
  | stored r bind n hid => exact (h.push bind hid).countMethods n
  | changed id r f n hr hid htag => exact (h.modifyRecord hr hid htag).countMethods n

theorem Reachable.sound {m : Model β} (h : m.Reachable) : m.Sound := by
  induction h with
  | new nonce limits => exact sound_new nonce limits
  | step _ op ih => exact ih.change (change_afterOne _ op)

theorem Sound.afterOne {m : Model β} (h : m.Sound) (op : Operation β) : (m.afterOne op).Sound :=
  h.change (change_afterOne m op)

theorem Sound.after {m : Model β} (h : m.Sound) (history : List (Operation β)) :
    (m.after history).Sound := by
  induction history generalizing m with
  | nil => exact h
  | cons op history ih => exact ih (h.afterOne op)

theorem sound_after (nonce : UInt32) (limits : Limits) (history : List (Operation β)) :
    ((Model.new nonce limits).after history).Sound :=
  (sound_new nonce limits).after history

/-! ## What is never taken back -/

/-- `m'` has all that `m` had: its number, its limits, and its records at their places, each with
its identity and its tag. -/
structure Extends (m m' : Model β) : Prop where
  nonce_eq : m'.nonce = m.nonce
  limits_eq : m'.limits = m.limits
  kept : ∀ (j : Nat) (r : Record β), m.records[j]? = some r →
    ∃ r', m'.records[j]? = some r' ∧ r'.id = r.id ∧ r'.creatorTag = r.creatorTag

theorem Extends.refl (m : Model β) : Extends m m := ⟨rfl, rfl, fun _ r h => ⟨r, h, rfl, rfl⟩⟩

theorem Extends.trans {m m' m'' : Model β} (h : Extends m m') (h' : Extends m' m'') :
    Extends m m'' := by
  refine ⟨h'.nonce_eq.trans h.nonce_eq, h'.limits_eq.trans h.limits_eq, fun j r hr => ?_⟩
  obtain ⟨r', hr', hid, htag⟩ := h.kept j r hr
  obtain ⟨r'', hr'', hid', htag'⟩ := h'.kept j r' hr'
  exact ⟨r'', hr'', hid'.trans hid, htag'.trans htag⟩

theorem extends_of_change {m m' : Model β} (h : Change m m') : Extends m m' := by
  cases h with
  | counted n => exact ⟨rfl, rfl, fun _ r h => ⟨r, h, rfl, rfl⟩⟩
  | stored r bind n hid =>
    refine ⟨rfl, rfl, fun j r' hr' => ⟨r', ?_, rfl, rfl⟩⟩
    have hlt : j < m.records.size := (Array.getElem?_eq_some_iff.1 hr').1
    show (m.records.push r)[j]? = some r'
    rw [Array.getElem?_push, if_neg (by omega), hr']
  | changed id r f n hr hid htag =>
    refine ⟨nonce_modifyRecord .., limits_modifyRecord .., fun j r' hr' => ?_⟩
    obtain ⟨hm, hget⟩ := record?_eq_some_iff.1 hr
    show ∃ r'', (m.modifyRecord id f).records[j]? = some r'' ∧ _
    simp only [modifyRecord, if_pos hm, Array.getElem?_modify]
    split
    next hj =>
      obtain rfl : r = r' := by simpa [← hj, hget] using hr'
      exact ⟨f r, by rw [hr', Option.map_some], hid, htag⟩
    next => exact ⟨r', hr', rfl, rfl⟩

theorem extends_afterOne (m : Model β) (op : Operation β) : Extends m (m.afterOne op) :=
  extends_of_change (change_afterOne m op)

theorem extends_after (m : Model β) (history : List (Operation β)) : Extends m (m.after history) := by
  induction history generalizing m with
  | nil => exact .refl m
  | cons op history ih => exact (extends_afterOne m op).trans (ih _)

/-- A handle that finds a record finds it ever after. -/
theorem Extends.record? {m m' : Model β} (h : Extends m m') {id : RecordId} {r : Record β}
    (hr : m.record? id = some r) :
    ∃ r', m'.record? id = some r' ∧ r'.id = r.id ∧ r'.creatorTag = r.creatorTag := by
  obtain ⟨hm, hget⟩ := record?_eq_some_iff.1 hr
  obtain ⟨r', hget', hsame⟩ := h.kept _ r hget
  exact ⟨r', record?_eq_some_iff.2 ⟨hm.trans h.nonce_eq.symm, hget'⟩, hsame⟩

/-- A handle that finds a record is answered later with the same identity and the same tag. -/
theorem record_after {m : Model β} (hm : m.Sound) {id : RecordId} {r : Record β}
    (hr : m.record? id = some r) (later : List (Operation β)) :
    ∃ r', (m.after later).record id = .ok r' ∧ r'.id = id ∧ r'.creatorTag = r.creatorTag := by
  obtain ⟨r', hr', hid, htag⟩ := (extends_after m later).record? hr
  exact ⟨r', record_eq_ok_iff.2 hr', hid.trans (hm.id_eq hr), htag⟩

/-! ## Answers

What the answer of a call says about the table, for the calls that answer with a handle. -/

theorem nextRecordId_eq_error {m : Model β} {f : Fault} (h : m.nextRecordId = .error f) :
    m.hasRoom = false ∧ f = .recordLimitExceeded m.limits.maxRecords := by
  unfold nextRecordId at h
  split at h
  next => simp at h
  next hroom => exact ⟨by simpa using hroom, by simpa using h.symm⟩

/-- The table holds as many records as the limit allows, or as many as there are places. -/
def IsFull (m : Model β) : Prop :=
  m.recordCount = m.limits.maxRecords ∨ m.recordCount = placeLimit

/-- A sound table has never more than it may have, so it is full exactly when there is no room. -/
theorem Sound.isFull_iff {m : Model β} (hm : m.Sound) : m.IsFull ↔ m.hasRoom = false := by
  have hlimited := hm.limited
  have hplaced := hm.placed
  simp only [IsFull, recordCount, hasRoom, Bool.and_eq_false_iff, decide_eq_false_iff_not]
  omega

theorem nextRecordId_of_isFull {m : Model β} (hm : m.Sound) (h : m.IsFull) :
    m.nextRecordId = .error (.recordLimitExceeded m.limits.maxRecords) := by
  rw [nextRecordId, hm.isFull_iff.1 h, if_neg Bool.false_ne_true]

theorem exists_nextRecordId {m : Model β} (hm : m.Sound) (h : ¬ m.IsFull) :
    ∃ id, m.nextRecordId = .ok id := by
  have hroom : m.hasRoom = true := by simpa using mt hm.isFull_iff.2 h
  exact ⟨_, if_pos hroom⟩

theorem recordForTag_eq_ok {m : Model β} {tag : String} {id : RecordId}
    (h : m.recordForTag tag = .ok id) : m.currentRecord tag = some id := by
  unfold recordForTag at h
  split at h <;> simp_all

theorem recordForTag_eq_error {m : Model β} {tag : String} {f : Fault}
    (h : m.recordForTag tag = .error f) : f = .unknownTag tag := by
  unfold recordForTag at h
  split at h <;> simp_all

/-- In a sound state a tag's prototype is replaced in the same way whether or not it had one. -/
theorem run_replacePrototypeSlots_of_sound {m : Model β} (hm : m.Sound) (tag : String)
    (slots : PropertyMap β) :
    (replacePrototypeSlots tag slots).run m =
      match m.nextRecordId with
      | .ok new => (storeReplacement tag (m.currentRecord tag) new slots true).run m
      | .error f => { answer := .error f, model := m, journal := [] } := by
  rw [run_replacePrototypeSlots]
  cases hcur : m.currentRecord tag with
  | none => cases m.nextRecordId <;> rfl
  | some old =>
    obtain ⟨r, hr, rfl⟩ := hm.bound tag old hcur
    simp only [run_replaceSlots, record_eq_ok_iff.2 hr]
    cases m.nextRecordId with
    | error f => rfl
    | ok new => simp only [hcur, decide_true]

/-- The step from `m` to `m'` stored a record under the handle `id`. -/
def Stores (m : Model β) (id : RecordId) (m' : Model β) : Prop :=
  m.nextRecordId = .ok id ∧
    ∃ (r : Record β) (bind : Bool) (n : Nat), r.id = id ∧ m' = (m.push r bind).countMethods n

theorem stores_createRecord {m : Model β} {tag : String} {id : RecordId}
    (h : ((createRecord tag).run m).answer = .ok id) :
    Stores m id ((createRecord tag).run m).model := by
  rw [run_createRecord] at h ⊢
  cases hid : m.nextRecordId with
  | error f => simp [hid] at h
  | ok new =>
    obtain rfl : new = id := by simpa [hid] using h
    exact ⟨hid, .new new tag, true, 0, rfl, rfl⟩

theorem stores_replaceSlots {m : Model β} {old : RecordId} {slots : PropertyMap β} {id : RecordId}
    (h : ((replaceSlots old slots).run m).answer = .ok id) :
    Stores m id ((replaceSlots old slots).run m).model := by
  rw [run_replaceSlots] at h ⊢
  cases hr : m.record old with
  | error f => simp [hr] at h
  | ok r =>
    cases hid : m.nextRecordId with
    | error f => simp [hr, hid] at h
    | ok new =>
      obtain rfl : new = id := by simpa [hr, hid, run_storeReplacement] using h
      exact ⟨hid, .withSlots new r.creatorTag slots, _, 0, rfl, rfl⟩

theorem stores_replacePrototypeSlots {m : Model β} (hm : m.Sound) {tag : String}
    {slots : PropertyMap β} {id : RecordId}
    (h : ((replacePrototypeSlots tag slots).run m).answer = .ok id) :
    Stores m id ((replacePrototypeSlots tag slots).run m).model := by
  rw [run_replacePrototypeSlots_of_sound hm] at h ⊢
  cases hid : m.nextRecordId with
  | error f => simp [hid] at h
  | ok new =>
    obtain rfl : new = id := by simpa [hid, run_storeReplacement] using h
    exact ⟨hid, .withSlots new tag slots, true, 0, rfl, rfl⟩

/-- A handle that is answered belongs to a record stored in that very call. -/
theorem stores_of_answer {m : Model β} (hm : m.Sound) {op : Operation β} {id : RecordId}
    (h : (op.action.run m).answer = .ok (.record id)) : Stores m id (m.afterOne op) := by
  cases op with
  | construct | constructNamed | setSlot | mutateSharedSlot | relinkConstructor | allocate =>
    obtain ⟨_, -, hp⟩ := answer_map_eq_ok h
    cases hp
  | createRecord tag =>
    obtain ⟨_, hok, hp⟩ := answer_map_eq_ok h
    cases hp
    exact stores_createRecord hok
  | replaceSlots old slots =>
    obtain ⟨_, hok, hp⟩ := answer_map_eq_ok h
    cases hp
    exact stores_replaceSlots hok
  | replacePrototypeSlots tag slots =>
    obtain ⟨_, hok, hp⟩ := answer_map_eq_ok h
    cases hp
    exact stores_replacePrototypeSlots hm hok
  | replacePrototype tag methods =>
    obtain ⟨_, hok, hp⟩ := answer_map_eq_ok h
    cases hp
    rw [run_replacePrototype] at hok
    obtain ⟨hid, r, bind, n, hr, hafter⟩ := stores_replacePrototypeSlots (hm.countMethods _) hok
    refine ⟨hid, r, bind, methods.size + n, hr, ?_⟩
    show ((replacePrototype tag methods).run m).model = _
    rw [run_replacePrototype, hafter]
    simp only [countMethods, push, Nat.add_assoc]

/-- A prototype that is answered is the tag's current record, or one stored in that very call. -/
theorem prototype_of_build {m : Model β} (hm : m.Sound) {b : Blueprint β} {i : Instance β}
    {id : RecordId} (h : ((build b).run m).answer = .ok i) (hproto : i.prototype = some id) :
    (m.currentRecord b.tag = some id ∨ m.currentRecord b.tag = none ∧ m.nextRecordId = .ok id) ∧
      ∃ r, ((build b).run m).model.record? id = some r ∧ r.creatorTag = b.tag := by
  have hbuilt := built_eq h
  generalize ((build b).run m).model = m' at hbuilt ⊢
  cases hbuilt with
  | copying => cases hproto
  | found id' _ hcur =>
    cases hproto
    obtain ⟨r, hr, htag⟩ := hm.bound b.tag id hcur
    exact ⟨.inl hcur, r, hr, htag⟩
  | populated id' r _ hcur hr =>
    cases hproto
    obtain ⟨r', hr', htag⟩ := hm.bound b.tag id hcur
    obtain rfl : r = r' := by simpa [hr] using hr'
    refine ⟨.inl hcur, r.setSlots (m.nextMethods b.methods.toList), ?_, by simpa using htag⟩
    rw [record?_countMethods, record?_modifyRecord, if_pos rfl, hr, Option.map_some]
  | made id' _ hcur hid =>
    cases hproto
    refine ⟨.inr ⟨hcur, hid⟩, (Record.new id b.tag).setSlots (m.nextMethods b.methods.toList), ?_,
      by simp⟩
    rw [record?_countMethods, record?_push (by simpa using hid), if_pos (by simp)]

/-! ## Handles given out -/

/-- A model in state `m` gives out the handle `id`, and is in the last state afterwards: it is asked
for a tag's current record, or a call yields a record or an object that delegates to one. -/
inductive GivesOut (m : Model β) : RecordId → Model β → Prop where
  | current (tag : String) (id : RecordId) (h : m.currentRecord tag = some id) : GivesOut m id m
  | product (op : Operation β) (p : Product β) (id : RecordId)
      (h : (op.action.run m).answer = .ok p) (hid : p.recordId? = some id) :
      GivesOut m id (m.afterOne op)

/-- The handle that a call gives out is meant for a new record: it is answered by itself, or it is
the prototype of an object and was no tag's current record. -/
def GivesOutNew (m : Model β) (op : Operation β) (id : RecordId) : Prop :=
  (op.action.run m).answer = .ok (.record id) ∨
    ∃ i, (op.action.run m).answer = .ok (.object i) ∧ i.prototype = some id ∧
      ∀ tag, m.currentRecord tag ≠ some id

theorem GivesOut.sound {m m' : Model β} {id : RecordId} (h : GivesOut m id m') (hm : m.Sound) :
    m'.Sound := by
  cases h with
  | current => exact hm
  | product op => exact hm.afterOne op

/-- A handle that was given out is honoured. -/
theorem GivesOut.record? {m m' : Model β} {id : RecordId} (h : GivesOut m id m') (hm : m.Sound) :
    ∃ r, m'.record? id = some r := by
  cases h with
  | current tag id hcur =>
    obtain ⟨r, hr, -⟩ := hm.bound tag id hcur
    exact ⟨r, hr⟩
  | product op p id hok hid =>
    cases p with
    | nothing | method => cases hid
    | record id' =>
      obtain rfl : id' = id := by simpa [Product.recordId?] using hid
      obtain ⟨hnext, r, bind, n, rfl, hafter⟩ := stores_of_answer hm hok
      refine ⟨r, ?_⟩
      rw [hafter, record?_countMethods, record?_push hnext, if_pos rfl]
    | object i =>
      obtain ⟨b, -, hb, hafter⟩ := built_of_answer hok
      obtain ⟨-, r, hr, -⟩ := prototype_of_build hm hb hid
      exact ⟨r, by rw [hafter, hr]⟩

/-- A handle that is meant for a new record was not honoured before. -/
theorem GivesOutNew.record? {m : Model β} {op : Operation β} {id : RecordId}
    (h : GivesOutNew m op id) (hm : m.Sound) : m.record? id = none := by
  rcases h with hok | ⟨i, hok, hproto, hnot⟩
  · exact record?_of_nextRecordId (stores_of_answer hm hok).1
  · obtain ⟨b, -, hb, -⟩ := built_of_answer hok
    rcases (prototype_of_build hm hb hproto).1 with hcur | ⟨-, hnext⟩
    · exact absurd hcur (hnot b.tag)
    · exact record?_of_nextRecordId hnext

/-! ## Calls that are given no handle -/

theorem setSlot_of_currentRecord {m : Model β} (hm : m.Sound) {tag : String} {id : RecordId}
    (hcur : m.currentRecord tag = some id) (name : String) (value : Value (Method β)) :
    ((setSlot id name value).run m).answer = .ok () := by
  obtain ⟨r, hr, -⟩ := hm.bound tag id hcur
  rw [run_setSlot, record_eq_ok_iff.2 hr]

theorem error_of_build {m : Model β} (hm : m.Sound) {b : Blueprint β} {f : Fault}
    (h : ((build b).run m).answer = .error f) :
    b.strategy.delegates = true ∧ m.currentRecord b.tag = none ∧ m.nextRecordId = .error f := by
  have hbuilt := built_eq h
  generalize ((build b).run m).model = m' at hbuilt
  cases hbuilt with
  | full _ hs hcur hid => exact ⟨hs, hcur, hid⟩
  | dangling id _ _ hcur hr =>
    obtain ⟨r, hr', -⟩ := hm.bound b.tag id hcur
    rw [record_eq_ok_iff.2 hr'] at hr
    cases hr

theorem error_of_replacePrototypeSlots {m : Model β} (hm : m.Sound) {tag : String}
    {slots : PropertyMap β} {f : Fault}
    (h : ((replacePrototypeSlots tag slots).run m).answer = .error f) :
    m.nextRecordId = .error f := by
  rw [run_replacePrototypeSlots_of_sound hm] at h
  cases hid : m.nextRecordId with
  | error f' => simpa [hid] using h
  | ok new => simp [hid, run_storeReplacement] at h

theorem error_of_constructNamed {m : Model β} (hm : m.Sound) {name : String}
    {fields : PropertyMap β} {methods : MethodTable β} {tag : String} {f : Fault}
    (h : ((constructNamed name fields methods tag).run m).answer = .error f) :
    f = .invalidStrategy name ∨ m.nextRecordId = .error f := by
  rw [run_constructNamed] at h
  cases hs : Strategy.ofName? name with
  | none =>
    simp only [Strategy.ofName, hs] at h
    exact .inl (Except.error.inj h).symm
  | some strategy =>
    simp only [Strategy.ofName, hs] at h
    exact .inr (error_of_build hm h).2.2

theorem error_of_createRecord {m : Model β} {tag : String} {f : Fault}
    (h : ((createRecord tag).run m).answer = .error f) : m.nextRecordId = .error f := by
  rw [run_createRecord] at h
  cases hid : m.nextRecordId with
  | error f' => simpa [hid] using h
  | ok new => simp [hid] at h

theorem error_of_mutateSharedSlot {m : Model β} (hm : m.Sound) {tag name : String}
    {value : Value (Method β)} {f : Fault}
    (h : ((mutateSharedSlot tag name value).run m).answer = .error f) : f = .unknownTag tag := by
  rw [run_mutateSharedSlot] at h
  cases htag : m.recordForTag tag with
  | error f' =>
    obtain rfl : f' = f := by simpa [htag] using h
    exact recordForTag_eq_error htag
  | ok id => simp [htag, setSlot_of_currentRecord hm (recordForTag_eq_ok htag)] at h

theorem error_of_relinkConstructor {m : Model β} (hm : m.Sound) {tag : String} {f : Fault}
    (h : ((relinkConstructor tag).run m).answer = .error f) : f = .unknownTag tag := by
  rw [run_relinkConstructor] at h
  cases htag : m.recordForTag tag with
  | error f' =>
    obtain rfl : f' = f := by simpa [htag] using h
    exact recordForTag_eq_error htag
  | ok id =>
    -- the record of a bound handle is there, so it can be linked
    obtain ⟨r, hr, -⟩ := hm.bound tag id (recordForTag_eq_ok htag)
    simp [htag, record_eq_ok_iff.2 hr, Except.map] at h

theorem error_ne_invalidHandle {m : Model β} (hm : m.Sound) {op : Operation β}
    (hop : op.takesHandle = false) {f : Fault} (h : (op.action.run m).answer = .error f) :
    f ≠ .invalidHandle := by
  have hfull : ∀ {f}, m.nextRecordId = .error f → f ≠ .invalidHandle := by
    intro f hf
    rw [(nextRecordId_eq_error hf).2]
    exact Fault.noConfusion
  cases op with
  | setSlot | replaceSlots => cases hop
  | allocate => cases h
  | construct strategy fields methods tag =>
    exact hfull (error_of_build (b := { strategy, fields, methods, tag }) hm
      (answer_map_eq_error h)).2.2
  | constructNamed name fields methods tag =>
    rcases error_of_constructNamed hm (answer_map_eq_error h) with rfl | hid
    · exact Fault.noConfusion
    · exact hfull hid
  | createRecord tag => exact hfull (error_of_createRecord (answer_map_eq_error h))
  | mutateSharedSlot tag name value =>
    rw [error_of_mutateSharedSlot hm (answer_map_eq_error h)]
    exact Fault.noConfusion
  | relinkConstructor tag =>
    rw [error_of_relinkConstructor hm (answer_map_eq_error h)]
    exact Fault.noConfusion
  | replacePrototypeSlots tag slots =>
    exact hfull (error_of_replacePrototypeSlots hm (answer_map_eq_error h))
  | replacePrototype tag methods =>
    have h := answer_map_eq_error h
    rw [run_replacePrototype] at h
    exact hfull (error_of_replacePrototypeSlots (hm.countMethods _) h)

/-! ## Integrity -/

/-- **Integrity of the record table**, after any history, refused calls included. The table is
within its limits. Every record carries the handle of its place. The current record of a tag is a
record of the table made for that tag, so no two tags have the same one. Records are never removed
or moved. A handle that was given out is honoured in every later state, with the same identity and
the same tag, and is never given out for another record. A call that is given no handle never fails
over one. -/
theorem record_table_integrity (nonce : UInt32) (limits : Limits) (history : List (Operation β)) :
    let m := (Model.new nonce limits).after history
    (m.recordCount ≤ limits.maxRecords ∧ m.recordCount ≤ UInt32.size - 1) ∧
    (∀ (j : Nat) (r : Record β), m.records[j]? = some r →
      r.id.index.toNat = j ∧ r.id.model = nonce) ∧
    (∀ tag id, m.currentRecord tag = some id → ∃ r, m.record id = .ok r ∧ r.creatorTag = tag) ∧
    (∀ tag tag' id, m.currentRecord tag = some id → m.currentRecord tag' = some id → tag = tag') ∧
    (∀ (later : List (Operation β)) (j : Nat) (r : Record β), m.records[j]? = some r →
      ∃ r', (m.after later).records[j]? = some r' ∧ r'.id = r.id ∧
        r'.creatorTag = r.creatorTag) ∧
    (∀ id m₁, m.GivesOut id m₁ →
      (∃ tag, ∀ later, ∃ r, (m₁.after later).record id = .ok r ∧ r.id = id ∧
        r.creatorTag = tag) ∧
      ∀ later op id', (m₁.after later).GivesOutNew op id' → id' ≠ id) ∧
    (∀ op : Operation β, op.takesHandle = false →
      (op.action.run m).answer ≠ .error .invalidHandle) := by
  intro m
  have hm : m.Sound := sound_after nonce limits history
  have hext : Extends (.new nonce limits) m := extends_after _ history
  refine ⟨⟨?_, hm.placed⟩, ?_, ?_, ?_, fun later => (extends_after m later).kept, ?_, ?_⟩
  · rw [show limits = m.limits from hext.limits_eq.symm]
    exact hm.limited
  · rw [show nonce = m.nonce from hext.nonce_eq.symm]
    exact hm.handles
  · intro tag id hcur
    obtain ⟨r, hr, htag⟩ := hm.bound tag id hcur
    exact ⟨r, record_eq_ok_iff.2 hr, htag⟩
  · intro tag tag' id hcur hcur'
    obtain ⟨r, hr, htag⟩ := hm.bound tag id hcur
    obtain ⟨r', hr', htag'⟩ := hm.bound tag' id hcur'
    obtain rfl : r = r' := by simpa [hr] using hr'
    exact htag.symm.trans htag'
  · intro id m₁ hgives
    have hm₁ := hgives.sound hm
    obtain ⟨r, hr⟩ := hgives.record? hm
    refine ⟨⟨r.creatorTag, fun later => record_after hm₁ hr later⟩, ?_⟩
    -- the old handle is still honoured, and that of a new record is not yet
    intro later op id' hnew e
    obtain ⟨r', hr', -⟩ := (extends_after m₁ later).record? hr
    have hnone := hnew.record? (hm₁.after later)
    rw [e, hr'] at hnone
    cases hnone
  · intro op hop h
    exact error_ne_invalidHandle hm hop h rfl

end Model

end Delegation
