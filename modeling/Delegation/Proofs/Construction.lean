import Delegation.Proofs.ConstructionLoop

/-!
# The contract of construction

What a construction may rely on and what it leaves behind, for every strategy and every state that
calls lead to. It is refused in one situation only: the strategy delegates, the tag has no record
yet, and the table has no room for one. A refusal leaves no trace.

A construction that is answered either builds an instance apart, with copies of the methods
(`BuildsApart`), or one that delegates to the record of its tag (`BuildsOnto`). That record is the
tag's current one or a new one (`Prototype`), and the methods are written into it exactly if nothing
has been written there before that the strategy would respect (`FillsRecord`). The two structures
determine the answer and the state completely; `constructs_unless_full` says that one of them holds.
-/

namespace Delegation.Model

variable {β : Type} {m : Model β} {b : Blueprint β}

/-! ## What is left behind -/

/-- The outcome of building an instance apart from all records. The fields stand under fresh copies of
the methods, and nothing has changed but the count of methods. -/
structure BuildsApart (m : Model β) (b : Blueprint β) (o : Outcome β (Instance β)) : Prop where
  answer : ∃ own, o.answer = .ok { own, prototype := none } ∧
    ∀ name, own.get? name = (m.freshMethod b.methods name).or (b.fields.get? name)
  model : o.model = m.countMethods b.methods.size

/-- The record that a new instance of a tag delegates to, before any method is written into it. -/
inductive Prototype (m : Model β) (tag : String) : RecordId → Record β → Prop where
  /-- The tag's current record. -/
  | old (id : RecordId) (r : Record β) (hcur : m.currentRecord tag = some id)
      (hr : m.record id = .ok r) : Prototype m tag id r
  /-- A record without slots at the next place, linked to the tag. -/
  | new (id : RecordId) (hcur : m.currentRecord tag = none)
      (hindex : id.index.toNat = m.recordCount) (hmodel : id.model = m.nonce) :
      Prototype m tag id
        { id, creatorTag := tag, slots := ∅, backLink := some tag, slotWrites := 0 }

/-- Whether the methods go into the record: it was made just now, or it has no slots and the strategy
is to fill such records. -/
def FillsRecord (m : Model β) (b : Blueprint β) (r : Record β) : Prop :=
  m.currentRecord b.tag = none ∨ b.strategy = .dynamicPrototype ∧ r.slots = ∅

/-- The outcome of building an instance that delegates to the record under a handle; `r` is that
record before any method is written into it. -/
structure BuildsOnto (m : Model β) (b : Blueprint β) (id : RecordId) (r : Record β)
    (o : Outcome β (Instance β)) : Prop where
  answer : o.answer = .ok { own := b.fields, prototype := some id }
  bound : o.model.currentRecord b.tag = some id
  bindings : ∀ tag, tag ≠ b.tag → o.model.currentRecord tag = m.currentRecord tag
  others : ∀ id', id' ≠ id → o.model.record id' = m.record id'
  count : o.model.recordCount = m.recordCount + if m.currentRecord b.tag = none then 1 else 0
  owner : o.model.nonce = m.nonce ∧ o.model.limits = m.limits
  filled : m.FillsRecord b r →
    (∃ slots, o.model.record id =
        .ok { r with slots, slotWrites := r.slotWrites + b.methods.size } ∧
      ∀ name, slots.get? name = m.freshMethod b.methods name) ∧
    o.model.methodCount = m.methodCount + b.methods.size
  spared : ¬ m.FillsRecord b r → o.model = m

/-! ## Building apart -/

theorem buildsApart (hs : b.strategy.delegates = false) : m.BuildsApart b ((build b).run m) := by
  rw [run_build_of_copies hs]
  refine ⟨⟨m.ownAtBirth b, rfl, fun name => ?_⟩, rfl⟩
  rw [ownAtBirth, hs, if_neg Bool.false_ne_true, get?_insertAll_nextMethods,
    methodOf_eq_freshMethod]

/-! ## Building onto a record -/

theorem record_congr {m m' : Model β} {id : RecordId} (h : m'.record? id = m.record? id) :
    m'.record id = m.record id := by
  rw [record, h, record]

/-- The tag has no record, and there is room for one. -/
theorem buildsOnto_of_unbound {id : RecordId} (hs : b.strategy.delegates = true)
    (hcur : m.currentRecord b.tag = none) (hid : m.nextRecordId = .ok id) :
    ∃ r, m.Prototype b.tag id r ∧ m.BuildsOnto b id r ((build b).run m) := by
  obtain ⟨hanswer, hmodel⟩ := build_of_unbound hs hcur hid
  obtain ⟨hnonce, hindex⟩ := nextRecordId_eq_ok hid
  generalize ((build b).run m) = o at hanswer hmodel
  refine ⟨_, .new id hcur hindex hnonce, ?_⟩
  -- the record as it is stored, with its methods
  obtain ⟨stored, hstored⟩ : ∃ stored : Record β, stored =
      { id, creatorTag := b.tag, slots := b.methods.numbered m.nonce m.methodCount,
        backLink := some b.tag, slotWrites := b.methods.size } := ⟨_, rfl⟩
  rw [← hstored] at hmodel
  have hsame : stored.id = id := by rw [hstored]
  have htag : stored.creatorTag = b.tag := by rw [hstored]
  have hpush : m.nextRecordId = .ok stored.id := by rw [hsame, hid]
  constructor
  case answer => exact hanswer
  case bound =>
    rw [hmodel]
    show (m.push stored true).currentRecord b.tag = some id
    rw [currentRecord_push, if_pos ⟨rfl, htag.symm⟩, hsame]
  case bindings =>
    intro tag hne
    rw [hmodel]
    show (m.push stored true).currentRecord tag = m.currentRecord tag
    rw [currentRecord_push, if_neg fun h => hne (h.2.trans htag)]
  case others =>
    intro id' hne
    apply record_congr
    rw [hmodel, record?_countMethods, record?_push hpush, if_neg fun e => hne (e.trans hsame)]
  case count =>
    rw [hmodel, if_pos hcur]
    exact Array.size_push stored
  case owner => rw [hmodel]; exact ⟨rfl, rfl⟩
  case filled =>
    intro _
    refine ⟨⟨b.methods.numbered m.nonce m.methodCount, ?_, ?_⟩, by rw [hmodel]; rfl⟩
    · rw [record_eq_ok_iff, hmodel, record?_countMethods, record?_push hpush, if_pos hsame.symm,
        hstored, Nat.zero_add]
    · exact m.get?_numbered_eq_freshMethod b.methods
  case spared => exact fun hnot => absurd (.inl hcur) hnot

/-- The tag's record has no slots, and the strategy is to fill it. -/
theorem buildsOnto_of_empty {id : RecordId} {r : Record β} (hs : b.strategy = .dynamicPrototype)
    (hcur : m.currentRecord b.tag = some id) (hr : m.record? id = some r) (hempty : r.slots = ∅) :
    m.BuildsOnto b id r ((build b).run m) := by
  obtain ⟨hanswer, hmodel⟩ := build_of_empty hs hcur hr (Record.isPopulated_eq_false_iff.2 hempty)
  generalize ((build b).run m) = o at hanswer hmodel
  constructor
  case answer => exact hanswer
  case bound => rw [hmodel]; exact (currentRecord_modifyRecord ..).trans hcur
  case bindings => intro tag _; rw [hmodel]; exact currentRecord_modifyRecord ..
  case others =>
    intro id' hne
    apply record_congr
    rw [hmodel, record?_countMethods, record?_modifyRecord, if_neg hne]
  case count =>
    rw [hmodel, hcur]
    exact size_records_modifyRecord ..
  case owner => rw [hmodel]; exact ⟨nonce_modifyRecord .., limits_modifyRecord ..⟩
  case filled =>
    intro _
    refine ⟨⟨b.methods.numbered m.nonce m.methodCount, ?_, ?_⟩, ?_⟩
    · rw [record_eq_ok_iff, hmodel, record?_countMethods, record?_modifyRecord, if_pos rfl, hr,
        Option.map_some, Record.setSlots_nextMethods hempty]
    · exact m.get?_numbered_eq_freshMethod b.methods
    · rw [hmodel]
      exact congrArg (· + b.methods.size) (methodCount_modifyRecord ..)
  case spared => exact fun hnot => absurd (.inr ⟨hs, hempty⟩) hnot

/-- The tag's record is left as it is. -/
theorem buildsOnto_of_spared {id : RecordId} {r : Record β} (hs : b.strategy.delegates = true)
    (hcur : m.currentRecord b.tag = some id) (hr : m.record? id = some r)
    (hnot : ¬ m.FillsRecord b r) : m.BuildsOnto b id r ((build b).run m) := by
  have hsettled : b.strategy = .dynamicPrototype → r.isPopulated = false → b.methods = ∅ :=
    fun hdyn hp => absurd (.inr ⟨hdyn, Record.slots_of_not_populated hp⟩) hnot
  obtain ⟨hanswer, hmodel⟩ := build_of_settled hs hcur hr hsettled
  constructor
  case answer => exact hanswer
  case bound => rw [hmodel, hcur]
  case bindings => intro tag _; rw [hmodel]
  case others => intro id' _; rw [hmodel]
  case count => rw [hmodel, hcur]; rfl
  case owner => rw [hmodel]; exact ⟨rfl, rfl⟩
  case filled => exact fun hfills => absurd hfills hnot
  case spared => exact fun _ => hmodel

/-- A construction that delegates finds the tag's record, or makes one if there is room. -/
theorem buildsOnto (hm : m.Sound) (hs : b.strategy.delegates = true)
    (h : ¬ (m.currentRecord b.tag = none ∧ m.IsFull)) :
    ∃ id r, m.Prototype b.tag id r ∧ m.BuildsOnto b id r ((build b).run m) := by
  cases hcur : m.currentRecord b.tag with
  | none =>
    obtain ⟨id, hid⟩ := exists_nextRecordId hm fun hfull => h ⟨hcur, hfull⟩
    exact ⟨id, buildsOnto_of_unbound hs hcur hid⟩
  | some id =>
    obtain ⟨r, hr, -⟩ := hm.bound b.tag id hcur
    refine ⟨id, r, .old id r hcur (record_eq_ok_iff.2 hr), ?_⟩
    by_cases hfills : b.strategy = .dynamicPrototype ∧ r.slots = ∅
    · exact buildsOnto_of_empty hfills.1 hcur hr hfills.2
    · refine buildsOnto_of_spared hs hcur hr ?_
      rintro (hnone | hfill)
      · simp [hcur] at hnone
      · exact hfills hfill

/-! ## Refusals -/

theorem build_refused_iff (hm : m.Sound) (f : Fault) :
    ((build b).run m).answer = .error f ↔
      b.strategy.delegates = true ∧ m.currentRecord b.tag = none ∧ m.IsFull ∧
        f = .recordLimitExceeded m.limits.maxRecords := by
  constructor
  · intro h
    obtain ⟨hs, hcur, hid⟩ := error_of_build hm h
    obtain ⟨hfull, hf⟩ := nextRecordId_eq_error hid
    exact ⟨hs, hcur, hm.isFull_iff.2 hfull, hf⟩
  · rintro ⟨hs, hcur, hfull, rfl⟩
    -- of the cases of a construction only a refusal for want of room is left
    have hid := nextRecordId_of_isFull hm hfull
    have hbuilt := built b m
    generalize ((build b).run m).answer = answer, ((build b).run m).model = m' at hbuilt ⊢
    cases hbuilt with
    | copying hs' => simp [hs] at hs'
    | found _ _ hcur' | populated _ _ _ hcur' | dangling _ _ _ hcur' => simp [hcur] at hcur'
    | made _ _ _ hid' => simp [hid] at hid'
    | full f _ _ hid' => rw [hid] at hid'; cases hid'; rfl

/-! ## The contract -/

/-- **Construction.** Whatever the state, the strategy, the fields and the table, a construction is
refused exactly if it needs a record and the table is full; the refusal names the limit and leaves the
model as it was. In every other case it is answered. A strategy that copies builds the instance apart:
the fields under fresh methods, numbered in the order of their names, and no record touched. A strategy
that delegates builds it onto the tag's record, the current one or a new one, and the methods are
written into it exactly if it was made just now, or was found without slots by the strategy that fills
such records. Of the bodies entered under one name the last one counts. -/
theorem constructs_unless_full {m : Model β} (hm : m.Reachable) (strategy : Strategy)
    (fields : PropertyMap β) (inserts : List (String × β)) (tag : String) :
    let methods : MethodTable β := .ofList inserts
    let b : Blueprint β := { strategy, fields, methods, tag }
    let o := (construct strategy fields methods tag).run m
    (∀ name, methods.get? name = inserts.reverse.lookup name) ∧
    ((∃ f, o.answer = .error f) ↔
      strategy.delegates = true ∧ m.currentRecord tag = none ∧ m.IsFull) ∧
    (∀ f, o.answer = .error f → f = .recordLimitExceeded m.limits.maxRecords ∧ o.model = m) ∧
    (strategy.delegates = false → m.BuildsApart b o) ∧
    (strategy.delegates = true → ¬ (m.currentRecord tag = none ∧ m.IsFull) →
      ∃ id r, m.Prototype tag id r ∧ m.BuildsOnto b id r o) := by
  intro methods b o
  have hrefused := build_refused_iff (b := b) hm.sound
  refine ⟨?_, ?_, ?_, buildsApart (b := b), buildsOnto (b := b) hm.sound⟩
  · intro name
    show (NameMap.insertAll ∅ inserts).get? name = _
    rw [NameMap.get?_insertAll, NameMap.get?_empty, Option.or_none]
  · constructor
    · rintro ⟨f, hf⟩
      obtain ⟨hs, hcur, hfull, -⟩ := (hrefused f).1 hf
      exact ⟨hs, hcur, hfull⟩
    · rintro ⟨hs, hcur, hfull⟩
      exact ⟨_, (hrefused _).2 ⟨hs, hcur, hfull, rfl⟩⟩
  · intro f hf
    obtain ⟨-, -, -, hfault⟩ := (hrefused f).1 hf
    exact ⟨hfault, model_of_refused_build (b := b) hf⟩

/-- A model with room for one record, which is there already and has no slots. -/
def lastPlace : Model Nat := (Model.new 0 ⟨1⟩).after [.createRecord "T"]

/-- Another tag gets no record any more. The one that is there is filled with two methods; the body that
was entered first under its name is gone, and the numbers follow the names. -/
theorem constructs_unless_full_lastPlace :
    let table : MethodTable Nat := .ofList [("g", 10), ("f", 20), ("g", 30)]
    let o := (construct .dynamicPrototype ∅ table "T").run lastPlace
    lastPlace.Reachable ∧
    ((construct .constructorWithPrototype ∅ table "U").run lastPlace).answer =
      .error (.recordLimitExceeded 1) ∧
    o.answer = .ok { own := ∅, prototype := some (.ofParts 0 0) } ∧
    ∃ r, o.model.record (.ofParts 0 0) = .ok r ∧ r.slotWrites = 2 ∧
      r.slots.get? "f" = some (.method { id := ⟨0, 0⟩, name := "f", body := 20 }) ∧
      r.slots.get? "g" = some (.method { id := ⟨0, 1⟩, name := "g", body := 30 }) := by
  intro table o
  have hreachable : lastPlace.Reachable := Reachable.after (.new 0 ⟨1⟩) _
  have hfull : lastPlace.IsFull := .inl rfl
  refine ⟨hreachable, ?_, ?_⟩
  · obtain ⟨-, hrefused, hfault, -⟩ := constructs_unless_full hreachable .constructorWithPrototype
      ∅ [("g", 10), ("f", 20), ("g", 30)] "U"
    obtain ⟨f, hf⟩ := hrefused.2 ⟨rfl, rfl, hfull⟩
    rw [hf, (hfault f hf).1]
    rfl
  · obtain ⟨-, -, -, -, honto⟩ := constructs_unless_full hreachable .dynamicPrototype
      ∅ [("g", 10), ("f", 20), ("g", 30)] "T"
    obtain ⟨id, r, hproto, hbuilds⟩ := honto rfl fun h => nomatch h.1
    cases hproto with
    | new hcur => exact nomatch (hcur : some (RecordId.ofParts 0 0) = none)
    | old _ hcur hr =>
      obtain rfl : RecordId.ofParts 0 0 = id := Option.some.inj hcur
      obtain rfl : Record.new (.ofParts 0 0) "T" = r := Except.ok.inj hr
      obtain ⟨⟨slots, hstored, hslots⟩, -⟩ := hbuilds.filled (.inr ⟨rfl, rfl⟩)
      exact ⟨hbuilds.answer, _, hstored, rfl, hslots "f", hslots "g"⟩

end Delegation.Model
