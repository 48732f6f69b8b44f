import Delegation.Proofs.MirroredCalls
import Delegation.Proofs.MirroredRoutines
import Delegation.Proofs.RecordHistory

/-!
# Limits

Two models with different limits are used side by side. What an operation needs a record for is known
beforehand (`Operation.NeedsRecord`): only these operations are refused for want of room
(`needsRecord_of_full`), and with room they store one (`answered_of_needsRecord`). So where a call
on the first model is refused for want of room, the second model, which has room, answers and stores a
record (`Mirror.Parts`), and all other calls come out alike.

The rest is an induction on the past (`after_world`): for as long as the first model has refused nothing
for want of room, the second world is the mirror image of the first.
-/

namespace Delegation

variable {β : Type}

/-! ## Operations that need a record -/

/-- The operation is to store a record, if it gets that far. -/
def Operation.NeedsRecord (m : Model β) : Operation β → Prop
  | .createRecord _ | .replacePrototype .. | .replacePrototypeSlots .. => True
  | .replaceSlots rid _ => ∃ r, m.record? rid = some r
  | .setSlot .. | .mutateSharedSlot .. | .relinkConstructor _ | .allocate .. => False
  | op => ∃ b, op.blueprint? = some b ∧ b.strategy.delegates = true ∧ m.currentRecord b.tag = none

namespace Model

variable {m : Model β}

theorem record_eq_error {rid : RecordId} {f : Fault} (h : m.record rid = .error f) :
    f = .invalidHandle := by
  unfold record at h
  split at h
  · cases h
  · exact (Except.error.inj h).symm

/-- **Refusals for want of room.** Only an operation that needs a record is refused for want of room, and
there is none. -/
theorem needsRecord_of_full (hm : m.Sound) {op : Operation β} {limit : Nat}
    (h : (op.action.run m).answer = .error (.recordLimitExceeded limit)) :
    op.NeedsRecord m ∧ m.nextRecordId = .error (.recordLimitExceeded limit) := by
  cases op with
  | allocate name body => cases h
  | createRecord tag => exact ⟨trivial, error_of_createRecord (answer_map_eq_error h)⟩
  | setSlot rid name value =>
    have h := answer_map_eq_error h
    rw [run_setSlot] at h
    cases hr : m.record rid with
    | error f =>
      rw [hr, record_eq_error hr] at h
      cases h
    | ok r =>
      rw [hr] at h
      cases h
  | mutateSharedSlot tag name value =>
    cases error_of_mutateSharedSlot hm (answer_map_eq_error h)
  | relinkConstructor tag => cases error_of_relinkConstructor hm (answer_map_eq_error h)
  | replaceSlots old slots =>
    have h := answer_map_eq_error h
    rw [run_replaceSlots] at h
    cases hr : m.record old with
    | error f =>
      rw [hr, record_eq_error hr] at h
      cases h
    | ok r =>
      refine ⟨⟨r, record_eq_ok_iff.1 hr⟩, ?_⟩
      -- the handle is looked up first, so a refusal for want of room has found its record
      cases hid : m.nextRecordId with
      | error f => simpa [hr, hid] using h
      | ok new => simp [hr, hid, run_storeReplacement] at h
  | replacePrototypeSlots tag slots =>
    exact ⟨trivial, error_of_replacePrototypeSlots hm (answer_map_eq_error h)⟩
  | replacePrototype tag methods =>
    have h := answer_map_eq_error h
    rw [run_replacePrototype] at h
    exact ⟨trivial, error_of_replacePrototypeSlots (hm.countMethods methods.size) h⟩
  | construct strategy fields methods tag =>
    have h : ((build { strategy, fields, methods, tag }).run m).answer = _ := answer_map_eq_error h
    obtain ⟨hs, hcur, hid⟩ := error_of_build hm h
    exact ⟨⟨_, rfl, hs, hcur⟩, hid⟩
  | constructNamed name fields methods tag =>
    have h := answer_map_eq_error h
    rw [run_constructNamed] at h
    cases hname : Strategy.ofName? name with
    | none =>
      simp only [Strategy.ofName, hname] at h
      cases h
    | some strategy =>
      simp only [Strategy.ofName, hname] at h
      obtain ⟨hs, hcur, hid⟩ := error_of_build hm h
      exact ⟨⟨_, by simp [Operation.blueprint?, hname], hs, hcur⟩, hid⟩

theorem recordCount_of_stores {m' : Model β} {rid : RecordId} (h : Stores m rid m') :
    m'.recordCount = m.recordCount + 1 := by
  obtain ⟨-, r, bind, n, -, rfl⟩ := h
  exact Array.size_push _

/-- An instance that needs a record is built, and its record is stored. -/
theorem built_of_unbound {b : Blueprint β} (hs : b.strategy.delegates = true)
    (hcur : m.currentRecord b.tag = none) {rid : RecordId} (hid : m.nextRecordId = .ok rid) :
    (∃ i, ((build b).run m).answer = .ok i) ∧
      ((build b).run m).model.recordCount = m.recordCount + 1 := by
  have hbuilt := built b m
  generalize ((build b).run m).answer = answer, ((build b).run m).model = m' at hbuilt ⊢
  cases hbuilt with
  | copying hs' => simp [hs] at hs'
  | found _ _ hcur' | populated _ _ _ hcur' | dangling _ _ _ hcur' => simp [hcur] at hcur'
  | full _ _ _ hid' => simp [hid] at hid'
  | made => exact ⟨⟨_, rfl⟩, Array.size_push _⟩

/-- **Room.** With room, an operation that needs a record is answered, and stores it. -/
theorem answered_of_needsRecord (hm : m.Sound) {op : Operation β} (h : op.NeedsRecord m)
    (hroom : m.hasRoom = true) :
    (∃ p, (op.action.run m).answer = .ok p) ∧ (m.afterOne op).recordCount = m.recordCount + 1 := by
  obtain ⟨new, hid⟩ : ∃ new, m.nextRecordId = .ok new := ⟨_, if_pos hroom⟩
  have hrecord : (∃ rid, (op.action.run m).answer = .ok (.record rid)) →
      (∃ p, (op.action.run m).answer = .ok p) ∧
        (m.afterOne op).recordCount = m.recordCount + 1 := by
    rintro ⟨rid, hans⟩
    exact ⟨⟨_, hans⟩, recordCount_of_stores (stores_of_answer hm hans)⟩
  have hbuild : (∃ b, op.blueprint? = some b ∧ b.strategy.delegates = true ∧
      m.currentRecord b.tag = none) → (∃ p, (op.action.run m).answer = .ok p) ∧
        (m.afterOne op).recordCount = m.recordCount + 1 := by
    rintro ⟨b, hb, hs, hcur⟩
    obtain ⟨⟨i, hans⟩, hcount⟩ := built_of_unbound hs hcur hid
    rw [afterOne, run_of_blueprint hb]
    exact ⟨⟨.object i, by rw [Outcome.map, hans]; rfl⟩, hcount⟩
  cases op with
  | setSlot | mutateSharedSlot | relinkConstructor | allocate => cases h
  | construct | constructNamed => exact hbuild h
  | createRecord tag =>
    refine hrecord ⟨new, ?_⟩
    show ((Product.record <$> createRecord tag).run m).answer = _
    rw [Action.run_map, run_createRecord, hid]
    rfl
  | replaceSlots old slots =>
    obtain ⟨r, hr⟩ := h
    refine hrecord ⟨new, ?_⟩
    show ((Product.record <$> replaceSlots old slots).run m).answer = _
    rw [Action.run_map, run_replaceSlots, record_eq_ok_iff.2 hr, hid]
    rfl
  | replacePrototypeSlots tag slots =>
    refine hrecord ⟨new, ?_⟩
    show ((Product.record <$> replacePrototypeSlots tag slots).run m).answer = _
    rw [Action.run_map, run_replacePrototypeSlots_of_sound hm, hid]
    rfl
  | replacePrototype tag methods =>
    refine hrecord ⟨new, ?_⟩
    show ((Product.record <$> replacePrototype tag methods).run m).answer = _
    rw [Action.run_map, run_replacePrototype,
      run_replacePrototypeSlots_of_sound (hm.countMethods methods.size), nextRecordId_countMethods,
      hid]
    rfl

end Model

/-! ## Two worlds side by side -/

namespace Mirror

variable (σ : Mirror β)

theorem needsRecord_operation {m : Model β} {op : Operation β} (h : op.NeedsRecord m) :
    (σ.operation op).NeedsRecord (σ.model m) := by
  cases op with
  | setSlot | mutateSharedSlot | relinkConstructor | allocate => cases h
  | createRecord | replacePrototype | replacePrototypeSlots => trivial
  | replaceSlots rid slots =>
    obtain ⟨r, hr⟩ := h
    exact ⟨σ.record r, by rw [record?_model, hr, Option.map_some]⟩
  | construct strategy fields methods tag =>
    obtain ⟨b, hb, hs, hcur⟩ := h
    cases hb
    exact ⟨_, rfl, hs, by rw [currentRecord_model, hcur, Option.map_none]⟩
  | constructNamed name fields methods tag =>
    obtain ⟨b, hb, hs, hcur⟩ := h
    obtain ⟨strategy, hname, rfl⟩ := Option.map_eq_some_iff.1 hb
    exact ⟨_, Option.map_eq_some_iff.2 ⟨strategy, hname, rfl⟩, hs,
      by rw [currentRecord_model, hcur, Option.map_none]⟩

theorem sound_model {m : Model β} (hm : m.Sound) : (σ.model m).Sound := by
  refine ⟨?_, ?_, ?_, ?_⟩
  · have hlimited := hm.limited
    simp only [model, limits, Array.size_map]
    omega
  · simpa only [model, Array.size_map] using hm.placed
  · intro j r' hr'
    have hr' : (m.records.map σ.record)[j]? = some r' := hr'
    rw [Array.getElem?_map] at hr'
    obtain ⟨r, hr, rfl⟩ := Option.map_eq_some_iff.1 hr'
    obtain ⟨hindex, hmodel⟩ := hm.handles j r hr
    exact ⟨by rw [id_record, index_recordId, hindex], by rw [id_record, model_recordId, hmodel]; rfl⟩
  · intro tag rid hcur
    rw [currentRecord_model] at hcur
    obtain ⟨rid, hbound, rfl⟩ := Option.map_eq_some_iff.1 hcur
    obtain ⟨r, hr, htag⟩ := hm.bound tag rid hbound
    exact ⟨σ.record r, by rw [record?_model, hr, Option.map_some], htag⟩

theorem world_new (nonce : UInt32) (limit : Nat) :
    σ.world (.new nonce ⟨limit⟩) = .new (σ.models nonce) ⟨limit + σ.more⟩ := by
  simp only [world, World.new, model, Model.new, limits, Array.map_empty]
  rfl

theorem object_setPrototype (prototype : Option RecordId) (i : Instance β) :
    σ.object (i.setPrototype prototype) = (σ.object i).setPrototype (prototype.map σ.recordId) := rfl

theorem object_setOwn (name : String) (v : Value (Method β)) (i : Instance β) :
    σ.object (i.setOwn name v) = (σ.object i).setOwn name (σ.value v) := by
  have hown : σ.properties (i.own.insert name v) = (σ.properties i.own).insert name (σ.value v) :=
    NameMap.map_insert ..
  rw [object, Instance.setOwn, hown]
  rfl

theorem object_deleteOwn (name : String) (i : Instance β) :
    σ.object (i.deleteOwn name) = (σ.object i).deleteOwn name := by
  have hown : σ.properties (i.own.erase name) = (σ.properties i.own).erase name :=
    NameMap.map_erase ..
  rw [object, Instance.deleteOwn, hown]
  rfl

theorem receive_map (objects : Array (Instance β)) (answer : Except Fault (Product β)) :
    World.receive (objects.map σ.object) (answer.map σ.product) =
      (World.receive objects answer).map σ.object := by
  cases answer with
  | error f => rfl
  | ok p =>
    cases p with
    | object i => exact (Array.map_push ..).symm
    | _ => rfl

/-- An act on the mirrored world leads to the mirrored world, if it is done alike. -/
theorem step_world {w : World β} {a : Act β}
    (h : ∀ op, a = .operate op → (σ.operation op).action.run (σ.model w.model) =
      σ.outcome σ.product (op.action.run w.model)) :
    (σ.world w).step (σ.act a) = σ.world (w.step a) := by
  cases a with
  | operate op =>
    have hrun := h op rfl
    have hmodel : (σ.model w.model).afterOne (σ.operation op) = σ.model (w.model.afterOne op) := by
      rw [Model.afterOne, hrun]
      rfl
    have hobjects : World.receive (w.objects.map σ.object)
        ((σ.operation op).action.run (σ.model w.model)).answer =
        (World.receive w.objects (op.action.run w.model).answer).map σ.object := by
      rw [hrun]
      exact receive_map σ w.objects _
    simp only [World.step, act, world, hmodel, hobjects]
  | setPrototype i prototype =>
    simp only [World.step, act, world]
    exact congrArg (World.mk _) (modify_map (σ.object_setPrototype prototype) w.objects i)
  | setOwn i name v =>
    simp only [World.step, act, world]
    exact congrArg (World.mk _) (modify_map (σ.object_setOwn name v) w.objects i)
  | deleteOwn i name =>
    simp only [World.step, act, world]
    exact congrArg (World.mk _) (modify_map (σ.object_deleteOwn name) w.objects i)
  | clone i =>
    simp only [World.step, act, world, Array.getElem?_map]
    cases w.objects[i]? with
    | none => rfl
    | some o => simp only [Option.map_some, Array.map_push]

/-! ### Where the two part -/

/-- An operation is refused here for want of room, and is answered on the other side, where it stores
its record. -/
structure Parts (m : Model β) (op : Operation β) : Prop where
  full : m.recordCount = m.limits.maxRecords
  refused : (op.action.run m).answer = .error (.recordLimitExceeded m.limits.maxRecords)
  answered : ∃ p, ((σ.operation op).action.run (σ.model m)).answer = .ok p
  stored : ((σ.model m).afterOne (σ.operation op)).recordCount = m.recordCount + 1

/-- Below the number of places, only the limit can be in the way, and on the other side it is higher. -/
theorem parts_of_full {m : Model β} (hm : m.Sound) (hplaces : m.limits.maxRecords < placeLimit)
    (hmore : 0 < σ.more) {op : Operation β} (h : (op.action.run m).Full) : σ.Parts m op := by
  obtain ⟨limit, hans⟩ := h
  obtain ⟨hneeds, hid⟩ := Model.needsRecord_of_full hm hans
  obtain ⟨hfull, hlimit⟩ := Model.nextRecordId_eq_error hid
  cases hlimit
  -- the places do not run out before the limit, so it is the limit that has been reached
  have hcount : m.records.size = m.limits.maxRecords := by
    have hlimited := hm.limited
    simp only [Model.hasRoom, Bool.and_eq_false_iff, decide_eq_false_iff_not] at hfull
    omega
  have hroom : (σ.model m).hasRoom = true := by
    simp only [Model.hasRoom, model, limits, Array.size_map, Bool.and_eq_true, decide_eq_true_eq]
    omega
  obtain ⟨hok, hstored⟩ :=
    Model.answered_of_needsRecord (σ.sound_model hm) (σ.needsRecord_operation hneeds) hroom
  rw [recordCount_model] at hstored
  exact ⟨hcount, hans, hok, hstored⟩

theorem alike_or_parts {m : Model β} (hm : m.Sound) (hplaces : m.limits.maxRecords < placeLimit)
    (hmore : 0 < σ.more) (op : Operation β) :
    (σ.operation op).action.run (σ.model m) = σ.outcome σ.product (op.action.run m) ∨ σ.Parts m op :=
  (follows_operation op m).imp_right (σ.parts_of_full hm hplaces hmore)

/-- An operation that needs no record does not notice the limit. -/
theorem alike_of_not_needsRecord {m : Model β} (hm : m.Sound) {op : Operation β}
    (h : ¬ op.NeedsRecord m) :
    (σ.operation op).action.run (σ.model m) = σ.outcome σ.product (op.action.run m) := by
  rcases follows_operation op m with halike | ⟨limit, hfull⟩
  · exact halike
  · exact absurd (Model.needsRecord_of_full hm hfull).1 h

/-! ### Runs -/

/-- All operations of a past were answered alike in two worlds. -/
def AnsweredAlike (w w' : World β) : List (Act β) → Prop
  | [] => True
  | a :: past => AnsweredAlike w w' past ∧ ∀ op, a = .operate op →
    ((σ.operation op).action.run (w'.after (past.map σ.act)).model).answer =
      (op.action.run (w.after past).model).answer.map σ.product

/-- Some operation of the past was refused for want of room. -/
def RanFull (w : World β) (past : List (Act β)) : Prop :=
  w.Happened past fun m op => (op.action.run m).Full

theorem ranFull_cons_operate {w : World β} {op : Operation β} {past : List (Act β)} :
    RanFull w (.operate op :: past) ↔
      (op.action.run (w.after past).model).Full ∨ RanFull w past := World.happened_cons_operate

theorem ranFull_cons_of_not_operate {w : World β} {a : Act β} (ha : ¬ ∃ op, a = .operate op)
    {past : List (Act β)} : RanFull w (a :: past) ↔ RanFull w past :=
  World.happened_cons_of_not_operate ha

theorem not_ranFull_nil (w : World β) : ¬ RanFull w [] := by
  rintro ⟨later, op, earlier, hpast, -⟩
  simp at hpast

theorem after_world {w : World β} {past : List (Act β)} (h : ¬ RanFull w past) :
    (σ.world w).after (past.map σ.act) = σ.world (w.after past) := by
  induction past with
  | nil => rfl
  | cons a past ih =>
    have hpast : ¬ RanFull w past := fun hfull => h (hfull.later [a])
    rw [List.map_cons, World.after_cons, ih hpast, World.after_cons]
    refine σ.step_world fun op ha => ?_
    subst ha
    have hnow : ¬ (op.action.run (w.after past).model).Full := fun hfull =>
      h (ranFull_cons_operate.2 (.inl hfull))
    exact (follows_operation op _).resolve_right hnow

/-- **Answers.** All answers have been alike for as long as none was a refusal for want of room. -/
theorem answeredAlike_iff {w : World β} (hw : w.model.Sound)
    (hplaces : w.model.limits.maxRecords < placeLimit) (hmore : 0 < σ.more) (past : List (Act β)) :
    σ.AnsweredAlike w (σ.world w) past ↔ ¬ RanFull w past := by
  induction past with
  | nil => exact iff_of_true trivial (not_ranFull_nil w)
  | cons a past ih =>
    rw [AnsweredAlike, ih]
    by_cases ha : ∃ op, a = .operate op
    · obtain ⟨op, rfl⟩ := ha
      rw [ranFull_cons_operate, not_or]
      constructor
      · rintro ⟨hpast, halike⟩
        refine ⟨fun hfull => ?_, hpast⟩
        have hplaces' : (w.after past).model.limits.maxRecords < placeLimit := by
          rwa [(World.extends_after w past).limits_eq]
        have hparts := σ.parts_of_full (World.sound_after hw past) hplaces' hmore hfull
        -- an answer on the other side is not the image of a refusal
        obtain ⟨p, hp⟩ := hparts.answered
        have hans := halike op rfl
        rw [σ.after_world hpast] at hans
        have himpossible := hp.symm.trans hans
        rw [hparts.refused] at himpossible
        cases himpossible
      · rintro ⟨hnow, hpast⟩
        refine ⟨hpast, ?_⟩
        rintro op' ⟨⟩
        rw [σ.after_world hpast]
        exact congrArg Outcome.answer ((follows_operation op _).resolve_right hnow)
    · have hnot : ∀ op, a ≠ .operate op := fun op e => ha ⟨op, e⟩
      rw [ranFull_cons_of_not_operate ha]
      exact and_iff_left fun op e => absurd e (hnot op)

/-- **Limits show in refusals alone.** Two models with different limits, the lower one below the number of
places, are used in the same way. For as long as no call on the first model has been refused for want of
room, all calls have been answered alike, both worlds are the same up to the number of the model and
the limit, and so is what they say about themselves. The first call to be answered differently finds
the first model at its limit, which it is refused for, while the second model stores one record. And
whatever has happened so far, a call that needs no record comes out as it would in the second
model in the same state: that is a construction that copies or finds a record for its tag, a write, or
a relinking. -/
theorem limits_show_in_refusals_alone [Code β] (hσ : σ.Faithful) (hmore : 0 < σ.more)
    (nonce : UInt32) {limit : Nat} (hlimit : limit < placeLimit) (past : List (Act β)) :
    let first : World β := .new nonce ⟨limit⟩
    let second : World β := .new (σ.models nonce) ⟨limit + σ.more⟩
    let m := (first.after past).model
    let m' := (second.after (past.map σ.act)).model
    (σ.AnsweredAlike first second past ↔ ¬ RanFull first past) ∧
    (¬ RanFull first past →
      second.after (past.map σ.act) = σ.world (first.after past) ∧ σ.Agrees m m' ∧
      ∀ op,
        (σ.operation op).action.run m' = σ.outcome σ.product (op.action.run m) ∨
        m.recordCount = limit ∧ (op.action.run m).answer = .error (.recordLimitExceeded limit) ∧
          (∃ p, ((σ.operation op).action.run m').answer = .ok p) ∧
          (m'.afterOne (σ.operation op)).recordCount = m'.recordCount + 1) ∧
    (∀ op, ¬ op.NeedsRecord m →
      (σ.operation op).action.run (σ.model m) = σ.outcome σ.product (op.action.run m)) := by
  intro first second m m'
  have hsound : m.Sound := World.sound_after (Model.sound_new nonce ⟨limit⟩) past
  have hlimits : m.limits.maxRecords = limit := by
    rw [(World.extends_after first past).limits_eq]
    rfl
  have hsecond : second = σ.world first := (σ.world_new nonce limit).symm
  refine ⟨?_, ?_, fun op h => σ.alike_of_not_needsRecord hsound h⟩
  · rw [hsecond]
    exact σ.answeredAlike_iff (Model.sound_new nonce ⟨limit⟩) hlimit hmore past
  · intro hnot
    have hworld : second.after (past.map σ.act) = σ.world (first.after past) := by
      rw [hsecond]
      exact σ.after_world hnot
    have hm' : m' = σ.model m := congrArg World.model hworld
    refine ⟨hworld, ?_, fun op => ?_⟩
    · rw [hm']
      exact σ.agrees_model m hσ
    · rw [hm', recordCount_model]
      refine (σ.alike_or_parts hsound (hlimits ▸ hlimit) hmore op).imp_right fun h => ?_
      exact ⟨h.full.trans hlimits, hlimits ▸ h.refused, h.answered, h.stored⟩

/-- The model numbered 1 beside the one numbered 0, with room for one more record. -/
def neighbour : Mirror Closure := routines (Equiv.swap 0 1) 1

/-- The first instance of a tag, with a name and a method that reads it. -/
def oneInstance : List (Act Closure) := [
  .operate (.construct .constructorWithPrototype (.ofList [("name", .string "n")])
    (.ofList [("f", .mk (.get "name"))]) "T")]

/-- Both models call the method alike. Then the first one is full and refuses a second record, which the
other one stores, and a slot of the first record can still be written. -/
theorem limits_show_in_refusals_alone_neighbour :
    let σ := neighbour
    let m := ((World.new 0 ⟨1⟩).after oneInstance).model
    let m' := ((World.new 1 ⟨2⟩).after (oneInstance.map σ.act)).model
    (∀ i, m'.callMethod (σ.object i) "f" [] = (m.callMethod i "f" []).map σ.value) ∧
    ((Operation.createRecord "U").action.run m).answer = .error (.recordLimitExceeded 1) ∧
    (m'.afterOne (.createRecord "U")).recordCount = m'.recordCount + 1 ∧
    ∀ value, ((Operation.setSlot (.ofParts 0 1) "g" (σ.value value)).action.run (σ.model m)) =
      σ.outcome σ.product ((Operation.setSlot (.ofParts 0 0) "g" value).action.run m) := by
  intro σ m m'
  have hσ : σ.Faithful := faithful_routines (Equiv.swap 0 1) 1
  obtain ⟨-, hsame, hwrites⟩ := σ.limits_show_in_refusals_alone hσ (show 0 < 1 by decide) 0
    (show 1 < placeLimit by decide) oneInstance
  have hnot : ¬ RanFull (World.new 0 ⟨1⟩) oneInstance := by
    intro hfull
    rcases ranFull_cons_operate.1 hfull with ⟨limit, hnow⟩ | hbefore
    · cases hnow
    · exact not_ranFull_nil _ hbefore
  obtain ⟨hworld, hagrees, hops⟩ := hsame hnot
  have hrefused : ((Operation.createRecord "U").action.run m).answer =
      .error (.recordLimitExceeded 1) := rfl
  refine ⟨fun i => hagrees.callMethod i "f" [], hrefused, ?_, fun value => ?_⟩
  · rcases hops (.createRecord "U") with halike | ⟨-, -, -, hstored⟩
    · -- the second model has room, so it does not refuse
      have hroom : m'.hasRoom = true := by
        have hm' : m' = σ.model m := congrArg World.model hworld
        rw [hm', Model.hasRoom, model, Array.size_map]
        rfl
      have hneeds : (Operation.createRecord "U").NeedsRecord m' := trivial
      obtain ⟨⟨p, hp⟩, -⟩ := Model.answered_of_needsRecord
        (World.sound_after (Model.sound_new 1 ⟨2⟩) _) hneeds hroom
      have himpossible := hp.symm.trans (congrArg Outcome.answer halike)
      cases himpossible
    · exact hstored
  · exact hwrites (.setSlot (.ofParts 0 0) "g" value) id

end Mirror

end Delegation
