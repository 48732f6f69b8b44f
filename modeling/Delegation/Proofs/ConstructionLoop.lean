import Delegation.CommandLine.Report
import Delegation.Proofs.Numbering

/-!
# The construction loop

A plan builds its instances one after another, with a replacement before one of them. What the loop
yields is found in two steps: building at one place takes the state of that place to the state of
the next (`step_of_copies`, `step_of_delegates`), and so the whole loop yields the instances of all
its places (`run_buildFrom`).

A copying strategy does nothing but count methods. A delegating strategy leaves at most three
different states behind: the new model, the one with the first record, and the one with the record
that replaced it. Each record is filled by the first construction that has it, and all others leave
the model as it is.
-/

namespace Delegation

variable {β : Type}

/-- What follows an answer is run from the state that came with it. -/
theorem Outcome.andThen_of_answer {α γ : Type} {o : Outcome β α} {a : α} (h : o.answer = .ok a)
    (f : α → Action β γ) :
    (o.andThen f).answer = ((f a).run o.model).answer ∧
      (o.andThen f).model = ((f a).run o.model).model := by
  obtain ⟨answer, m, j⟩ := o
  cases h
  exact ⟨rfl, rfl⟩

theorem Outcome.journal_andThen_of_answer {α γ : Type} {o : Outcome β α} {a : α} (h : o.answer = .ok a)
    (f : α → Action β γ) : (o.andThen f).journal = o.journal ++ ((f a).run o.model).journal := by
  obtain ⟨answer, m, j⟩ := o
  cases h
  rfl

namespace Record

theorem setSlots_eq (r : Record β) (ps : List (String × Value (Method β))) :
    r.setSlots ps =
      { r with slots := r.slots.insertAll ps, slotWrites := r.slotWrites + ps.length } := by
  have hid := r.id_setSlots ps
  have htag := r.creatorTag_setSlots ps
  have hslots := r.slots_setSlots ps
  have hlink := r.backLink_setSlots ps
  have hwrites := r.slotWrites_setSlots ps
  cases h : r.setSlots ps
  simp_all

/-- A record without slots has the methods that are written into it, and nothing else. -/
theorem setSlots_nextMethods {r : Record β} (hempty : r.slots = ∅) (m : Model β)
    (methods : MethodTable β) :
    r.setSlots (m.nextMethods methods.toList) =
      { r with
        slots := methods.numbered m.nonce m.methodCount
        slotWrites := r.slotWrites + methods.size } := by
  rw [setSlots_eq, hempty, Model.length_nextMethods, ← Model.ofList_nextMethods]
  rfl

end Record

namespace Model

/-- A construction that finds a record with nothing left to fill in leaves the model as it is. -/
theorem build_of_settled {m : Model β} {b : Blueprint β} {id : RecordId} {r : Record β}
    (hs : b.strategy.delegates = true) (hcur : m.currentRecord b.tag = some id)
    (hr : m.record? id = some r)
    (hsettled : b.strategy = .dynamicPrototype → r.isPopulated = false → b.methods = ∅) :
    ((build b).run m).answer = .ok { own := b.fields, prototype := some id } ∧
      ((build b).run m).model = m := by
  have hbuilt := built b m
  generalize ((build b).run m).answer = answer, ((build b).run m).model = m' at hbuilt ⊢
  cases hbuilt with
  | copying hs' => simp [hs] at hs'
  | found id' _ hcur' =>
    obtain rfl : id = id' := Option.some.inj (hcur.symm.trans hcur')
    exact ⟨rfl, rfl⟩
  | populated id' r' hdyn hcur' hr' hempty =>
    obtain rfl : id = id' := Option.some.inj (hcur.symm.trans hcur')
    obtain rfl : r = r' := Option.some.inj (hr.symm.trans hr')
    refine ⟨rfl, ?_⟩
    -- the empty record is filled with no methods at all
    rw [hsettled hdyn hempty]
    exact modifyRecord_self m id
  | made id' _ hnone => simp [hcur] at hnone
  | full f _ hnone => simp [hcur] at hnone
  | dangling id' f _ hcur' hr' =>
    obtain rfl : id = id' := Option.some.inj (hcur.symm.trans hcur')
    simp [record_eq_ok_iff.2 hr] at hr'

/-- A construction that finds an empty record fills it, if that is its strategy. -/
theorem build_of_empty {m : Model β} {b : Blueprint β} {id : RecordId} {r : Record β}
    (hs : b.strategy = .dynamicPrototype) (hcur : m.currentRecord b.tag = some id)
    (hr : m.record? id = some r) (hempty : r.isPopulated = false) :
    ((build b).run m).answer = .ok { own := b.fields, prototype := some id } ∧
      ((build b).run m).model = (m.modifyRecord id fun r =>
        r.setSlots (m.nextMethods b.methods.toList)).countMethods b.methods.size := by
  have hbuilt := built b m
  generalize ((build b).run m).answer = answer, ((build b).run m).model = m' at hbuilt ⊢
  cases hbuilt with
  | copying hs' => simp [hs, Strategy.delegates] at hs'
  | found id' _ hcur' hleft =>
    obtain rfl : id = id' := Option.some.inj (hcur.symm.trans hcur')
    simp [hs, hr, hempty] at hleft
  | populated id' r' _ hcur' =>
    obtain rfl : id = id' := Option.some.inj (hcur.symm.trans hcur')
    exact ⟨rfl, rfl⟩
  | made id' _ hnone => simp [hcur] at hnone
  | full f _ hnone => simp [hcur] at hnone
  | dangling id' f _ hcur' hr' =>
    obtain rfl : id = id' := Option.some.inj (hcur.symm.trans hcur')
    simp [record_eq_ok_iff.2 hr] at hr'

/-- The first construction of a tag makes its record. -/
theorem build_of_unbound {m : Model β} {b : Blueprint β} {id : RecordId}
    (hs : b.strategy.delegates = true) (hcur : m.currentRecord b.tag = none)
    (hid : m.nextRecordId = .ok id) :
    ((build b).run m).answer = .ok { own := b.fields, prototype := some id } ∧
      ((build b).run m).model = (m.push
        { id, creatorTag := b.tag, slots := b.methods.numbered m.nonce m.methodCount,
          backLink := some b.tag, slotWrites := b.methods.size } true).countMethods
        b.methods.size := by
  have hbuilt := built b m
  generalize ((build b).run m).answer = answer, ((build b).run m).model = m' at hbuilt ⊢
  cases hbuilt with
  | copying hs' => simp [hs] at hs'
  | found _ _ hcur' | populated _ _ _ hcur' | dangling _ _ _ hcur' => simp [hcur] at hcur'
  | full f _ _ hid' => simp [hid] at hid'
  | made id' _ _ hid' =>
    obtain rfl : id = id' := Except.ok.inj (hid.symm.trans hid')
    refine ⟨rfl, ?_⟩
    rw [Record.setSlots_nextMethods rfl]
    simp [Record.new]

/-- Replacing a tag's prototype stores a record with the methods, wherever there is room. -/
theorem replacePrototype_of_room {m : Model β} (hm : m.Sound) {id : RecordId}
    (hid : m.nextRecordId = .ok id) (tag : String) (methods : MethodTable β) :
    ((replacePrototype tag methods).run m).answer = .ok id ∧
      ((replacePrototype tag methods).run m).model =
        (m.push (.withSlots id tag (methods.numbered m.nonce m.methodCount)) true).countMethods
          methods.size := by
  rw [run_replacePrototype, run_replacePrototypeSlots_of_sound (hm.countMethods _),
    nextRecordId_countMethods, hid, ofList_nextMethods]
  exact ⟨rfl, rfl⟩

end Model

namespace CommandLine.Plan

open Model

variable {p : Plan β}

/-! ## Running the loop -/

/-- What is built at every place. -/
def blueprint (p : Plan β) : Blueprint β :=
  { strategy := p.strategy, fields := p.fields, methods := p.methods, tag := p.tag }

theorem run_buildAt_of_ne {place : Nat} (h : p.replaceAfter ≠ some place) (m : Model β) :
    (p.buildAt place).run m = (build p.blueprint).run m := by
  simp only [buildAt, if_neg h]
  rfl

theorem run_buildAt_replaced {place : Nat} (h : p.replaceAfter = some place) (m : Model β) :
    (p.buildAt place).run m =
      ((replacePrototype p.tag p.replacement).run m).andThen fun _ => build p.blueprint := by
  simp only [buildAt, if_pos h]
  rfl

theorem run_buildAt_of_eq {place : Nat} (h : p.replaceAfter = some place) {m : Model β}
    {id : RecordId} (hid : ((replacePrototype p.tag p.replacement).run m).answer = .ok id) :
    ((p.buildAt place).run m).answer =
        ((build p.blueprint).run ((replacePrototype p.tag p.replacement).run m).model).answer ∧
      ((p.buildAt place).run m).model =
        ((build p.blueprint).run ((replacePrototype p.tag p.replacement).run m).model).model := by
  rw [run_buildAt_replaced h]
  exact Outcome.andThen_of_answer hid _

/-- **The loop.** If building at each place takes a state of that place to one of the next, then the
loop yields the instances of all places in order, and a state of the place it has come to. -/
theorem run_buildFrom {At : Nat → Model β → Prop} {instanceAt : Nat → Instance β}
    (hstep : ∀ place m, At place m →
      ((p.buildAt place).run m).answer = .ok (instanceAt place) ∧
        At (place + 1) ((p.buildAt place).run m).model)
    (n : Nat) {place : Nat} {m : Model β} (hm : At place m) :
    ((p.buildFrom place n).run m).answer = .ok ((List.range' place n).map instanceAt) ∧
      At (place + n) ((p.buildFrom place n).run m).model := by
  -- on the places that are left, each started from the state that the one before it has left
  induction n generalizing place m with
  | zero => exact ⟨rfl, hm⟩
  | succ n ih =>
    obtain ⟨hanswer, hnext⟩ := hstep place m hm
    obtain ⟨hrest, hlast⟩ := ih hnext
    obtain ⟨hanswer', hmodel'⟩ := Outcome.andThen_of_answer hanswer fun i =>
      (i :: ·) <$> p.buildFrom (place + 1) n
    rw [buildFrom, Action.run_bind, hanswer', hmodel', Action.run_map]
    refine ⟨?_, ?_⟩
    · show Except.map _ _ = _
      rw [hrest]
      rfl
    · rw [Nat.add_assoc, Nat.add_comm 1] at hlast
      exact hlast

/-! ## Before and after the replacement -/

/-- Whether the replacement comes before the instance at a place. -/
def isLate (p : Plan β) (place : Nat) : Bool := p.replaceAfter.any (· ≤ place)

/-- Whether the replacement comes before the instance before a place. -/
def isReplaced (p : Plan β) (place : Nat) : Bool := p.replaceAfter.any (· < place)

theorem isReplaced_succ (p : Plan β) (place : Nat) : p.isReplaced (place + 1) = p.isLate place := by
  simp only [isReplaced, isLate, Nat.lt_succ_iff]

theorem isReplaced_zero (p : Plan β) : p.isReplaced 0 = false := by
  simp [isReplaced]

theorem isReplaced_of_eq {place : Nat} (h : p.replaceAfter = some place) :
    p.isReplaced place = false ∧ p.isLate place = true := by
  simp [isReplaced, isLate, h]

theorem isLate_of_ne {place : Nat} (h : p.replaceAfter ≠ some place) :
    p.isLate place = p.isReplaced place := by
  cases hk : p.replaceAfter with
  | none => simp [isLate, isReplaced, hk]
  | some k =>
    have hne : k ≠ place := by simpa [hk] using h
    have hiff : k ≤ place ↔ k < place := by omega
    simp [isLate, isReplaced, hk, hiff]

theorem isLate_mono {i j : Nat} (hle : i ≤ j) (h : p.isLate i = true) : p.isLate j = true := by
  cases hk : p.replaceAfter with
  | none => simp [isLate, hk] at h
  | some k =>
    simp only [isLate, hk, Option.any_some, decide_eq_true_eq] at h ⊢
    omega

/-! ## Copying strategies -/

/-- The number of the first method that the instance at a place is given. -/
def firstCopy (p : Plan β) (place : Nat) : Nat :=
  place * p.methods.size + if p.isLate place then p.replacement.size else 0

/-- The instance that a copying strategy builds at a place. -/
def copyAt (p : Plan β) (place : Nat) : Instance β :=
  { own := p.fields.overwrite (p.methods.numbered 0 (p.firstCopy place)), prototype := none }

/-- The states that a copying strategy leaves: the methods are counted, and the only record there is
comes from the replacement. -/
structure Copied (p : Plan β) (place : Nat) (m : Model β) : Prop where
  sound : m.Sound
  nonce : m.nonce = 0
  count : m.methodCount =
    place * p.methods.size + if p.isReplaced place then p.replacement.size else 0
  room : p.isReplaced place = false → m.nextRecordId = .ok (.ofParts 0 0)

theorem copied_new (p : Plan β) : p.Copied 0 (.new 0 {}) where
  sound := sound_new 0 {}
  nonce := rfl
  count := by simp [isReplaced_zero, Model.new]
  room := fun _ => rfl

/-- Building a copy, once the replacement is behind if its place has come. -/
theorem Copied.build (hs : p.strategy.delegates = false) {place : Nat} {m : Model β}
    (hm : m.Sound) (hnonce : m.nonce = 0) (hcount : m.methodCount = p.firstCopy place)
    (hroom : p.isLate place = false → m.nextRecordId = .ok (.ofParts 0 0)) :
    ((Model.build p.blueprint).run m).answer = .ok (p.copyAt place) ∧
      p.Copied (place + 1) ((Model.build p.blueprint).run m).model := by
  have hs' : p.blueprint.strategy.delegates = false := hs
  rw [run_build_of_copies hs']
  have hown : m.ownAtBirth p.blueprint =
      p.fields.overwrite (p.methods.numbered 0 (p.firstCopy place)) := by
    rw [ownAtBirth, hs', nextMethods_eq_numberedEntries, hnonce, hcount]
    rfl
  refine ⟨by rw [hown]; rfl, ?_⟩
  constructor
  case sound => exact hm.countMethods _
  case nonce => exact hnonce
  case count =>
    show m.methodCount + p.methods.size = _
    rw [hcount, firstCopy, isReplaced_succ, Nat.succ_mul]
    omega
  case room =>
    rw [isReplaced_succ]
    exact hroom

theorem step_of_copies (hs : p.strategy.delegates = false) (place : Nat) (m : Model β)
    (h : p.Copied place m) :
    ((p.buildAt place).run m).answer = .ok (p.copyAt place) ∧
      p.Copied (place + 1) ((p.buildAt place).run m).model := by
  by_cases hk : p.replaceAfter = some place
  · obtain ⟨hbefore, hlate⟩ := isReplaced_of_eq hk
    have hid := h.room hbefore
    obtain ⟨hanswer, hmodel⟩ := replacePrototype_of_room h.sound hid p.tag p.replacement
    obtain ⟨hanswer', hmodel'⟩ := run_buildAt_of_eq hk hanswer
    rw [hanswer', hmodel', hmodel]
    -- the replacement has spent the numbers of its own methods
    refine Copied.build hs ((h.sound.push true (by exact hid)).countMethods _) h.nonce ?_ ?_
    · show m.methodCount + p.replacement.size = _
      rw [h.count, hbefore, firstCopy, hlate]
      rfl
    · rw [hlate]
      exact fun e => absurd e (by decide)
  · rw [run_buildAt_of_ne hk]
    have hlate := isLate_of_ne hk
    refine Copied.build hs h.sound h.nonce ?_ ?_
    · rw [h.count, firstCopy, hlate]
    · rw [hlate]
      exact h.room

/-! ## Delegating strategies -/

/-- The record that the first construction makes, unless the replacement comes before it. -/
def early (p : Plan β) : Record β :=
  { id := .ofParts 0 0
    creatorTag := p.tag
    slots := p.methods.numbered 0 0
    backLink := some p.tag
    slotWrites := p.methods.size }

/-- Whether the record of the replacement is empty and the strategy fills empty records. -/
def refills (p : Plan β) : Bool :=
  p.replacement.isEmpty && decide (p.strategy = .dynamicPrototype)

/-- The handle of the record of the replacement. -/
def lateId (p : Plan β) : RecordId := .ofParts (if p.replaceAfter = some 0 then 0 else 1) 0

/-- The record of the replacement, after the first construction that has it. -/
def late (p : Plan β) : Record β :=
  { id := p.lateId
    creatorTag := p.tag
    slots := (if p.refills then p.methods else p.replacement).numbered 0
      (if p.replaceAfter = some 0 then 0 else p.methods.size)
    backLink := none
    slotWrites := if p.refills then p.methods.size else 0 }

/-- The state after the first construction, unless the replacement comes before it. -/
def firstState (p : Plan β) : Model β :=
  ((Model.new 0 {}).push p.early true).countMethods p.methods.size

/-- The state before the replacement. -/
def baseState (p : Plan β) : Model β := if p.replaceAfter = some 0 then .new 0 {} else p.firstState

/-- The state after the replacement and the construction that follows it. -/
def lastState (p : Plan β) : Model β :=
  (p.baseState.push p.late true).countMethods
    (p.replacement.size + if p.refills then p.methods.size else 0)

/-- The state that a delegating strategy leaves before a place. -/
def stateAt (p : Plan β) (place : Nat) : Model β :=
  if p.isReplaced place then p.lastState else if place = 0 then .new 0 {} else p.firstState

/-- The handle of the record that the instance at a place has. -/
def handleAt (p : Plan β) (place : Nat) : RecordId :=
  if p.isLate place then p.lateId else .ofParts 0 0

/-- The record that the instance at a place has. -/
def recordAt (p : Plan β) (place : Nat) : Record β := if p.isLate place then p.late else p.early

/-- The instance that a delegating strategy builds at a place. -/
def sharerAt (p : Plan β) (place : Nat) : Instance β :=
  { own := p.fields, prototype := some (p.handleAt place) }

/-- Nothing comes before the replacement but the first record. -/
theorem stateAt_of_eq {place : Nat} (hk : p.replaceAfter = some place) :
    p.stateAt place = p.baseState := by
  rw [stateAt, (isReplaced_of_eq hk).1, if_neg Bool.false_ne_true, baseState, hk]
  simp only [Option.some.injEq]

theorem stateAt_zero (p : Plan β) : p.stateAt 0 = .new 0 {} := by
  rw [stateAt, isReplaced_zero, if_neg Bool.false_ne_true, if_pos rfl]

theorem nextRecordId_new : (Model.new 0 {} : Model β).nextRecordId = .ok (.ofParts 0 0) := rfl

theorem sound_firstState (p : Plan β) : p.firstState.Sound :=
  ((sound_new 0 {}).push true nextRecordId_new).countMethods _

theorem record?_firstState (p : Plan β) : p.firstState.record? (.ofParts 0 0) = some p.early := by
  rw [firstState, record?_countMethods, record?_push nextRecordId_new]
  exact if_pos rfl

theorem currentRecord_firstState (p : Plan β) :
    p.firstState.currentRecord p.tag = some (.ofParts 0 0) := by
  show ((Model.new 0 {}).push p.early true).currentRecord p.tag = _
  rw [currentRecord_push, if_pos ⟨rfl, rfl⟩]
  rfl

theorem sound_baseState (p : Plan β) : p.baseState.Sound := by
  unfold baseState
  split
  · exact sound_new 0 {}
  · exact p.sound_firstState

theorem nextRecordId_baseState (p : Plan β) : p.baseState.nextRecordId = .ok p.lateId := by
  unfold baseState lateId
  split <;> rfl

theorem nonce_baseState (p : Plan β) : p.baseState.nonce = 0 := by
  unfold baseState
  split <;> rfl

theorem methodCount_baseState (p : Plan β) :
    p.baseState.methodCount = if p.replaceAfter = some 0 then 0 else p.methods.size := by
  unfold baseState
  split
  · rfl
  · show 0 + p.methods.size = _
    rw [Nat.zero_add]

theorem record?_lastState (p : Plan β) : p.lastState.record? p.lateId = some p.late := by
  rw [lastState, record?_countMethods, record?_push p.nextRecordId_baseState]
  exact if_pos rfl

theorem currentRecord_lastState (p : Plan β) : p.lastState.currentRecord p.tag = some p.lateId := by
  show (p.baseState.push p.late true).currentRecord p.tag = _
  rw [currentRecord_push, if_pos ⟨rfl, rfl⟩]
  rfl

/-! ### One construction -/

theorem replace_baseState (p : Plan β) :
    ((replacePrototype p.tag p.replacement).run p.baseState).answer = .ok p.lateId ∧
      ((replacePrototype p.tag p.replacement).run p.baseState).model =
        (p.baseState.push (.withSlots p.lateId p.tag (p.replacement.numbered 0
          (if p.replaceAfter = some 0 then 0 else p.methods.size))) true).countMethods
          p.replacement.size := by
  have h := replacePrototype_of_room p.sound_baseState p.nextRecordId_baseState p.tag p.replacement
  rwa [nonce_baseState, methodCount_baseState] at h

section

variable (hs : p.strategy.delegates = true)

include hs

theorem build_new :
    ((build p.blueprint).run (.new 0 {})).answer =
        .ok { own := p.fields, prototype := some (.ofParts 0 0) } ∧
      ((build p.blueprint).run (.new 0 {})).model = p.firstState :=
  build_of_unbound (b := p.blueprint) hs rfl nextRecordId_new

theorem build_firstState :
    ((build p.blueprint).run p.firstState).answer =
        .ok { own := p.fields, prototype := some (.ofParts 0 0) } ∧
      ((build p.blueprint).run p.firstState).model = p.firstState := by
  refine build_of_settled (b := p.blueprint) hs p.currentRecord_firstState p.record?_firstState ?_
  intro _ hempty
  -- the record has all the methods, so it is empty only if there are none
  have hslots := (NameMap.isEmpty_iff _).2 (Record.slots_of_not_populated hempty)
  rw [early, MethodTable.isEmpty_numbered] at hslots
  exact (NameMap.isEmpty_iff p.methods).1 hslots

theorem build_lastState :
    ((build p.blueprint).run p.lastState).answer =
        .ok { own := p.fields, prototype := some p.lateId } ∧
      ((build p.blueprint).run p.lastState).model = p.lastState := by
  refine build_of_settled (b := p.blueprint) hs p.currentRecord_lastState p.record?_lastState ?_
  intro hdyn hempty
  have hslots := (NameMap.isEmpty_iff _).2 (Record.slots_of_not_populated hempty)
  rw [late, MethodTable.isEmpty_numbered] at hslots
  cases hrefills : p.refills with
  | true =>
    rw [hrefills, if_pos rfl] at hslots
    exact (NameMap.isEmpty_iff p.methods).1 hslots
  | false =>
    -- an empty replacement would have been filled
    have hdyn' : p.strategy = .dynamicPrototype := hdyn
    rw [hrefills, if_neg Bool.false_ne_true] at hslots
    simp [refills, hdyn', hslots] at hrefills

theorem build_replaced {m : Model β}
    (hm : m = ((replacePrototype p.tag p.replacement).run p.baseState).model) :
    ((build p.blueprint).run m).answer = .ok { own := p.fields, prototype := some p.lateId } ∧
      ((build p.blueprint).run m).model = p.lastState := by
  rw [p.replace_baseState.2] at hm
  cases hrefills : p.refills with
  | false =>
    have hlast : m = p.lastState := by
      rw [hm]
      simp [lastState, late, hrefills, Record.withSlots]
    rw [hlast]
    exact build_lastState hs
  | true =>
    obtain ⟨hempty, hdyn⟩ : p.replacement = ∅ ∧ p.strategy = .dynamicPrototype := by
      simpa [refills, NameMap.isEmpty_iff] using hrefills
    have hm : m = p.baseState.push (.withSlots p.lateId p.tag ∅) true := by
      rw [hm, hempty]
      rfl
    have hid : p.baseState.nextRecordId =
        .ok (Record.withSlots p.lateId p.tag ∅ : Record β).id := p.nextRecordId_baseState
    have hcur : m.currentRecord p.tag = some p.lateId := by
      rw [hm, currentRecord_push, if_pos ⟨rfl, rfl⟩]
      rfl
    have hr : m.record? p.lateId = some (.withSlots p.lateId p.tag ∅) := by
      rw [hm, record?_push hid]
      exact if_pos rfl
    obtain ⟨hanswer, hmodel⟩ := build_of_empty (b := p.blueprint) hdyn hcur hr rfl
    refine ⟨hanswer, hmodel.trans ?_⟩
    have hfilled : (Record.withSlots p.lateId p.tag ∅ : Record β).setSlots
        (m.nextMethods p.methods.toList) = p.late := by
      rw [Record.setSlots_nextMethods rfl, hm, nonce_push, methodCount_push, nonce_baseState,
        methodCount_baseState, late, hrefills]
      simp [Record.withSlots]
    -- the record was stored just before, so it might as well have been stored with the methods
    have hpush := modifyRecord_push hid true
      (f := fun r => r.setSlots (m.nextMethods p.methods.toList)) (by simp) (by simp)
    rw [hfilled, ← hm] at hpush
    show (m.modifyRecord p.lateId _).countMethods _ = _
    rw [lastState, hrefills, hempty, ← hpush]
    show _ = (m.modifyRecord p.lateId _).countMethods (0 + p.methods.size)
    rw [Nat.zero_add]
    rfl

/-- **Delegating strategies.** Building at a place takes the state of that place to the next. -/
theorem step_of_delegates (place : Nat) (m : Model β) (h : m = p.stateAt place) :
    ((p.buildAt place).run m).answer = .ok (p.sharerAt place) ∧
      ((p.buildAt place).run m).model = p.stateAt (place + 1) := by
  rw [sharerAt, handleAt, stateAt, isReplaced_succ, if_neg (Nat.succ_ne_zero place)]
  by_cases hk : p.replaceAfter = some place
  · have hlate := (isReplaced_of_eq hk).2
    have hbase : m = p.baseState := h.trans (stateAt_of_eq hk)
    obtain ⟨hanswer, hmodel⟩ := run_buildAt_of_eq hk (m := m) (hbase ▸ p.replace_baseState.1)
    rw [hanswer, hmodel, hlate, if_pos rfl, if_pos rfl]
    exact build_replaced hs (by rw [hbase])
  · rw [run_buildAt_of_ne hk, isLate_of_ne hk, h, stateAt]
    cases hreplaced : p.isReplaced place with
    | true => exact build_lastState hs
    | false =>
      simp only [Bool.false_eq_true, if_false]
      by_cases hzero : place = 0
      · rw [if_pos hzero]
        exact build_new hs
      · rw [if_neg hzero]
        exact build_firstState hs

end

/-! ## What the loop leaves -/

theorem run_buildFrom_of_copies (hs : p.strategy.delegates = false) (n : Nat) :
    ((p.buildFrom 0 n).run (.new 0 {})).answer = .ok ((List.range n).map p.copyAt) := by
  rw [List.range_eq_range']
  exact (run_buildFrom (step_of_copies hs) n p.copied_new).1

theorem run_buildFrom_of_delegates (hs : p.strategy.delegates = true) (n : Nat) :
    ((p.buildFrom 0 n).run (.new 0 {})).answer = .ok ((List.range n).map p.sharerAt) ∧
      ((p.buildFrom 0 n).run (.new 0 {})).model = p.stateAt n := by
  obtain ⟨hanswer, hlast⟩ := run_buildFrom (step_of_delegates hs) n p.stateAt_zero.symm
  rw [← List.range_eq_range'] at hanswer
  rw [Nat.zero_add] at hlast
  exact ⟨hanswer, hlast⟩

/-- A replacement that comes after some instance does not come first. -/
theorem replaceAfter_ne_zero {i : Nat} (h : p.isLate i = false) : p.replaceAfter ≠ some 0 := by
  intro hzero
  simp [isLate, hzero] at h

theorem lateId_ne (h : p.replaceAfter ≠ some 0) : p.lateId ≠ .ofParts 0 0 := by
  rw [lateId, if_neg h]
  decide

/-- The first record is still there when it was replaced. -/
theorem record?_lastState_early (h : p.replaceAfter ≠ some 0) :
    p.lastState.record? (.ofParts 0 0) = some p.early := by
  have hne : RecordId.ofParts 0 0 ≠ p.late.id := (lateId_ne h).symm
  rw [lastState, record?_countMethods, record?_push p.nextRecordId_baseState, if_neg hne, baseState,
    if_neg h, record?_firstState]

/-- **Records.** In the end every instance has the record of its place. -/
theorem record?_stateAt {n i : Nat} (hk : ∀ k, p.replaceAfter = some k → k < n) (hi : i < n) :
    (p.stateAt n).record? (p.handleAt i) = some (p.recordAt i) := by
  have hn : n ≠ 0 := by omega
  cases hafter : p.replaceAfter with
  | none =>
    have hlate : p.isLate i = false := by simp [isLate, hafter]
    have hreplaced : p.isReplaced n = false := by simp [isReplaced, hafter]
    rw [stateAt, hreplaced, handleAt, recordAt, hlate]
    simp only [Bool.false_eq_true, if_false, if_neg hn, record?_firstState]
  | some k =>
    -- the replacement is done, and leaves the first record to those that were built before it
    have hreplaced : p.isReplaced n = true := by simp [isReplaced, hafter, hk k hafter]
    rw [stateAt, hreplaced, if_pos rfl, handleAt, recordAt]
    cases hlate : p.isLate i with
    | true => exact p.record?_lastState
    | false => exact record?_lastState_early (replaceAfter_ne_zero hlate)

theorem currentRecord_stateAt {n : Nat} (hk : ∀ k, p.replaceAfter = some k → k < n) (hn : 0 < n) :
    (p.stateAt n).currentRecord p.tag =
      some (if p.replaceAfter.isSome then p.lateId else .ofParts 0 0) := by
  cases hafter : p.replaceAfter with
  | none =>
    have hreplaced : p.isReplaced n = false := by simp [isReplaced, hafter]
    rw [stateAt, hreplaced, if_neg Bool.false_ne_true, if_neg (Nat.ne_of_gt hn)]
    exact p.currentRecord_firstState
  | some k =>
    have hreplaced : p.isReplaced n = true := by simp [isReplaced, hafter, hk k hafter]
    rw [stateAt, hreplaced]
    exact p.currentRecord_lastState

/-- The first record and that of the replacement have different handles. -/
theorem handleAt_eq_iff (p : Plan β) (i j : Nat) :
    p.handleAt i = p.handleAt j ↔ p.isLate i = p.isLate j := by
  unfold handleAt
  cases hi : p.isLate i <;> cases hj : p.isLate j
  · simp
  · simpa using (lateId_ne (replaceAfter_ne_zero hi)).symm
  · simpa using lateId_ne (replaceAfter_ne_zero hj)
  · simp

end CommandLine.Plan

end Delegation
