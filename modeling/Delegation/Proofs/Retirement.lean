import Delegation.Model.Snapshot
import Delegation.Proofs.RecordHistory

/-!
# Retired records

A record is retired when no tag has it as its current one: it was replaced, or it replaced a record
that was retired itself. No call makes it current again, since a tag is only ever given the record
that the same call stores (`currentRecord_afterOne`), and that one was not there before. All calls
that go by a tag then pass it by, and what is left is a write to the record's own handle
(`Operation.slotWriteTo`).

`Retired.afterOne` and `rewrites_of_retired` are the two steps; `retired_for_good` puts the
runs that follow from them together.
-/

namespace Delegation

variable {β : Type}

/-- The slot write that an operation addresses to a handle. -/
def Operation.slotWriteTo (id : RecordId) : Operation β → Option (String × Value (Method β))
  | .setSlot id' name value => if id' = id then some (name, value) else none
  | _ => none

namespace Model

/-- The record of a handle is there, and is no tag's current one. -/
structure Retired (m : Model β) (id : RecordId) : Prop where
  stored : ∃ r, m.record? id = some r
  unbound : ∀ tag, m.currentRecord tag ≠ some id

/-- A record that is not current for its own tag is not current for any. -/
theorem Sound.retired {m : Model β} (hm : m.Sound) {id : RecordId} {r : Record β}
    (hr : m.record? id = some r) (hcur : m.currentRecord r.creatorTag ≠ some id) : m.Retired id where
  stored := ⟨r, hr⟩
  unbound tag htag := by
    obtain ⟨r', hr', rfl⟩ := hm.bound tag id htag
    obtain rfl : r = r' := Option.some.inj (hr.symm.trans hr')
    exact hcur htag

/-! ## Bindings -/

theorem Retired.afterOne {m : Model β} {id : RecordId} (h : m.Retired id) (op : Operation β) :
    (m.afterOne op).Retired id where
  stored := by
    obtain ⟨r, hr⟩ := h.stored
    exact ⟨_, record?_afterOne hr op⟩
  unbound tag := by
    rcases currentRecord_afterOne m op tag with hsame | ⟨new, hnew, hcur⟩
    · rw [hsame]
      exact h.unbound tag
    · -- the new handle was not honoured before, and this one was
      obtain ⟨r, hr⟩ := h.stored
      rw [hcur]
      rintro ⟨⟩
      rw [record?_of_nextRecordId hnew] at hr
      cases hr

theorem Retired.after {m : Model β} {id : RecordId} (h : m.Retired id)
    (history : List (Operation β)) : (m.after history).Retired id := by
  induction history generalizing m with
  | nil => exact h
  | cons op history ih => exact ih (h.afterOne op)

/-- The place of a tag's record only grows. -/
theorem index_currentRecord_afterOne {m : Model β} (hm : m.Sound) (op : Operation β) {tag : String}
    {id : RecordId} (hcur : m.currentRecord tag = some id) :
    ∃ id', (m.afterOne op).currentRecord tag = some id' ∧ (id' = id ∨ id.index < id'.index) := by
  rcases currentRecord_afterOne m op tag with hsame | ⟨new, hnew, hcur'⟩
  · exact ⟨id, hsame.trans hcur, .inl rfl⟩
  · refine ⟨new, hcur', .inr ?_⟩
    -- the old record has a place in the table, and the new one comes behind it
    obtain ⟨r, hr, -⟩ := hm.bound tag id hcur
    obtain ⟨-, hindex⟩ := nextRecordId_eq_ok hnew
    have hplace := place_of_record? hr
    rw [UInt32.lt_iff_toNat_lt]
    omega

theorem index_currentRecord_after {m : Model β} (hm : m.Sound) (history : List (Operation β))
    {tag : String} {id : RecordId} (hcur : m.currentRecord tag = some id) :
    ∃ id', (m.after history).currentRecord tag = some id' ∧ (id' = id ∨ id.index < id'.index) := by
  induction history generalizing m id with
  | nil => exact ⟨id, hcur, .inl rfl⟩
  | cons op history ih =>
    obtain ⟨id₁, hcur₁, hle₁⟩ := index_currentRecord_afterOne hm op hcur
    obtain ⟨id₂, hcur₂, hle₂⟩ := ih (hm.afterOne op) hcur₁
    refine ⟨id₂, hcur₂, ?_⟩
    rcases hle₁ with rfl | hlt₁
    · exact hle₂
    · rcases hle₂ with rfl | hlt₂
      · exact .inr hlt₁
      · exact .inr (UInt32.lt_trans hlt₁ hlt₂)

/-! ## Contents -/

/-- Only a write to its own handle changes a retired record. -/
theorem rewrites_of_retired {m : Model β} {id : RecordId} (h : m.Retired id)
    (op : Operation β) (r : Record β) :
    op.rewrites m id r = r.setSlots (op.slotWriteTo id).toList := by
  have hbuild : ∀ b : Blueprint β, ¬ (b.strategy = .dynamicPrototype ∧
      m.currentRecord b.tag = some id ∧ r.isPopulated = false) :=
    fun b hb => h.unbound b.tag hb.2.1
  cases op with
  | setSlot id' name value =>
    by_cases e : id' = id
    · simp only [Operation.rewrites, Operation.slotWriteTo, if_pos e]
      rfl
    · simp only [Operation.rewrites, Operation.slotWriteTo, if_neg e]
      rfl
  | mutateSharedSlot tag name value => exact if_neg (h.unbound tag)
  | relinkConstructor tag => exact if_neg (h.unbound tag)
  | construct strategy fields methods tag =>
    exact if_neg (hbuild { strategy, fields, methods, tag })
  | constructNamed name fields methods tag =>
    simp only [Operation.rewrites]
    split
    next b hb => exact if_neg (hbuild b)
    next => rfl
  | _ => rfl

theorem Retired.record?_after {m : Model β} {id : RecordId} (h : m.Retired id) {r : Record β}
    (hr : m.record? id = some r) (history : List (Operation β)) :
    (m.after history).record? id =
      some (r.setSlots (history.filterMap (Operation.slotWriteTo id))) := by
  induction history generalizing m r with
  | nil => exact hr
  | cons op history ih =>
    have hop := record?_afterOne hr op
    rw [rewrites_of_retired h] at hop
    rw [after_cons, ih (h.afterOne op) hop]
    cases hw : op.slotWriteTo id with
    | none => rw [List.filterMap_cons_none hw]; rfl
    | some p => rw [List.filterMap_cons_some hw]; rfl

/-! ## What instances see -/

/-- What a model says about an instance depends on the record it delegates to, and on no other. -/
theorem queries_congr {m m' : Model β} {i : Instance β} {id : RecordId}
    (hproto : i.prototype = some id) (h : m'.record? id = m.record? id) :
    (∀ name, m'.get i name = m.get i name) ∧
    (∀ name, m'.hasProperty i name = m.hasProperty i name) ∧
    m'.constructorOf i = m.constructorOf i ∧ m'.snapshot i = m.snapshot i := by
  have hrecord : m'.record id = m.record id := by rw [record, record, h]
  have hget : ∀ name, m'.get i name = m.get i name := by
    intro name
    simp only [get, hproto, hrecord]
  refine ⟨hget, fun name => ?_, ?_, ?_⟩
  · rw [hasProperty, hasProperty, hget]
  · simp only [constructorOf, prototypeRecord?, hproto, Option.bind_some, h]
  · simp only [snapshot, recordSnapshot, hproto, hrecord]

theorem isInstanceOf_of_retired {m : Model β} {id : RecordId} (h : m.Retired id) {i : Instance β}
    (hproto : i.prototype = some id) (tag : String) : m.isInstanceOf i tag = false := by
  unfold isInstanceOf
  rw [hproto]
  cases hcur : m.currentRecord tag with
  | none => rfl
  | some cur =>
    have hne : id ≠ cur := fun e => h.unbound tag (by rw [hcur, e])
    simpa using hne

/-! ## For good -/

/-- **Retirement.** A record that is not its tag's current one is never any tag's current one again,
whatever is called. It changes by nothing but slot writes to its own handle, which all take effect in
their order. So no other call is noticed by the instances that delegate to it, and they are instances
of no tag. A tag whose record changes is given the one stored in that very call, and the place of
its record only grows. -/
theorem retired_for_good {m : Model β} (hm : m.Reachable) {id : RecordId} {r : Record β}
    (hr : m.record id = .ok r) (hcur : m.currentRecord r.creatorTag ≠ some id)
    (history : List (Operation β)) :
    let m' := m.after history
    (∀ tag, m'.currentRecord tag ≠ some id) ∧
    m'.record id = .ok (r.setSlots (history.filterMap (Operation.slotWriteTo id))) ∧
    (∀ op : Operation β, op.slotWriteTo id = none →
      (m'.afterOne op).record id = m'.record id ∧
      ∀ i : Instance β, i.prototype = some id →
        (∀ name, (m'.afterOne op).get i name = m'.get i name) ∧
        (∀ name, (m'.afterOne op).hasProperty i name = m'.hasProperty i name) ∧
        (m'.afterOne op).constructorOf i = m'.constructorOf i ∧
        (m'.afterOne op).snapshot i = m'.snapshot i) ∧
    (∀ i : Instance β, i.prototype = some id → ∀ tag, m'.isInstanceOf i tag = false) ∧
    (∀ (op : Operation β) (tag : String),
      (m'.afterOne op).currentRecord tag = m'.currentRecord tag ∨
      ∃ new r', (m'.afterOne op).currentRecord tag = some new ∧
        m'.record new = .error .invalidHandle ∧ new.index.toNat = m'.recordCount ∧
        (m'.afterOne op).record new = .ok r') ∧
    (∀ tag old, m.currentRecord tag = some old →
      ∃ new, m'.currentRecord tag = some new ∧ (new = old ∨ old.index < new.index)) := by
  intro m'
  have hr := record_eq_ok_iff.1 hr
  have hretired : m.Retired id := hm.sound.retired hr hcur
  have hretired' : m'.Retired id := hretired.after history
  have hm' : m'.Sound := hm.sound.after history
  have hlater := hretired.record?_after hr history
  refine ⟨hretired'.unbound, record_eq_ok_iff.2 hlater, ?_,
    fun i hproto => isInstanceOf_of_retired hretired' hproto, ?_,
    fun tag old => index_currentRecord_after hm.sound history⟩
  · intro op hop
    have hsame : (m'.afterOne op).record? id = m'.record? id := by
      rw [record?_afterOne hlater, rewrites_of_retired hretired', hop, hlater]
      rfl
    exact ⟨by rw [record, record, hsame], fun i hproto => queries_congr hproto hsame⟩
  · intro op tag
    rcases currentRecord_afterOne m' op tag with hsame | ⟨new, hnew, hcur'⟩
    · exact .inl hsame
    · obtain ⟨r', hr', -⟩ := (hm'.afterOne op).bound tag new hcur'
      refine .inr ⟨new, r', hcur', ?_, (nextRecordId_eq_ok hnew).2, record_eq_ok_iff.2 hr'⟩
      rw [record, record?_of_nextRecordId hnew]

/-- A past after which tag `T` has record 1: record 0 was replaced by it, and record 2 was made from
record 0 when that was replaced already. -/
def replacedTwice : List (Operation Unit) := [
  .createRecord "T",
  .replacePrototypeSlots "T" ∅,
  .replaceSlots (.ofParts 0 0) (.ofList [("f", .null)])]

/-- Record 2 was never bound, and is not bound by what comes later. It takes the write to its own
handle, and not the methods that a construction writes for its tag. -/
theorem retired_for_good_replacedTwice :
    let m := (Model.new 0 {}).after replacedTwice
    let later : List (Operation Unit) := [
      .setSlot (.ofParts 2 0) "g" (.bool true),
      .construct .dynamicPrototype ∅ (.ofList [("f", ()), ("h", ())]) "T",
      .replaceSlots (.ofParts 2 0) ∅]
    m.Reachable ∧ m.currentRecord "T" = some (.ofParts 1 0) ∧
      (m.after later).currentRecord "T" ≠ some (.ofParts 2 0) ∧
      ∃ r, m.record (.ofParts 2 0) = .ok r ∧
        (m.after later).record (.ofParts 2 0) = .ok (r.setSlot "g" (.bool true)) := by
  have hm : ((Model.new 0 {}).after replacedTwice).Reachable :=
    (Reachable.new 0 {}).after replacedTwice
  have hr : ((Model.new 0 {}).after replacedTwice).record (.ofParts 2 0) = .ok _ := rfl
  have hcur : ((Model.new 0 {}).after replacedTwice).currentRecord "T" ≠ some (.ofParts 2 0) := by
    decide
  obtain ⟨hunbound, hrecord, -⟩ := retired_for_good hm hr hcur [
    .setSlot (.ofParts 2 0) "g" (.bool true),
    .construct .dynamicPrototype ∅ (.ofList [("f", ()), ("h", ())]) "T",
    .replaceSlots (.ofParts 2 0) ∅]
  exact ⟨hm, rfl, hunbound "T", _, hr, hrecord⟩

end Model

end Delegation
