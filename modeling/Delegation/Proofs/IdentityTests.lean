import Delegation.Proofs.IssuedHandles
import Delegation.Proofs.RecordHistory

/-!
# Tests of type and identity

A model answers six questions about the record that an instance delegates to, and each looks at
something else: `sharesRecordWith` at the number in the handle, `isInstanceOf` at the binding of a tag,
`producedBy` and `snapshot` at the tag in the record, `constructorOf` at the record's link, and `get`
at its slots. Each question first gets its reading in terms of handles and records.

The readings agree because of three invariants. What a tag is bound to is a record made for this tag
(`Sound`), a link names the record's own tag (`Reachable.linked`), and a handle that carries the
model's number and was issued by any model at all finds a record (`Handed.exists_record`).
-/

namespace Delegation

variable {β : Type}

/-! ## Links -/

namespace Record

/-- The record links back to its own tag, or it has no link. -/
def Linked (r : Record β) : Prop := r.backLink = none ∨ r.backLink = some r.creatorTag

theorem Linked.setSlots {r : Record β} (h : r.Linked) (ps : List (String × Value (Method β))) :
    (r.setSlots ps).Linked := by
  rw [Linked, backLink_setSlots, creatorTag_setSlots]
  exact h

theorem linked_relink (r : Record β) : r.relink.Linked := .inr rfl

theorem linked_new (id : RecordId) (tag : String) : (new id tag : Record β).Linked := .inr rfl

theorem linked_withSlots (id : RecordId) (tag : String) (slots : PropertyMap β) :
    (withSlots id tag slots).Linked := .inl rfl

end Record

namespace Model

theorem linked_rewrites (m : Model β) (op : Operation β) (id : RecordId) {r : Record β}
    (h : r.Linked) : (op.rewrites m id r).Linked := by
  rcases rewrites_eq m op id r with ⟨ps, hps⟩ | hrelink
  · rw [hps]; exact h.setSlots ps
  · rw [hrelink]; exact r.linked_relink

theorem linked_of_stores {m : Model β} {op : Operation β} {id : RecordId} {r : Record β}
    (h : op.stores m id = some r) : r.Linked := by
  cases op with
  | createRecord tag =>
    obtain rfl := Option.some.inj h
    exact Record.linked_new id tag
  | replaceSlots old slots =>
    obtain ⟨r', -, rfl⟩ := Option.map_eq_some_iff.1 h
    exact Record.linked_withSlots id r'.creatorTag slots
  | replacePrototypeSlots tag slots =>
    obtain rfl := Option.some.inj h
    exact Record.linked_withSlots id tag slots
  | replacePrototype tag methods =>
    obtain rfl := Option.some.inj h
    exact Record.linked_withSlots id tag _
  | construct strategy fields methods tag =>
    obtain rfl := Option.some.inj h
    exact (Record.linked_new id tag).setSlots _
  | constructNamed name fields methods tag =>
    simp only [Operation.stores] at h
    obtain ⟨b, -, rfl⟩ := Option.map_eq_some_iff.1 h
    exact (Record.linked_new id b.tag).setSlots _
  | setSlot | mutateSharedSlot | relinkConstructor | allocate => cases h

/-- **Links.** A record that calls have led to links back to its own tag, if it has a link. -/
theorem Reachable.linked {m : Model β} (h : m.Reachable) {id : RecordId} {r : Record β}
    (hr : m.record? id = some r) : r.Linked := by
  induction h generalizing r with
  | new nonce limits => simp [record?, Model.new] at hr
  | @step m h op ih =>
    cases hold : m.record? id with
    | none => exact linked_of_stores (stores_of_record? h.sound hold op hr)
    | some r₀ =>
      obtain rfl : op.rewrites m id r₀ = r := Option.some.inj ((record?_afterOne hold op).symm.trans hr)
      exact linked_rewrites m op id (ih hold)

/-! ## What each question reads -/

section Readings

variable {m : Model β} {a b : Instance β} {tag : String}

theorem prototypeRecord?_eq_some_iff {r : Record β} :
    m.prototypeRecord? a = some r ↔ ∃ id, a.prototype = some id ∧ m.record? id = some r :=
  Option.bind_eq_some_iff

theorem sharesRecordWith_eq_true_iff :
    m.sharesRecordWith a b = true ↔
      ∃ id, a.prototype = some id ∧ b.prototype = some id ∧ id.model = m.nonce := by
  unfold sharesRecordWith
  cases a.prototype with
  | none => simp
  | some ida =>
    cases b.prototype with
    | none => simp
    | some idb =>
      simp only [Bool.and_eq_true, beq_iff_eq, Option.some.injEq]
      constructor
      · rintro ⟨rfl, hmodel⟩
        exact ⟨ida, rfl, rfl, hmodel⟩
      · rintro ⟨id, rfl, rfl, hmodel⟩
        exact ⟨rfl, hmodel⟩

theorem isInstanceOf_eq_true_iff :
    m.isInstanceOf a tag = true ↔ ∃ id, a.prototype = some id ∧ m.currentRecord tag = some id := by
  unfold isInstanceOf
  cases a.prototype with
  | none => simp
  | some id =>
    cases m.currentRecord tag with
    | none => simp
    | some cur =>
      simp only [beq_iff_eq, Option.some.injEq]
      exact ⟨fun h => ⟨id, rfl, h.symm⟩, fun ⟨_, h, h'⟩ => h.trans h'.symm⟩

theorem producedBy_eq_true_iff :
    m.producedBy a tag = true ↔ ∃ r, m.prototypeRecord? a = some r ∧ r.creatorTag = tag := by
  unfold producedBy
  cases m.prototypeRecord? a <;> simp

theorem constructorOf_eq_some_iff :
    m.constructorOf a = some tag ↔ ∃ r, m.prototypeRecord? a = some r ∧ r.backLink = some tag :=
  Option.bind_eq_some_iff

/-- A snapshot names a tag exactly if it could be taken and the record is of this tag. -/
theorem snapshot_names_iff :
    (∃ s p, m.snapshot a = .ok s ∧ s.prototype = some p ∧ p.creatorTag = tag) ↔
      ∃ r, m.prototypeRecord? a = some r ∧ r.creatorTag = tag := by
  unfold snapshot recordSnapshot prototypeRecord? record
  cases a.prototype with
  | none => simp
  | some id =>
    simp only [Option.bind_some]
    cases m.record? id with
    | none => simp [bind, Except.bind]
    | some r => simp [bind, Except.bind, pure, Except.pure, Record.snapshot]

/-- Past the own properties all answers depend on the prototype alone. -/
theorem answers_congr (hproto : a.prototype = b.prototype) :
    (∀ tag, m.producedBy a tag = m.producedBy b tag) ∧
    (∀ tag, m.isInstanceOf a tag = m.isInstanceOf b tag) ∧
    m.constructorOf a = m.constructorOf b ∧
    ∀ name, a.getOwn name = none → b.getOwn name = none → m.get a name = m.get b name := by
  have hrecord : m.prototypeRecord? a = m.prototypeRecord? b := by
    rw [prototypeRecord?, hproto, prototypeRecord?]
  refine ⟨fun tag => ?_, fun tag => ?_, ?_, fun name ha hb => get_congr (ha.trans hb.symm) hproto⟩
  · rw [producedBy, hrecord, producedBy]
  · rw [isInstanceOf, hproto, isInstanceOf]
  · rw [constructorOf, hrecord, constructorOf]

/-- The current record of a tag is a record of the model, made for this tag. -/
theorem exists_record_of_isInstanceOf (hm : m.Sound) (h : m.isInstanceOf a tag = true) :
    ∃ id r, a.prototype = some id ∧ m.currentRecord tag = some id ∧ m.record? id = some r ∧
      r.creatorTag = tag := by
  obtain ⟨id, hid, hcur⟩ := isInstanceOf_eq_true_iff.1 h
  obtain ⟨r, hr, htag⟩ := hm.bound tag id hcur
  exact ⟨id, r, hid, hcur, hr, htag⟩

end Readings

end Model

/-! ## Instances with issued prototypes -/

namespace Program

/-- The instance delegates to no record, or under a handle that some model issued. How it came by
the handle does not matter. -/
def Handed (past : List (Deed β)) (i : Instance β) : Prop :=
  ∀ id, i.prototype = some id → ∃ l, Issued l id past

/-- An issued handle that carries the number of a model was issued by it, and finds a record. -/
theorem Handed.exists_record {past : List (Deed β)} {i : Instance β} (h : Handed past i)
    (hsize : (start.after past).models.size ≤ UInt32.size) {k : Nat} {m : Model β}
    (hm : (start.after past).models[k]? = some m) {id : RecordId} (hid : i.prototype = some id)
    (hmodel : id.model = m.nonce) : ∃ r, m.record? id = some r := by
  obtain ⟨l, hissued⟩ := h id hid
  obtain rfl : l = k := hissued.place_eq hsize hm hmodel
  obtain ⟨m', r, hm', hr⟩ := hissued.record?
  obtain rfl : m' = m := Option.some.inj (hm'.symm.trans hm)
  exact ⟨r, hr⟩

/-- **Coherence.** After any past, a model's questions about instances tell one story, whatever
instances they are, and whichever models issued the handles that they delegate under. An instance of
a tag was produced by the tag, and so was one whose record links back to it; no instance was produced by
two tags. Two instances of a tag share their record. Sharing is symmetric and transitive, and instances
that share are told apart by no question, up to their own properties. As long as the models have
different numbers, an instance whose handle was issued shares with itself exactly if it delegates to a
record of this model. A snapshot names the tag that produced the instance. -/
theorem identity_tests_agree {past : List (Deed β)} {k : Nat} {m : Model β}
    (hm : (start.after past).models[k]? = some m) (a b c : Instance β) :
    (∀ tag, m.isInstanceOf a tag = true → m.producedBy a tag = true) ∧
    (∀ tag, m.constructorOf a = some tag → m.producedBy a tag = true) ∧
    (∀ tag tag', m.producedBy a tag = true → m.producedBy a tag' = true → tag = tag') ∧
    (∀ tag, m.isInstanceOf a tag = true → m.isInstanceOf b tag = true →
      m.sharesRecordWith a b = true) ∧
    m.sharesRecordWith a b = m.sharesRecordWith b a ∧
    (m.sharesRecordWith a b = true → m.sharesRecordWith b c = true →
      m.sharesRecordWith a c = true) ∧
    ((start.after past).models.size ≤ UInt32.size → Handed past a →
      (m.sharesRecordWith a a = true ↔ ∃ id r, a.prototype = some id ∧ m.record id = .ok r)) ∧
    (m.sharesRecordWith a b = true →
      (∀ tag, m.producedBy a tag = m.producedBy b tag) ∧
      (∀ tag, m.isInstanceOf a tag = m.isInstanceOf b tag) ∧
      m.constructorOf a = m.constructorOf b ∧
      ∀ name, a.getOwn name = none → b.getOwn name = none → m.get a name = m.get b name) ∧
    (∀ tag, (∃ s p, m.snapshot a = .ok s ∧ s.prototype = some p ∧ p.creatorTag = tag) ↔
      m.producedBy a tag = true) := by
  have hreach : m.Reachable := (reachable_of_models hm).1
  refine ⟨?_, ?_, ?_, ?_, ?_, ?_, ?_, ?_, ?_⟩
  · intro tag h
    obtain ⟨id, r, hid, -, hr, htag⟩ := Model.exists_record_of_isInstanceOf hreach.sound h
    exact Model.producedBy_eq_true_iff.2 ⟨r, Model.prototypeRecord?_eq_some_iff.2 ⟨id, hid, hr⟩, htag⟩
  · intro tag h
    obtain ⟨r, hproto, hlink⟩ := Model.constructorOf_eq_some_iff.1 h
    obtain ⟨id, -, hr⟩ := Model.prototypeRecord?_eq_some_iff.1 hproto
    rcases hreach.linked hr with hnone | hown
    · rw [hnone] at hlink
      cases hlink
    · exact Model.producedBy_eq_true_iff.2 ⟨r, hproto, Option.some.inj (hown.symm.trans hlink)⟩
  · intro tag tag' h h'
    obtain ⟨r, hr, rfl⟩ := Model.producedBy_eq_true_iff.1 h
    obtain ⟨r', hr', rfl⟩ := Model.producedBy_eq_true_iff.1 h'
    rw [Option.some.inj (hr.symm.trans hr')]
  · intro tag h h'
    obtain ⟨id, r, hid, hcur, hr, -⟩ := Model.exists_record_of_isInstanceOf hreach.sound h
    obtain ⟨id', hid', hcur'⟩ := Model.isInstanceOf_eq_true_iff.1 h'
    obtain rfl : id = id' := Option.some.inj (hcur.symm.trans hcur')
    exact Model.sharesRecordWith_eq_true_iff.2 ⟨id, hid, hid', Model.model_of_record? hr⟩
  · rw [Bool.eq_iff_iff, Model.sharesRecordWith_eq_true_iff, Model.sharesRecordWith_eq_true_iff]
    constructor
    · rintro ⟨id, h, h', hmodel⟩
      exact ⟨id, h', h, hmodel⟩
    · rintro ⟨id, h, h', hmodel⟩
      exact ⟨id, h', h, hmodel⟩
  · intro h h'
    obtain ⟨id, hid, hid', hmodel⟩ := Model.sharesRecordWith_eq_true_iff.1 h
    obtain ⟨id₂, hid₂, hid₂', -⟩ := Model.sharesRecordWith_eq_true_iff.1 h'
    obtain rfl : id = id₂ := Option.some.inj (hid'.symm.trans hid₂)
    exact Model.sharesRecordWith_eq_true_iff.2 ⟨id, hid, hid₂', hmodel⟩
  · intro hsize ha
    rw [Model.sharesRecordWith_eq_true_iff]
    constructor
    · rintro ⟨id, hid, -, hmodel⟩
      obtain ⟨r, hr⟩ := ha.exists_record hsize hm hid hmodel
      exact ⟨id, r, hid, Model.record_eq_ok_iff.2 hr⟩
    · rintro ⟨id, r, hid, hr⟩
      exact ⟨id, hid, hid, Model.model_of_record? (Model.record_eq_ok_iff.1 hr)⟩
  · intro h
    obtain ⟨id, hid, hid', -⟩ := Model.sharesRecordWith_eq_true_iff.1 h
    exact Model.answers_congr (hid.trans hid'.symm)
  · intro tag
    rw [Model.snapshot_names_iff, Model.producedBy_eq_true_iff]

/-- A past in which the record of a tag is replaced between two constructions. The first instance was
copied before, and the copy was given a property. -/
def divided : List (Deed Unit) := [
  .act 0 (.operate (.construct .dynamicPrototype ∅ (.ofList [("f", ())]) "T")),
  .act 0 (.operate (.replacePrototypeSlots "T" ∅)),
  .act 0 (.setOwn 1 "g" .null),
  .act 0 (.clone 0),
  .act 0 (.operate (.construct .constructorWithPrototype ∅ (.ofList [("f", ())]) "T")),
  .found {}]

/-- The first instance and its copy were produced by the tag and are no instances of it any more, while
the later instance is one and has another method. -/
theorem identity_tests_agree_divided :
    ∃ m a b c, (start.after divided).models[0]? = some m ∧
      (start.after divided).objects[0]? = some a ∧ (start.after divided).objects[1]? = some b ∧
      (start.after divided).objects[2]? = some c ∧ Handed divided a ∧
      (∃ id r, a.prototype = some id ∧ m.record id = .ok r) ∧ m.sharesRecordWith a b = true ∧
      m.producedBy a "T" = true ∧ m.isInstanceOf a "T" = false ∧ m.isInstanceOf b "T" = false ∧
      m.isInstanceOf c "T" = true ∧ m.sharesRecordWith a c = false ∧
      m.get a "f" = m.get b "f" ∧ m.get a "f" ≠ m.get c "f" := by
  have ha : Handed divided ⟨∅, some (.ofParts 0 0)⟩ := by
    rintro id ⟨⟩
    exact ⟨0, .earlier _ (.earlier _ (.earlier _ (.earlier _
      (.answered (m := .new 0 {}) _ (.object ⟨∅, some (.ofParts 0 0)⟩) rfl rfl rfl))))⟩
  have hsize : (start.after divided).models.size ≤ UInt32.size := by decide
  have hm : (start.after divided).models[0]? = some (start.after divided).models[0] := rfl
  obtain ⟨-, hlink, -, -, -, -, hself, hsame, -⟩ := identity_tests_agree hm ⟨∅, some (.ofParts 0 0)⟩
    ⟨.ofList [("g", .null)], some (.ofParts 0 0)⟩ ⟨∅, some (.ofParts 1 0)⟩
  obtain ⟨-, hinstance, -, hget⟩ := hsame rfl
  have hold : (start.after divided).models[0].isInstanceOf ⟨∅, some (.ofParts 0 0)⟩ "T" = false := by
    decide
  have hcopy := (hinstance "T").symm.trans hold
  have hother : (start.after divided).models[0].get ⟨∅, some (.ofParts 0 0)⟩ "f" ≠
      (start.after divided).models[0].get ⟨∅, some (.ofParts 1 0)⟩ "f" := by
    rintro ⟨⟩
  exact ⟨_, _, _, _, hm, rfl, rfl, rfl, ha, (hself hsize ha).1 rfl, rfl, hlink "T" rfl, hold, hcopy,
    by decide, by decide, hget "f" rfl rfl, hother⟩

end Program

end Delegation
