import Delegation.Proofs.Allocation
import Delegation.Proofs.Numbering

/-!
# What a replacement leaves behind

A tag's prototype is replaced in two ways that are written apart: through its current record, if it
has one, and directly if it has none. They come to the same. One record is stored at the next place,
with the tag, the slots, no link and no writes, and it is the tag's current record from then on
(`Replaces`). That the first way rebinds the tag at all rests on the invariant that a tag's current
record was made for that tag. Replacing a record itself stores the same record, but rebinds only if
the one replaced was current.

`replacements_store_alike` puts this together with the replacement by methods, which is an allocation of
the methods followed by a replacement, and with the order in which the calls look for what may be
wrong.
-/

namespace Delegation

variable {β : Type}

/-- The calls that allocate the bodies of a table one by one, in ascending order of their names. -/
def MethodTable.allocating (table : MethodTable β) : List (Operation β) :=
  table.toList.map fun p => .allocate p.1 p.2

/-- Methods as slots, each under its own name. -/
def slotsOfMethods (fs : List (Method β)) : PropertyMap β :=
  .ofList (fs.map fun f => (f.name, .method f))

namespace Model

/-- What calls answer that are made one after another. -/
def answers (m : Model β) : List (Operation β) → List (Except Fault (Product β))
  | [] => []
  | op :: ops => (op.action.run m).answer :: (m.afterOne op).answers ops

/-- The same records, and no current one for the tag. -/
def unbind (m : Model β) (tag : String) : Model β := { m with current := m.current.erase tag }

/-! ## The new record -/

/-- The outcome of storing a replacement under a handle, with a tag and with slots. All that there was
stays as it was, but that the tag is bound to the new record if `bind` says so. -/
structure Replaces (m : Model β) (tag : String) (slots : PropertyMap β) (bind : Bool) (id : RecordId)
    (o : Outcome β RecordId) : Prop where
  answer : o.answer = .ok id
  place : id.index.toNat = m.recordCount ∧ id.model = m.nonce
  stored : o.model.record id =
    .ok { id, creatorTag := tag, slots, backLink := none, slotWrites := 0 }
  count : o.model.recordCount = m.recordCount + 1
  older : ∀ j, j < m.recordCount → o.model.records[j]? = m.records[j]?
  bound : o.model.currentRecord tag = if bind then some id else m.currentRecord tag
  bindings : ∀ tag', tag' ≠ tag → o.model.currentRecord tag' = m.currentRecord tag'
  methods : o.model.methodCount = m.methodCount
  owner : o.model.nonce = m.nonce ∧ o.model.limits = m.limits

theorem replaces_storeReplacement {m : Model β} {id : RecordId} (hid : m.nextRecordId = .ok id)
    (tag : String) (old : Option RecordId) (slots : PropertyMap β) (bind : Bool) :
    m.Replaces tag slots bind id ((storeReplacement tag old id slots bind).run m) := by
  obtain ⟨hmodel, hindex⟩ := nextRecordId_eq_ok hid
  have hnew : m.nextRecordId = .ok (Record.withSlots id tag slots).id := hid
  rw [run_storeReplacement]
  constructor
  case answer => rfl
  case place => exact ⟨hindex, hmodel⟩
  case stored =>
    rw [record_eq_ok_iff]
    show (m.push (.withSlots id tag slots) bind).record? id = _
    rw [record?_push hnew, Record.id_withSlots, if_pos rfl]
    rfl
  case count => exact Array.size_push _
  case older =>
    intro j hj
    have hne : j ≠ m.records.size := Nat.ne_of_lt hj
    show (m.records.push _)[j]? = _
    rw [Array.getElem?_push, if_neg hne]
  case bound =>
    show (m.push (.withSlots id tag slots) bind).currentRecord tag = _
    rw [currentRecord_push]
    cases bind with
    | true => exact if_pos ⟨rfl, rfl⟩
    | false => exact if_neg fun h => Bool.false_ne_true h.1
  case bindings =>
    intro tag' hne
    show (m.push (.withSlots id tag slots) bind).currentRecord tag' = _
    rw [currentRecord_push, if_neg fun h => hne h.2]
  case methods => rfl
  case owner => exact ⟨rfl, rfl⟩

/-! ## Bound or not -/

theorem Sound.unbind {m : Model β} (hm : m.Sound) (tag : String) : (m.unbind tag).Sound where
  limited := hm.limited
  placed := hm.placed
  handles := hm.handles
  bound := by
    intro tag' id hcur
    have hfind : (m.current.erase tag).get? tag' = some id := hcur
    rw [NameMap.get?_erase] at hfind
    split at hfind
    · cases hfind
    · exact hm.bound tag' id hfind

/-- Binding a tag anew makes up for its having been unbound. -/
theorem push_unbind (m : Model β) (r : Record β) :
    (m.unbind r.creatorTag).push r true = m.push r true := by
  have hcurrent : (m.current.erase r.creatorTag).insert r.creatorTag r.id =
      m.current.insert r.creatorTag r.id := by
    apply NameMap.ext_get?
    intro tag
    rw [NameMap.get?_insert, NameMap.get?_insert, NameMap.get?_erase]
    split <;> rfl
  simp only [push, unbind, if_true, hcurrent]

/-- A tag without a record gets the record that would have replaced the one it had. -/
theorem replacePrototypeSlots_unbind {m : Model β} (hm : m.Sound) (hfull : ¬ m.IsFull)
    (tag : String) (slots : PropertyMap β) :
    let o := (replacePrototypeSlots tag slots).run m
    let o' := (replacePrototypeSlots tag slots).run (m.unbind tag)
    o'.answer = o.answer ∧ o'.model = o.model := by
  intro o o'
  obtain ⟨id, hid⟩ := exists_nextRecordId hm hfull
  have hid' : (m.unbind tag).nextRecordId = .ok id := hid
  have ho : o = _ := run_replacePrototypeSlots_of_sound hm tag slots
  have ho' : o' = _ := run_replacePrototypeSlots_of_sound (hm.unbind tag) tag slots
  rw [ho, ho', hid, hid']
  exact ⟨rfl, push_unbind m (.withSlots id tag slots)⟩

theorem replaces_replacePrototypeSlots {m : Model β} (hm : m.Sound) (hfull : ¬ m.IsFull)
    (tag : String) (slots : PropertyMap β) :
    ∃ id, m.Replaces tag slots true id ((replacePrototypeSlots tag slots).run m) := by
  obtain ⟨id, hid⟩ := exists_nextRecordId hm hfull
  rw [run_replacePrototypeSlots_of_sound hm, hid]
  exact ⟨id, replaces_storeReplacement hid tag _ slots true⟩

/-! ## Replacing a record -/

theorem replaces_replaceSlots {m : Model β} (hm : m.Sound) (hfull : ¬ m.IsFull) {r : Record β}
    (hr : r ∈ m.records) (slots : PropertyMap β) :
    ∃ id, m.Replaces r.creatorTag slots (decide (m.currentRecord r.creatorTag = some r.id)) id
      ((replaceSlots r.id slots).run m) := by
  obtain ⟨id, hid⟩ := exists_nextRecordId hm hfull
  rw [run_replaceSlots, record_eq_ok_iff.2 (hm.record?_of_mem hr), hid]
  exact ⟨id, replaces_storeReplacement hid r.creatorTag _ slots _⟩

/-- The handle is looked up first, so it is what is found wrong even if the table is full as well. -/
theorem run_replaceSlots_of_unknown {m : Model β} (hm : m.Sound) {id : RecordId}
    (hid : ∀ r ∈ m.records, r.id ≠ id) (slots : PropertyMap β) :
    (replaceSlots id slots).run m =
      { answer := .error .invalidHandle, model := m, journal := [] } := by
  have hnone : m.record id = .error .invalidHandle := by
    cases hr : m.record? id with
    | none => rw [record, hr]
    | some r =>
      have hmem : r ∈ m.records := Array.mem_of_getElem? (record?_eq_some_iff.1 hr).2
      exact absurd (hm.id_eq hr) (hid r hmem)
  rw [run_replaceSlots, hnone]

/-! ## Replacing by methods -/

/-- Allocating bodies one by one answers with their methods and counts them. -/
theorem answers_allocate (m : Model β) (bodies : List (String × β)) :
    m.answers (bodies.map fun p => .allocate p.1 p.2) =
        (m.allocations bodies).map (fun f => .ok (.method f)) ∧
      m.after (bodies.map fun p => .allocate p.1 p.2) = m.countMethods bodies.length := by
  induction bodies generalizing m with
  | nil => exact ⟨rfl, rfl⟩
  | cons p rest ih =>
    obtain ⟨hanswers, hafter⟩ := ih m.countMethod
    constructor
    · exact congrArg (Except.ok (.method (m.nextMethod p.1 p.2)) :: ·) hanswers
    · rw [List.map_cons, after_cons]
      refine hafter.trans ?_
      simp only [countMethods, countMethod, List.length_cons, Nat.add_assoc, Nat.add_comm 1]

theorem slotsOfMethods_allocations (m : Model β) (table : MethodTable β) :
    slotsOfMethods (m.allocations table.toList) = .ofList (m.nextMethods table.toList) := by
  rw [slotsOfMethods, nextMethods_eq_map]

/-! ## All replacements -/

/-- **Replacement.** With room for a record, a tag's prototype is replaced by one new record at the
next place that has the tag, the slots, no link and no writes; the tag is bound to it and nothing else
changes. Whether the tag had a record before makes no difference. A replacement by methods is an
allocation of the methods, one by one in the order of their names, and then a replacement by these. A
record is replaced by the same new record under its own tag, which is bound to it exactly if it was
bound to the record replaced. A full table refuses all of these, but a handle of no record is refused
as such in any state. -/
theorem replacements_store_alike {m : Model β} (hm : m.Reachable) :
    (¬ m.IsFull → ∀ tag slots,
      let o := (replacePrototypeSlots tag slots).run m
      let o' := (replacePrototypeSlots tag slots).run (m.unbind tag)
      (∃ id, m.Replaces tag slots true id o) ∧ o'.answer = o.answer ∧ o'.model = o.model) ∧
    (∀ tag (methods : MethodTable β), ∃ fs,
      m.answers methods.allocating = fs.map (fun f => .ok (.method f)) ∧
      m.after methods.allocating = m.countMethods methods.size ∧
      (∀ name, (slotsOfMethods fs).get? name = m.freshMethod methods name) ∧
      (replacePrototype tag methods).run m =
        (replacePrototypeSlots tag (slotsOfMethods fs)).run (m.after methods.allocating)) ∧
    (¬ m.IsFull → ∀ r ∈ m.records, ∀ slots, ∃ id,
      m.Replaces r.creatorTag slots (decide (m.currentRecord r.creatorTag = some r.id)) id
        ((replaceSlots r.id slots).run m)) ∧
    (m.IsFull →
      let refused : Except Fault RecordId := .error (.recordLimitExceeded m.limits.maxRecords)
      (∀ tag slots, ((replacePrototypeSlots tag slots).run m).answer = refused) ∧
      (∀ tag methods, ((replacePrototype tag methods).run m).answer = refused) ∧
      ∀ r ∈ m.records, ∀ slots, ((replaceSlots r.id slots).run m).answer = refused) ∧
    (∀ id, (∀ r ∈ m.records, r.id ≠ id) → ∀ slots,
      (replaceSlots id slots).run m =
        { answer := .error .invalidHandle, model := m, journal := [] }) := by
  have hsound := hm.sound
  refine ⟨?_, ?_, ?_, ?_, ?_⟩
  · intro hfull tag slots
    exact ⟨replaces_replacePrototypeSlots hsound hfull tag slots,
      replacePrototypeSlots_unbind hsound hfull tag slots⟩
  · intro tag methods
    obtain ⟨hanswers, hafter⟩ := m.answers_allocate methods.toList
    refine ⟨m.allocations methods.toList, hanswers, hafter, fun name => ?_, ?_⟩
    · rw [slotsOfMethods_allocations, get?_ofList_nextMethods, methodOf_eq_freshMethod]
    · rw [run_replacePrototype, slotsOfMethods_allocations, MethodTable.allocating, hafter]
      rfl
  · intro hfull r hr slots
    exact replaces_replaceSlots hsound hfull hr slots
  · intro hfull refused
    have hid := nextRecordId_of_isFull hsound hfull
    refine ⟨fun tag slots => ?_, fun tag methods => ?_, fun r hr slots => ?_⟩
    · rw [run_replacePrototypeSlots_of_sound hsound, hid]
    · rw [run_replacePrototype, run_replacePrototypeSlots_of_sound (hsound.countMethods _),
        nextRecordId_countMethods, hid]
    · rw [run_replaceSlots, record_eq_ok_iff.2 (hsound.record?_of_mem hr), hid]
  · intro id hid slots
    exact run_replaceSlots_of_unknown hsound hid slots

/-- A tag whose record has been replaced, and room for one more. -/
def replacedOnce : Model Nat :=
  (Model.new 0 ⟨3⟩).after [.createRecord "T", .replacePrototypeSlots "T" ∅]

/-- Replacing the stale record leaves the tag where it is, and replacing the current one does not. With
that the table is full: the tag's prototype is not replaced again, and a handle that belongs to no record
is still told apart. -/
theorem replacements_store_alike_replacedOnce :
    let stale := (replaceSlots (.ofParts 0 0) ∅).run replacedOnce
    let current := (replaceSlots (.ofParts 1 0) ∅).run replacedOnce
    let full := replacedOnce.afterOne (.replaceSlots (.ofParts 1 0) ∅)
    replacedOnce.Reachable ∧ ¬ replacedOnce.IsFull ∧
    stale.answer = .ok (.ofParts 2 0) ∧ stale.model.currentRecord "T" = some (.ofParts 1 0) ∧
    current.answer = .ok (.ofParts 2 0) ∧ current.model.currentRecord "T" = some (.ofParts 2 0) ∧
    ((replacePrototypeSlots "T" ∅).run full).answer = .error (.recordLimitExceeded 3) ∧
    ((replaceSlots (.ofParts 3 0) ∅).run full).answer = .error .invalidHandle := by
  intro stale current full
  have hreachable : replacedOnce.Reachable := Reachable.after (.new 0 ⟨3⟩) _
  have hroom : ¬ replacedOnce.IsFull := by
    rw [hreachable.sound.isFull_iff]
    decide
  have hfull : full.IsFull := .inl rfl
  have hrecords : replacedOnce.records =
      #[.new (.ofParts 0 0) "T", .withSlots (.ofParts 1 0) "T" ∅] := rfl
  obtain ⟨-, -, hreplaces, -, -⟩ := replacements_store_alike hreachable
  obtain ⟨-, -, -, hrefused, hunknown⟩ :=
    replacements_store_alike (hreachable.step (.replaceSlots (.ofParts 1 0) ∅))
  obtain ⟨id, hstale⟩ := hreplaces hroom (.new (.ofParts 0 0) "T") (by simp [hrecords]) ∅
  obtain ⟨id', hcurrent⟩ :=
    hreplaces hroom (.withSlots (.ofParts 1 0) "T" ∅) (by simp [hrecords]) ∅
  obtain rfl : .ofParts 2 0 = id :=
    RecordId.eq_of_parts (UInt32.toNat_inj.1 hstale.place.1.symm) hstale.place.2.symm
  obtain rfl : .ofParts 2 0 = id' :=
    RecordId.eq_of_parts (UInt32.toNat_inj.1 hcurrent.place.1.symm) hcurrent.place.2.symm
  refine ⟨hreachable, hroom, hstale.answer, hstale.bound, hcurrent.answer, hcurrent.bound, ?_, ?_⟩
  · exact (hrefused hfull).1 "T" ∅
  · have hnot : ∀ r ∈ full.records, r.id ≠ .ofParts 3 0 := by
      decide
    rw [hunknown (.ofParts 3 0) hnot ∅]

end Model

end Delegation
