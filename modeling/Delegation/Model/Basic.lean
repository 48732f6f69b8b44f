import Delegation.Record
/-!
# Models

A model owns records. It stores them in a table that only grows, knows for every tag which record
new instances attach to, and hands out identities for records and methods. This module holds the
state and its elementary changes; each change is a function on states, described by one equation per
part of the state.

A handle is honoured only if it names this model and a place in its table (`Model.record`), so a
handle of another model is refused whatever its place is (`record_foreign`).
-/

namespace Delegation

/-- What a model may use up. -/
structure Limits where
  /-- How many records may ever be stored; without a limit, as many as a word can count. -/
  maxRecords : Nat := UInt64.size - 1
  deriving DecidableEq

/-- The places a handle can name: one less than a half word can count. -/
def placeLimit : Nat := UInt32.size - 1

/-- The state of a model. -/
structure Model (β : Type) where
  /-- The model's own number, which all its handles carry. -/
  nonce : UInt32
  limits : Limits
  /-- All records ever stored, in order; none is removed. -/
  records : Array (Record β)
  /-- The record that new instances of a tag attach to. -/
  current : NameMap RecordId
  /-- How many methods have been allocated. -/
  methodCount : Nat

namespace Model

variable {β : Type}

/-- The model without records. -/
def new (nonce : UInt32) (limits : Limits) : Model β :=
  { nonce, limits, records := #[], current := ∅, methodCount := 0 }

/-! ## Questions -/

/-- How many records have been stored, replaced ones included. -/
def recordCount (m : Model β) : Nat := m.records.size

/-- The record of a handle. -/
def record? (m : Model β) (id : RecordId) : Option (Record β) :=
  if id.model = m.nonce then m.records[id.index.toNat]? else none

/-- The record of a handle, or the fault of an invalid handle. -/
def record (m : Model β) (id : RecordId) : Except Fault (Record β) :=
  match m.record? id with
  | some r => .ok r
  | none => .error .invalidHandle

/-- The record that new instances of the tag attach to, if there is one yet. -/
def currentRecord (m : Model β) (tag : String) : Option RecordId := m.current.get? tag

/-- The tag's current record, or the fault of an unknown tag. -/
def recordForTag (m : Model β) (tag : String) : Except Fault RecordId :=
  match m.currentRecord tag with
  | some id => .ok id
  | none => .error (.unknownTag tag)

/-- Whether the table takes another record. -/
def hasRoom (m : Model β) : Bool :=
  m.records.size < m.limits.maxRecords && m.records.size < placeLimit

/-- The handle of the next record, or the fault of a full table. -/
def nextRecordId (m : Model β) : Except Fault RecordId :=
  if m.hasRoom then .ok (.ofParts (UInt32.ofNat m.records.size) m.nonce)
  else .error (.recordLimitExceeded m.limits.maxRecords)

/-! ## Elementary changes -/

/-- Stores a record, and makes it its tag's current one if `bind` says so. -/
def push (m : Model β) (r : Record β) (bind : Bool) : Model β :=
  { m with
    records := m.records.push r
    current := if bind then m.current.insert r.creatorTag r.id else m.current }

/-- Changes the record of a handle; a handle that is not honoured changes nothing. -/
def modifyRecord (m : Model β) (id : RecordId) (f : Record β → Record β) : Model β :=
  if id.model = m.nonce then { m with records := m.records.modify id.index.toNat f } else m

/-- Counts one more allocated method. -/
def countMethod (m : Model β) : Model β := { m with methodCount := m.methodCount + 1 }

/-- The method that a body becomes when it is allocated next. -/
def nextMethod (m : Model β) (name : String) (body : β) : Method β :=
  { id := ⟨m.nonce, m.methodCount⟩, name, body }

/-- Counts many more allocated methods. -/
def countMethods (m : Model β) (n : Nat) : Model β := { m with methodCount := m.methodCount + n }

/-- The methods that a list of bodies becomes when they are allocated next. -/
def nextMethods (m : Model β) : List (String × β) → List (String × Value (Method β))
  | [] => []
  | (name, body) :: rest =>
    (name, .method (m.nextMethod name body)) :: m.countMethod.nextMethods rest

/-! ## Laws of the questions -/

/-- **Foreign handles.** A handle of another model names no record here. -/
theorem record_foreign {m : Model β} {id : RecordId} (h : id.model ≠ m.nonce) :
    m.record id = .error .invalidHandle := by
  simp [record, record?, h]

theorem record_eq_ok_iff {m : Model β} {id : RecordId} {r : Record β} :
    m.record id = .ok r ↔ m.record? id = some r := by
  unfold record
  split <;> simp_all

/-- The handle that a table with room gives out names this model and the next place. -/
theorem nextRecordId_eq_ok {m : Model β} {id : RecordId} (h : m.nextRecordId = .ok id) :
    id.model = m.nonce ∧ id.index.toNat = m.records.size := by
  unfold nextRecordId at h
  split at h
  next hroom =>
    have hlt : m.records.size < placeLimit := by
      simp only [hasRoom, Bool.and_eq_true, decide_eq_true_eq] at hroom
      exact hroom.2
    obtain rfl : _ = id := by simpa using h
    refine ⟨RecordId.model_ofParts .., ?_⟩
    rw [RecordId.index_ofParts, UInt32.toNat_ofNat']
    exact Nat.mod_eq_of_lt (Nat.lt_trans hlt (by decide))
  next => simp at h

/-- What methods become depends on the model's number and count alone. -/
theorem nextMethods_congr {m m' : Model β} (hn : m.nonce = m'.nonce)
    (hc : m.methodCount = m'.methodCount) (bodies : List (String × β)) :
    m.nextMethods bodies = m'.nextMethods bodies := by
  induction bodies generalizing m m' with
  | nil => rfl
  | cons p rest ih =>
    obtain ⟨name, body⟩ := p
    simp only [nextMethods, nextMethod, hn, hc]
    have hrest : m.countMethod.nextMethods rest = m'.countMethod.nextMethods rest :=
      ih hn (congrArg (· + 1) hc)
    rw [hrest]

/-! ## Laws of the changes -/

@[simp] theorem nonce_push (m : Model β) (r) (b) : (m.push r b).nonce = m.nonce := rfl
@[simp] theorem limits_push (m : Model β) (r) (b) : (m.push r b).limits = m.limits := rfl
@[simp] theorem methodCount_push (m : Model β) (r) (b) :
    (m.push r b).methodCount = m.methodCount := rfl
@[simp] theorem records_push (m : Model β) (r) (b) :
    (m.push r b).records = m.records.push r := rfl

@[simp] theorem nonce_modifyRecord (m : Model β) (id) (f) :
    (m.modifyRecord id f).nonce = m.nonce := by unfold modifyRecord; split <;> rfl
@[simp] theorem limits_modifyRecord (m : Model β) (id) (f) :
    (m.modifyRecord id f).limits = m.limits := by unfold modifyRecord; split <;> rfl
@[simp] theorem current_modifyRecord (m : Model β) (id) (f) :
    (m.modifyRecord id f).current = m.current := by unfold modifyRecord; split <;> rfl
@[simp] theorem methodCount_modifyRecord (m : Model β) (id) (f) :
    (m.modifyRecord id f).methodCount = m.methodCount := by unfold modifyRecord; split <;> rfl
@[simp] theorem size_records_modifyRecord (m : Model β) (id) (f) :
    (m.modifyRecord id f).records.size = m.records.size := by unfold modifyRecord; split <;> simp

/-- A handle that is refused changes nothing. -/
theorem modifyRecord_eq_self_of_error {m : Model β} {id : RecordId} {f : Record β → Record β}
    {e : Fault} (h : m.record id = .error e) : m.modifyRecord id f = m := by
  unfold modifyRecord
  split
  next hm =>
    have hnone : m.records[id.index.toNat]? = none := by
      unfold record at h
      split at h
      next => simp at h
      next hr => simpa [record?, hm] using hr
    have hsize := Array.getElem?_eq_none_iff.1 hnone
    have : m.records.modify id.index.toNat f = m.records := by
      apply Array.ext
      · simp
      · intro i hi hi'
        rw [Array.getElem_modify, if_neg (by omega)]
    rw [this]
  next => rfl

/-- Leaving a record as it is leaves the model as it is. -/
@[simp] theorem modifyRecord_self (m : Model β) (id : RecordId) :
    (m.modifyRecord id fun r => r) = m := by
  unfold modifyRecord
  split
  next =>
    have : (m.records.modify id.index.toNat fun r => r) = m.records := by
      apply Array.ext
      · simp
      · intro i hi hi'
        simp [Array.getElem_modify]
    rw [this]
  next => rfl

/-- Two changes of one record are one change. -/
theorem modifyRecord_modifyRecord (m : Model β) (id : RecordId) (f g : Record β → Record β) :
    (m.modifyRecord id f).modifyRecord id g = m.modifyRecord id fun r => g (f r) := by
  unfold modifyRecord
  by_cases h : id.model = m.nonce
  · simp only [h, if_true]
    congr 1
    apply Array.ext
    · simp
    · intro i hi hi'
      simp only [Array.getElem_modify]
      split <;> rfl
  · simp [h]

/-- Counting methods and changing a record do not get in each other's way. -/
theorem modifyRecord_countMethods (m : Model β) (id : RecordId) (f : Record β → Record β)
    (n : Nat) :
    (m.countMethods n).modifyRecord id f = (m.modifyRecord id f).countMethods n := by
  unfold modifyRecord countMethods
  split <;> rfl

/-- Changing a record is seen through its handle, and through no other handle of the model. -/
theorem record?_modifyRecord (m : Model β) (id id' : RecordId) (f : Record β → Record β) :
    (m.modifyRecord id f).record? id' =
      if id' = id then (m.record? id').map f else m.record? id' := by
  by_cases hm : id.model = m.nonce
  · rw [modifyRecord, if_pos hm]
    by_cases e : id' = id
    · subst e
      simp [record?, hm, Array.getElem?_modify]
    · rw [if_neg e]
      by_cases hm' : id'.model = m.nonce
      · have hne : id.index.toNat ≠ id'.index.toNat := fun h =>
          e (RecordId.eq_of_parts (UInt32.toNat_inj.1 h.symm) (hm'.trans hm.symm))
        simp [record?, hm', Array.getElem?_modify, hne]
      · simp [record?, hm']
  · rw [modifyRecord, if_neg hm]
    by_cases e : id' = id
    · subst e
      simp [record?, hm]
    · simp [e]

end Model

end Delegation
