import Delegation.Model.Snapshot
import Delegation.Proofs.MethodIdentity

/-!
# Issued handles

Nothing keeps a program from asking one model about a handle of another, or about an instance that
delegates to a record of another. `Program.Issued` says which model gave out a handle, at any moment
of a past: the model was asked for the record of a tag, or it answered a call with a record or with an
instance.

An issued handle finds a record in its model from then on, whatever the program does
(`Issued.record?`). So it carries the number of its model, and as long as a half word can number the
models, any other model has another number (`Issued.model_ne`). Each question of a model checks the
number in its own way, or leaves it to the table of records; the section on foreign handles takes
them one by one, and `foreign_handle_refused` collects the answers.
-/

namespace Delegation

variable {β : Type}

namespace Program

/-! ## The models of a program -/

/-- A model after a deed is as it was, or new, or what the deed made of it. -/
theorem models_step {p : Program β} {d : Deed β} {k : Nat} {m' : Model β}
    (h : (p.step d).models[k]? = some m') :
    p.models[k]? = some m' ∨
      (∃ limits, k = p.models.size ∧ m' = .new (UInt32.ofNat k) limits) ∨
      ∃ m a, p.models[k]? = some m ∧
        m' = (({ model := m, objects := p.objects } : World β).step a).model := by
  cases d with
  | hold value => exact .inl h
  | found limits =>
    simp only [step, Array.getElem?_push] at h
    split at h
    next hk => exact .inr (.inl ⟨limits, hk, by rw [hk]; exact (Option.some.inj h).symm⟩)
    next => exact .inl h
  | act place a =>
    cases hm : p.models[place]? with
    | none =>
      simp only [step, hm] at h
      exact .inl h
    | some m =>
      rcases models_step_act hm a h with ⟨rfl, rfl⟩ | ⟨-, hold⟩
      · exact .inr (.inr ⟨m, a, hm, rfl⟩)
      · exact .inl hold

/-- Every model of a program has come about by calls alone, and its number is its place. -/
theorem reachable_of_models {past : List (Deed β)} {k : Nat} {m : Model β}
    (h : (start.after past).models[k]? = some m) : m.Reachable ∧ m.nonce = UInt32.ofNat k := by
  induction past generalizing m with
  | nil => simp [after, start] at h
  | cons d past ih =>
    rcases models_step h with hold | ⟨limits, -, rfl⟩ | ⟨m₀, a, hm₀, rfl⟩
    · exact ih hold
    · exact ⟨.new _ limits, rfl⟩
    · obtain ⟨hreach, hnumber⟩ := ih hm₀
      have hnonce := (World.extends_step { model := m₀, objects := (start.after past).objects }
        a).nonce_eq
      refine ⟨?_, hnonce.trans hnumber⟩
      rcases World.model_step { model := m₀, objects := (start.after past).objects } a with
        hsame | ⟨op, -, hop⟩
      · rw [hsame]; exact hreach
      · rw [hop]; exact hreach.step op

/-- No model is given up, and none takes back what it has. -/
theorem models_kept {p : Program β} {k : Nat} {m : Model β} (h : p.models[k]? = some m)
    (d : Deed β) : ∃ m', (p.step d).models[k]? = some m' ∧ m.Extends m' := by
  have hlt : k < p.models.size := (Array.getElem?_eq_some_iff.1 h).1
  cases d with
  | hold value => exact ⟨m, h, .refl m⟩
  | found limits =>
    refine ⟨m, ?_, .refl m⟩
    simp only [step, Array.getElem?_push]
    rw [if_neg (by omega), h]
  | act place a =>
    cases hm : p.models[place]? with
    | none => exact ⟨m, by simp only [step, hm, h], .refl m⟩
    | some m₀ =>
      rw [step_act hm, Array.getElem?_setIfInBounds]
      by_cases hk : place = k
      · subst hk
        obtain rfl : m₀ = m := Option.some.inj (hm.symm.trans h)
        have hext := World.extends_step { model := m₀, objects := p.objects } a
        exact ⟨_, by rw [if_pos rfl, if_pos hlt], hext⟩
      · exact ⟨m, by rw [if_neg hk, h], .refl m⟩

/-! ## Handles that were given out -/

/-- The model at place `k` gave out the handle, now or earlier in the past. -/
inductive Issued (k : Nat) (id : RecordId) : List (Deed β) → Prop where
  | current {past : List (Deed β)} {m : Model β} (tag : String)
      (hm : (start.after past).models[k]? = some m) (hcur : m.currentRecord tag = some id) :
      Issued k id past
  | answered {past : List (Deed β)} {m : Model β} (op : Operation β) (p : Product β)
      (hm : (start.after past).models[k]? = some m) (hans : (op.action.run m).answer = .ok p)
      (hid : p.recordId? = some id) : Issued k id (.act k (.operate op) :: past)
  | earlier {past : List (Deed β)} (d : Deed β) (h : Issued k id past) : Issued k id (d :: past)

/-- **Issued handles are honoured.** The model that gave the handle out finds a record under it. -/
theorem Issued.record? {k : Nat} {id : RecordId} {past : List (Deed β)} (h : Issued k id past) :
    ∃ m r, (start.after past).models[k]? = some m ∧ m.record? id = some r := by
  induction h with
  | current tag hm hcur =>
    obtain ⟨r, hr, -⟩ := (reachable_of_models hm).1.sound.bound tag id hcur
    exact ⟨_, r, hm, hr⟩
  | @answered past m op p hm hans hid =>
    have hgives : m.GivesOut id (m.afterOne op) := .product op p id hans hid
    obtain ⟨r, hr⟩ := hgives.record? (reachable_of_models hm).1.sound
    have hlt : k < (start.after past).models.size := (Array.getElem?_eq_some_iff.1 hm).1
    refine ⟨m.afterOne op, r, ?_, hr⟩
    show ((start.after past).step (.act k (.operate op))).models[k]? = _
    rw [step_act hm, Array.getElem?_setIfInBounds, if_pos rfl, if_pos hlt]
    rfl
  | earlier d _ ih =>
    obtain ⟨m, r, hm, hr⟩ := ih
    obtain ⟨m', hm', hext⟩ := models_kept hm d
    obtain ⟨r', hr', -⟩ := hext.record? hr
    exact ⟨m', r', hm', hr'⟩

theorem Issued.later {k : Nat} {id : RecordId} {past : List (Deed β)} (h : Issued k id past)
    (later : List (Deed β)) : Issued k id (later ++ past) := by
  induction later with
  | nil => exact h
  | cons d later ih => exact .earlier d ih

theorem Issued.model_eq {k : Nat} {id : RecordId} {past : List (Deed β)} (h : Issued k id past) :
    id.model = UInt32.ofNat k := by
  obtain ⟨m, r, hm, hr⟩ := h.record?
  exact (Model.model_of_record? hr).trans (reachable_of_models hm).2

/-- The place of the model that issued a handle is told by the handle's number. -/
theorem Issued.place_eq {k l : Nat} {id : RecordId} {past : List (Deed β)} {m : Model β}
    (h : Issued l id past) (hsize : (start.after past).models.size ≤ UInt32.size)
    (hm : (start.after past).models[k]? = some m) (hmodel : id.model = m.nonce) : l = k := by
  obtain ⟨m', -, hm', -⟩ := h.record?
  have hl := (Array.getElem?_eq_some_iff.1 hm').1
  have hk := (Array.getElem?_eq_some_iff.1 hm).1
  rw [h.model_eq, (reachable_of_models hm).2] at hmodel
  exact number_inj (by omega) (by omega) hmodel

/-- **Numbers tell models apart.** A handle of one model does not carry the number of another. -/
theorem Issued.model_ne {k l : Nat} {id : RecordId} {past : List (Deed β)} {m : Model β}
    (h : Issued l id past) (hsize : (start.after past).models.size ≤ UInt32.size)
    (hm : (start.after past).models[k]? = some m) (hkl : k ≠ l) : id.model ≠ m.nonce :=
  fun hmodel => hkl (h.place_eq hsize hm hmodel).symm

end Program

/-! ## Foreign handles

What a model answers about a handle that does not carry its number, one question at a time. -/

namespace Model

variable {m : Model β} {id : RecordId}

theorem recordSnapshot_foreign (hid : id.model ≠ m.nonce) :
    m.recordSnapshot id = .error .invalidHandle := by
  rw [recordSnapshot, record_foreign hid]
  rfl

theorem setSlot_foreign (hid : id.model ≠ m.nonce) (name : String) (value : Value (Method β)) :
    (setSlot id name value).run m =
      { answer := .error .invalidHandle, model := m, journal := [] } := by
  rw [run_setSlot, record_foreign hid]

theorem replaceSlots_foreign (hid : id.model ≠ m.nonce) (slots : PropertyMap β) :
    (replaceSlots id slots).run m =
      { answer := .error .invalidHandle, model := m, journal := [] } := by
  rw [run_replaceSlots, record_foreign hid]

section Instances

variable {i : Instance β} (hproto : i.prototype = some id) (hid : id.model ≠ m.nonce)
include hproto hid

theorem get_of_foreign (name : String) :
    m.get i name = (match i.getOwn name with
      | some v => .ok v
      | none => .error .invalidHandle) := by
  cases hown : i.getOwn name with
  | some v => exact get_own hown
  | none => exact get_foreign hown hproto hid

theorem hasProperty_foreign (name : String) : m.hasProperty i name = i.hasOwn name := by
  rw [hasProperty, get_of_foreign hproto hid, Instance.hasOwn, NameMap.contains, ← Instance.getOwn]
  cases i.getOwn name <;> rfl

theorem sharesRecordWith_foreign (x : Instance β) :
    m.sharesRecordWith i x = false ∧ m.sharesRecordWith x i = false := by
  unfold sharesRecordWith
  rw [hproto]
  cases hx : x.prototype with
  | none => exact ⟨rfl, rfl⟩
  | some id' =>
    -- on the right the number of the left handle is checked, which is the same if the handles are
    constructor
    · simp [hid]
    · simp only [Bool.and_eq_false_imp, beq_iff_eq, beq_eq_false_iff_ne]
      rintro rfl
      exact hid

theorem prototypeRecord?_foreign : m.prototypeRecord? i = none := by
  rw [prototypeRecord?, hproto, Option.bind_some, record?, if_neg hid]

theorem producedBy_foreign (tag : String) : m.producedBy i tag = false := by
  rw [producedBy, prototypeRecord?_foreign hproto hid]

theorem constructorOf_foreign : m.constructorOf i = none := by
  rw [constructorOf, prototypeRecord?_foreign hproto hid, Option.bind_none]

theorem snapshot_foreign : m.snapshot i = .error .invalidHandle := by
  simp only [snapshot, hproto, recordSnapshot_foreign hid]
  rfl

/-- This question compares handles only; it is the bindings that carry the model's number. -/
theorem isInstanceOf_foreign (hm : m.Sound) (tag : String) : m.isInstanceOf i tag = false := by
  unfold isInstanceOf
  rw [hproto]
  cases hcur : m.currentRecord tag with
  | none => rfl
  | some cur =>
    obtain ⟨r, hr, -⟩ := hm.bound tag cur hcur
    have hne : id ≠ cur := by
      rintro rfl
      exact hid (model_of_record? hr)
    simpa using hne

end Instances

end Model

namespace Program

/-- **Foreign handles.** In a program of no more models than a half word can number, a model never
takes a handle that another model issued for one of its own, whatever has been done to either. It
refuses the handle wherever a handle is asked for, and is left as it was. An instance that delegates
to such a record shows its own properties and nothing else; it shares its record with no instance,
itself included, and is of no tag. A handle of the model's own is honoured ever after. -/
theorem foreign_handle_refused {past : List (Deed β)}
    (hsize : (start.after past).models.size ≤ UInt32.size) {k l : Nat} {m : Model β}
    (hm : (start.after past).models[k]? = some m) (hkl : k ≠ l) :
    (∀ id, Issued l id past →
      m.record id = .error .invalidHandle ∧
      m.recordSnapshot id = .error .invalidHandle ∧
      (∀ name value, (Model.setSlot id name value).run m =
        { answer := .error .invalidHandle, model := m, journal := [] }) ∧
      (∀ slots, (Model.replaceSlots id slots).run m =
        { answer := .error .invalidHandle, model := m, journal := [] }) ∧
      ∀ i : Instance β, i.prototype = some id →
        (∀ name, m.get i name = (match i.getOwn name with
          | some v => .ok v
          | none => .error .invalidHandle)) ∧
        (∀ name, m.hasProperty i name = i.hasOwn name) ∧
        (∀ x, m.sharesRecordWith i x = false ∧ m.sharesRecordWith x i = false) ∧
        (∀ tag, m.producedBy i tag = false ∧ m.isInstanceOf i tag = false) ∧
        m.constructorOf i = none ∧
        m.snapshot i = .error .invalidHandle) ∧
    ∀ id, Issued k id past → ∀ later, ∃ m' r,
      (start.after (later ++ past)).models[k]? = some m' ∧ m'.record id = .ok r ∧ r.id = id := by
  constructor
  · intro id hissued
    have hid : id.model ≠ m.nonce := hissued.model_ne hsize hm hkl
    have hsound : m.Sound := (reachable_of_models hm).1.sound
    refine ⟨Model.record_foreign hid, Model.recordSnapshot_foreign hid, Model.setSlot_foreign hid,
      Model.replaceSlots_foreign hid, fun i hproto => ?_⟩
    exact ⟨Model.get_of_foreign hproto hid, Model.hasProperty_foreign hproto hid,
      Model.sharesRecordWith_foreign hproto hid,
      fun tag => ⟨Model.producedBy_foreign hproto hid tag,
        Model.isInstanceOf_foreign hproto hid hsound tag⟩,
      Model.constructorOf_foreign hproto hid, Model.snapshot_foreign hproto hid⟩
  · intro id hissued later
    obtain ⟨m', r, hm', hr⟩ := (hissued.later later).record?
    exact ⟨m', r, hm', Model.record_eq_ok_iff.2 hr, (reachable_of_models hm').1.sound.id_eq hr⟩

/-- A past of two models in which either has a record at its first place, for one and the same tag
and with a slot of one and the same name. -/
def twins : List (Deed Unit) := [
  .act 1 (.operate (.construct .constructorWithPrototype ∅ (.ofList [("f", ())]) "T")),
  .act 0 (.operate (.construct .constructorWithPrototype ∅ (.ofList [("f", ())]) "T")),
  .found {},
  .found {}]

/-- The instance that the second model built has the slot there, and not in the first model, where
the record at the same place has it too; the handle is still honoured after a replacement. -/
theorem foreign_handle_refused_twins :
    ∃ m m' i, (start.after twins).models[0]? = some m ∧ (start.after twins).models[1]? = some m' ∧
      (start.after twins).objects[1]? = some i ∧ i.prototype = some (.ofParts 0 1) ∧
      m'.get i "f" = .ok (.method ⟨⟨1, 0⟩, "f", ()⟩) ∧
      (∃ r, m.record (.ofParts 0 0) = .ok r ∧ r.slots.contains "f" = true) ∧
      m.get i "f" = .error .invalidHandle ∧ m.sharesRecordWith i i = false ∧
      ∃ later m'' r, (start.after (later :: twins)).models[0]? = some m'' ∧
        later = .act 0 (.operate (.replacePrototypeSlots "T" ∅)) ∧
        m''.record (.ofParts 0 0) = .ok r ∧ r.id = .ofParts 0 0 := by
  have hissued : Issued 1 (.ofParts 0 1) twins :=
    .answered (m := .new 1 {}) _ (.object ⟨∅, some (.ofParts 0 1)⟩) rfl rfl rfl
  have hown : Issued 0 (.ofParts 0 0) twins :=
    .earlier _ (.answered (m := .new 0 {}) _ (.object ⟨∅, some (.ofParts 0 0)⟩) rfl rfl rfl)
  have hsize : (start.after twins).models.size ≤ UInt32.size := by decide
  obtain ⟨hforeign, hkept⟩ := foreign_handle_refused hsize (k := 0) (l := 1) rfl (by decide)
  obtain ⟨-, -, -, -, hinstance⟩ := hforeign _ hissued
  obtain ⟨hget, -, hshares, -⟩ := hinstance ⟨∅, some (.ofParts 0 1)⟩ rfl
  obtain ⟨m'', r, hm'', hr, hid⟩ := hkept _ hown [.act 0 (.operate (.replacePrototypeSlots "T" ∅))]
  exact ⟨_, _, _, rfl, rfl, rfl, rfl, rfl, ⟨_, rfl, rfl⟩, hget "f", (hshares _).1, _, m'', r, hm'',
    rfl, hr, hid⟩

end Program

end Delegation
