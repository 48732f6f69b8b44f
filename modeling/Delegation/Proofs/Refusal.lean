import Delegation.Proofs.RecordTable

/-!
# Refused calls

A refused call leaves the records, the bindings and the limits as they were: whatever it checks, it
checks before it stores, writes or links anything (`model_of_refused`). One call has already done
something by then. `replacePrototype` allocates its methods first and looks for room afterwards, so
its refusal leaves the count of methods higher than it was.

`refused_unchanged_iff` says exactly when a refusal leaves no trace at all.
-/

namespace Delegation

variable {β : Type}

/-- How many methods a call has allocated by the time it can be refused. -/
def Operation.allocatedFirst : Operation β → Nat
  | .replacePrototype _ methods => methods.size
  | _ => 0

namespace Model

/-! ## One lemma for each call that can be refused -/

theorem model_of_refused_setSlot {id : RecordId} {name : String} {value : Value (Method β)}
    {m : Model β} {f : Fault} (h : ((setSlot id name value).run m).answer = .error f) :
    ((setSlot id name value).run m).model = m := by
  rw [run_setSlot] at h ⊢
  cases hr : m.record id with
  | error f' => rfl
  | ok r => simp [hr] at h

theorem model_of_refused_replaceSlots {id : RecordId} {slots : PropertyMap β} {m : Model β}
    {f : Fault} (h : ((replaceSlots id slots).run m).answer = .error f) :
    ((replaceSlots id slots).run m).model = m := by
  rw [run_replaceSlots] at h ⊢
  cases hr : m.record id with
  | error f' => rfl
  | ok r =>
    cases hid : m.nextRecordId with
    | error f' => rfl
    | ok new => simp [hr, hid, run_storeReplacement] at h

theorem model_of_refused_replacePrototypeSlots {tag : String} {slots : PropertyMap β} {m : Model β}
    {f : Fault} (h : ((replacePrototypeSlots tag slots).run m).answer = .error f) :
    ((replacePrototypeSlots tag slots).run m).model = m := by
  rw [run_replacePrototypeSlots] at h ⊢
  cases hcur : m.currentRecord tag with
  | some old =>
    rw [hcur] at h
    exact model_of_refused_replaceSlots h
  | none =>
    cases hid : m.nextRecordId with
    | error f' => rfl
    | ok new => simp [hcur, hid, run_storeReplacement] at h

theorem model_of_refused_build {b : Blueprint β} {m : Model β} {f : Fault}
    (h : ((build b).run m).answer = .error f) : ((build b).run m).model = m := by
  have hbuilt := built_eq h
  generalize ((build b).run m).model = m' at hbuilt ⊢
  cases hbuilt with
  | full | dangling => rfl

theorem model_of_refused_constructNamed {name : String} {fields : PropertyMap β}
    {methods : MethodTable β} {tag : String} {m : Model β} {f : Fault}
    (h : ((constructNamed name fields methods tag).run m).answer = .error f) :
    ((constructNamed name fields methods tag).run m).model = m := by
  rw [run_constructNamed] at h ⊢
  cases hs : Strategy.ofName name with
  | error f' => rfl
  | ok strategy =>
    rw [hs] at h
    exact model_of_refused_build h

theorem model_of_refused_createRecord {tag : String} {m : Model β} {f : Fault}
    (h : ((createRecord tag).run m).answer = .error f) : ((createRecord tag).run m).model = m := by
  rw [run_createRecord] at h ⊢
  cases hid : m.nextRecordId with
  | error f' => rfl
  | ok new => simp [hid] at h

theorem model_of_refused_mutateSharedSlot {tag name : String} {value : Value (Method β)}
    {m : Model β} {f : Fault} (h : ((mutateSharedSlot tag name value).run m).answer = .error f) :
    ((mutateSharedSlot tag name value).run m).model = m := by
  rw [run_mutateSharedSlot] at h ⊢
  cases htag : m.recordForTag tag with
  | error f' => rfl
  | ok id =>
    rw [htag] at h
    exact model_of_refused_setSlot h

theorem model_of_refused_relinkConstructor {tag : String} {m : Model β} {f : Fault}
    (h : ((relinkConstructor tag).run m).answer = .error f) :
    ((relinkConstructor tag).run m).model = m := by
  rw [run_relinkConstructor] at h ⊢
  cases htag : m.recordForTag tag with
  | error f' => rfl
  | ok id =>
    cases hr : m.record id with
    | error f' => exact modifyRecord_eq_self_of_error hr
    | ok r => simp [htag, hr, Except.map] at h

/-! ## All calls -/

/-- **Refused calls.** All that a refused call leaves behind are the methods it had allocated. -/
theorem model_of_refused {m : Model β} {op : Operation β} {f : Fault}
    (h : (op.action.run m).answer = .error f) : m.afterOne op = m.countMethods op.allocatedFirst := by
  cases op with
  | allocate => cases h
  | construct strategy fields methods tag =>
    exact model_of_refused_build (b := { strategy, fields, methods, tag }) (answer_map_eq_error h)
  | constructNamed => exact model_of_refused_constructNamed (answer_map_eq_error h)
  | createRecord => exact model_of_refused_createRecord (answer_map_eq_error h)
  | setSlot => exact model_of_refused_setSlot (answer_map_eq_error h)
  | mutateSharedSlot => exact model_of_refused_mutateSharedSlot (answer_map_eq_error h)
  | relinkConstructor => exact model_of_refused_relinkConstructor (answer_map_eq_error h)
  | replaceSlots => exact model_of_refused_replaceSlots (answer_map_eq_error h)
  | replacePrototypeSlots => exact model_of_refused_replacePrototypeSlots (answer_map_eq_error h)
  | replacePrototype tag methods =>
    have h := answer_map_eq_error h
    show ((replacePrototype tag methods).run m).model = _
    rw [run_replacePrototype] at h ⊢
    exact model_of_refused_replacePrototypeSlots h

/-- In a sound state the prototype of a tag can be replaced exactly if there is room. -/
theorem replacePrototype_refused_iff {m : Model β} (hm : m.Sound) (tag : String)
    (methods : MethodTable β) :
    (∃ f, ((replacePrototype tag methods).run m).answer = .error f) ↔ m.hasRoom = false := by
  rw [run_replacePrototype, run_replacePrototypeSlots_of_sound (hm.countMethods _),
    nextRecordId_countMethods]
  unfold nextRecordId
  cases m.hasRoom <;> simp [run_storeReplacement]

theorem countMethods_eq_self_iff (m : Model β) (n : Nat) : m.countMethods n = m ↔ n = 0 := by
  constructor
  · intro h
    have hcount : m.methodCount + n = m.methodCount := congrArg Model.methodCount h
    omega
  · rintro rfl
    rfl

/-- **Atomicity of refusals.** A refused call leaves the model as it was, except that
`replacePrototype` with methods, refused for want of room, has spent their numbers. -/
theorem refused_unchanged_iff {m : Model β} (hm : m.Reachable) (op : Operation β) :
    (∀ f, (op.action.run m).answer = .error f →
      m.afterOne op = m.countMethods op.allocatedFirst) ∧
    ((∀ f, (op.action.run m).answer = .error f → m.afterOne op = m) ↔
      ¬ ∃ tag methods, op = .replacePrototype tag methods ∧ methods.isEmpty = false ∧
        m.hasRoom = false) := by
  refine ⟨fun f h => model_of_refused h, ?_, ?_⟩
  · rintro hsame ⟨tag, methods, rfl, hmethods, hfull⟩
    obtain ⟨f, hf⟩ := (replacePrototype_refused_iff hm.sound tag methods).2 hfull
    have hrefused : ((Operation.replacePrototype tag methods).action.run m).answer = .error f := by
      show ((Product.record <$> replacePrototype tag methods).run m).answer = _
      rw [Action.run_map, Outcome.map, hf]
      rfl
    have hcount := (model_of_refused hrefused).symm.trans (hsame f hrefused)
    have hzero : methods.size = 0 := (countMethods_eq_self_iff m _).1 hcount
    rw [NameMap.isEmpty, List.isEmpty_eq_false_iff] at hmethods
    exact hmethods (List.length_eq_zero_iff.1 hzero)
  · intro hnot f h
    rw [model_of_refused h, countMethods_eq_self_iff]
    cases op with
    | replacePrototype tag methods =>
      -- the call is refused, so there is no room, and the table of methods must be empty
      have hfull := (replacePrototype_refused_iff hm.sound tag methods).1
        ⟨f, answer_map_eq_error h⟩
      cases hmethods : methods.isEmpty with
      | false => exact absurd ⟨tag, methods, rfl, hmethods, hfull⟩ hnot
      | true => rw [(NameMap.isEmpty_iff methods).1 hmethods]; rfl
    | _ => rfl

/-- A model without room, asked to replace a prototype by one method. -/
theorem refused_unchanged_iff_full :
    (Model.new 0 ⟨0⟩ : Model Unit).Reachable ∧
      ¬ ∀ f, ((Operation.replacePrototype "T" (.ofList [("f", ())])).action.run
          (Model.new 0 ⟨0⟩ : Model Unit)).answer = .error f →
        (Model.new 0 ⟨0⟩ : Model Unit).afterOne (.replacePrototype "T" (.ofList [("f", ())])) =
          .new 0 ⟨0⟩ := by
  refine ⟨.new 0 ⟨0⟩, fun h => ?_⟩
  exact (refused_unchanged_iff (.new 0 ⟨0⟩) _).2.1 h ⟨"T", _, rfl, rfl, rfl⟩

/-- **A refusal that is noticed later.** The refused replacement has used up the first number, and
the next method is numbered 1 where it would have been numbered 0. -/
theorem refused_replacement_spends_number :
    let m : Model Unit := .new 0 ⟨0⟩
    let o := (Operation.replacePrototype "T" (.ofList [("f", ())])).action.run m
    m.Reachable ∧ o.answer = .error (.recordLimitExceeded 0) ∧ o.model ≠ m ∧
      ((Operation.allocate "g" ()).action.run m).answer =
        .ok (.method { id := ⟨0, 0⟩, name := "g", body := () }) ∧
      ((Operation.allocate "g" ()).action.run o.model).answer =
        .ok (.method { id := ⟨0, 1⟩, name := "g", body := () }) := by
  refine ⟨.new 0 ⟨0⟩, rfl, ?_, rfl, rfl⟩
  intro h
  exact absurd (congrArg Model.methodCount h) (by decide)

end Model

end Delegation
