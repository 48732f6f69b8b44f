import Delegation.Proofs.Writes

/-!
# What an operation allocates

`Operation.allocated` lists the methods that an operation allocates, in order. Two things make it
the right list. A model counts exactly these methods, and numbers them by its count
(`Model.methodCount_afterOne`, `Model.ids_allocated`). And whatever an operation puts into a slot or
into an instance is a value that it was passed, or one of these methods (`Model.brings_of_slot`,
`Model.brings_of_own`).
-/

namespace Delegation

variable {β : Type}

/-! ## Allocating a list of bodies -/

namespace Model

/-- The methods that a list of bodies becomes when they are allocated next, in order. -/
def allocations (m : Model β) : List (String × β) → List (Method β)
  | [] => []
  | (name, body) :: rest => m.nextMethod name body :: m.countMethod.allocations rest

theorem nextMethods_eq_map (m : Model β) (bodies : List (String × β)) :
    m.nextMethods bodies = (m.allocations bodies).map fun f => (f.name, .method f) := by
  induction bodies generalizing m with
  | nil => rfl
  | cons p rest ih =>
    obtain ⟨name, body⟩ := p
    rw [nextMethods, allocations, List.map_cons, ih]
    rfl

@[simp] theorem length_allocations (m : Model β) (bodies : List (String × β)) :
    (m.allocations bodies).length = bodies.length := by
  induction bodies generalizing m with
  | nil => rfl
  | cons p rest ih => rw [allocations, List.length_cons, ih, List.length_cons]

/-- Methods are numbered by the count of their model, from where it stands. -/
theorem ids_allocations (m : Model β) (bodies : List (String × β)) :
    (m.allocations bodies).map (·.id) =
      (List.range' m.methodCount bodies.length).map (MethodId.mk m.nonce) := by
  induction bodies generalizing m with
  | nil => rfl
  | cons p rest ih =>
    rw [allocations, List.map_cons, ih, List.length_cons, List.range'_succ, List.map_cons]
    rfl

theorem exists_of_methodOf {m : Model β} {methods : MethodTable β} {name : String}
    {v : Value (Method β)} (h : m.methodOf methods name = some v) :
    ∃ f ∈ m.allocations methods.toList, v = .method f := by
  have hmem := (NameMap.lookup_eq_some_iff (m.sorted_nextMethods methods) _ _).1 h
  rw [nextMethods_eq_map] at hmem
  obtain ⟨f, hf, hp⟩ := List.mem_map.1 hmem
  exact ⟨f, hf, (Prod.ext_iff.1 hp).2.symm⟩

end Model

/-! ## Allocations of an operation -/

namespace Operation

/-- The methods that an operation allocates, in order: the one that was asked for; those of a
construction that copies them or writes them into a record; those of a replacement, whatever
becomes of it. -/
def allocated (m : Model β) (op : Operation β) : List (Method β) :=
  match op, (op.action.run m).answer with
  | .allocate name body, _ => [m.nextMethod name body]
  | .replacePrototype _ methods, _ => m.allocations methods.toList
  | op, .ok (.object _) =>
    match op.blueprint? with
    | some b =>
      if b.strategy.delegates = false ∨ m.writesMethods b = true then
        m.allocations b.methods.toList
      else []
    | none => []
  | _, _ => []

/-- Whether a value is among those that an operation is passed. -/
def Passes (v : Value (Method β)) : Operation β → Prop
  | .construct _ fields _ _ | .constructNamed _ fields _ _ => ∃ name, fields.get? name = some v
  | .setSlot _ _ value | .mutateSharedSlot _ _ value => value = v
  | .replaceSlots _ slots | .replacePrototypeSlots _ slots => ∃ name, slots.get? name = some v
  | .createRecord _ | .relinkConstructor _ | .replacePrototype _ _ | .allocate _ _ => False

/-- Whether an operation brings a value into the model or its instances: one that it is passed, or
a method that it allocates. -/
def Brings (m : Model β) (op : Operation β) (v : Value (Method β)) : Prop :=
  op.Passes v ∨ ∃ f ∈ op.allocated m, v = .method f

end Operation

namespace Model

theorem allocated_of_object {m : Model β} {op : Operation β} {i : Instance β} {b : Blueprint β}
    (h : (op.action.run m).answer = .ok (.object i)) (hb : op.blueprint? = some b) :
    op.allocated m =
      if b.strategy.delegates = false ∨ m.writesMethods b = true then
        m.allocations b.methods.toList
      else [] := by
  cases op with
  | construct | constructNamed => simp only [Operation.allocated, h, hb]
  | _ => cases hb

theorem passes_of_blueprint {op : Operation β} {b : Blueprint β} (hb : op.blueprint? = some b)
    {name : String} {v : Value (Method β)} (h : b.fields.get? name = some v) : op.Passes v := by
  cases op with
  | construct => cases hb; exact ⟨name, h⟩
  | constructNamed =>
    obtain ⟨_, -, rfl⟩ := Option.map_eq_some_iff.1 hb
    exact ⟨name, h⟩
  | _ => cases hb

/-! ## The count of methods -/

theorem methodCount_setSlot (id : RecordId) (name : String) (value : Value (Method β))
    (m : Model β) : ((setSlot id name value).run m).model.methodCount = m.methodCount := by
  rw [run_setSlot]
  cases m.record id <;> simp

theorem methodCount_replaceSlots (id : RecordId) (slots : PropertyMap β) (m : Model β) :
    ((replaceSlots id slots).run m).model.methodCount = m.methodCount := by
  rw [run_replaceSlots]
  cases m.record id with
  | error f => rfl
  | ok r => cases m.nextRecordId <;> rfl

theorem methodCount_replacePrototypeSlots (tag : String) (slots : PropertyMap β) (m : Model β) :
    ((replacePrototypeSlots tag slots).run m).model.methodCount = m.methodCount := by
  rw [run_replacePrototypeSlots]
  cases m.currentRecord tag with
  | some old => exact methodCount_replaceSlots old slots m
  | none => cases m.nextRecordId <;> rfl

theorem methodCount_createRecord (tag : String) (m : Model β) :
    ((createRecord tag).run m).model.methodCount = m.methodCount := by
  rw [run_createRecord]
  cases m.nextRecordId <;> rfl

theorem methodCount_mutateSharedSlot (tag name : String) (value : Value (Method β)) (m : Model β) :
    ((mutateSharedSlot tag name value).run m).model.methodCount = m.methodCount := by
  rw [run_mutateSharedSlot]
  cases m.recordForTag tag with
  | error f => rfl
  | ok id => exact methodCount_setSlot id name value m

theorem methodCount_relinkConstructor (tag : String) (m : Model β) :
    ((relinkConstructor tag).run m).model.methodCount = m.methodCount := by
  rw [run_relinkConstructor]
  cases m.recordForTag tag <;> simp

theorem methodCount_replacePrototype (tag : String) (methods : MethodTable β) (m : Model β) :
    ((replacePrototype tag methods).run m).model.methodCount = m.methodCount + methods.size := by
  rw [run_replacePrototype, methodCount_replacePrototypeSlots]
  rfl

theorem methodCount_build {m : Model β} {b : Blueprint β} {i : Instance β}
    (h : ((build b).run m).answer = .ok i) :
    ((build b).run m).model.methodCount = m.methodCount +
      if b.strategy.delegates = false ∨ m.writesMethods b = true then b.methods.size else 0 := by
  have hbuilt := built_eq h
  generalize ((build b).run m).model = m' at hbuilt ⊢
  cases hbuilt with
  | copying hs => simp [hs, countMethods]
  | found id hs hcur hleft =>
    have hwrites := writesMethods_of_left hcur hleft
    simp [hs, hwrites]
  | populated id r hs hcur hr hempty =>
    have hwrites := writesMethods_of_empty hs hcur hr hempty
    simp [hwrites, countMethods]
  | made id hs hcur hid =>
    have hwrites := writesMethods_of_unbound hs hcur
    simp [hwrites, countMethods]

theorem length_allocated_of_refused {m : Model β} {op : Operation β} {f : Fault}
    (h : (op.action.run m).answer = .error f) :
    (op.allocated m).length = op.allocatedFirst := by
  unfold Operation.allocated
  rw [h]
  cases op with
  | replacePrototype tag methods => exact length_allocations m _
  | allocate => cases h
  | _ => rfl

theorem length_allocated_of_object {m : Model β} {op : Operation β} {i : Instance β}
    {b : Blueprint β} (h : (op.action.run m).answer = .ok (.object i))
    (hb : op.blueprint? = some b) :
    (op.allocated m).length =
      if b.strategy.delegates = false ∨ m.writesMethods b = true then b.methods.size else 0 := by
  rw [allocated_of_object h hb]
  split
  · exact length_allocations m _
  · rfl

/-- **Counting.** An operation, refused or not, counts the methods that it allocates. -/
theorem methodCount_afterOne (m : Model β) (op : Operation β) :
    (m.afterOne op).methodCount = m.methodCount + (op.allocated m).length := by
  cases hans : (op.action.run m).answer with
  | error f => rw [model_of_refused hans, length_allocated_of_refused hans]; rfl
  | ok p =>
    cases op with
    | construct strategy fields methods tag | constructNamed strategy fields methods tag =>
      obtain ⟨i, -, rfl⟩ := answer_map_eq_ok hans
      obtain ⟨b, hb, hbuild, hafter⟩ := built_of_answer hans
      rw [hafter, methodCount_build hbuild, length_allocated_of_object hans hb]
    | createRecord tag =>
      obtain ⟨_, -, rfl⟩ := answer_map_eq_ok hans
      simp only [Operation.allocated, hans]
      exact methodCount_createRecord tag m
    | setSlot id name value =>
      obtain ⟨_, -, rfl⟩ := answer_map_eq_ok hans
      simp only [Operation.allocated, hans]
      exact methodCount_setSlot id name value m
    | mutateSharedSlot tag name value =>
      obtain ⟨_, -, rfl⟩ := answer_map_eq_ok hans
      simp only [Operation.allocated, hans]
      exact methodCount_mutateSharedSlot tag name value m
    | relinkConstructor tag =>
      obtain ⟨_, -, rfl⟩ := answer_map_eq_ok hans
      simp only [Operation.allocated, hans]
      exact methodCount_relinkConstructor tag m
    | replaceSlots id slots =>
      obtain ⟨_, -, rfl⟩ := answer_map_eq_ok hans
      simp only [Operation.allocated, hans]
      exact methodCount_replaceSlots id slots m
    | replacePrototypeSlots tag slots =>
      obtain ⟨_, -, rfl⟩ := answer_map_eq_ok hans
      simp only [Operation.allocated, hans]
      exact methodCount_replacePrototypeSlots tag slots m
    | replacePrototype tag methods =>
      have hlength : (Operation.allocated m (.replacePrototype tag methods)).length =
          methods.size := length_allocations m _
      rw [hlength]
      exact methodCount_replacePrototype tag methods m
    | allocate name body => rfl

/-- **Numbering.** What an operation allocates is numbered by the count of the model, from where it
stands. -/
theorem ids_allocated (m : Model β) (op : Operation β) :
    (op.allocated m).map (·.id) =
      (List.range' m.methodCount (op.allocated m).length).map (MethodId.mk m.nonce) := by
  -- the list is that of one method, or of a table, or empty
  have hlist : ∀ bodies : List (String × β), (m.allocations bodies).map (·.id) =
      (List.range' m.methodCount (m.allocations bodies).length).map (MethodId.mk m.nonce) := by
    intro bodies
    rw [ids_allocations, length_allocations]
  unfold Operation.allocated
  split
  · rfl
  · exact hlist _
  · split
    · split
      · exact hlist _
      · rfl
    · rfl
  · rfl

/-! ## Where values come from -/

theorem brings_of_slotWrite {m : Model β} {op : Operation β} {id : RecordId} {name : String}
    {v : Value (Method β)} (h : op.slotWrite m id name = some v) : op.Brings m v := by
  unfold Operation.slotWrite at h
  split at h
  · split at h
    · exact .inl (Option.some.inj h)
    · cases h
  · split at h
    · exact .inl (Option.some.inj h)
    · cases h
  next i hans =>
    obtain ⟨b, hb, h⟩ := Option.bind_eq_some_iff.1 h
    split at h
    next hwrites =>
      obtain ⟨f, hf, rfl⟩ := exists_of_methodOf h
      refine .inr ⟨f, ?_, rfl⟩
      rw [allocated_of_object hans hb, if_pos (.inr hwrites.2)]
      exact hf
    next => cases h
  · cases h

theorem brings_of_slotAtStart {m : Model β} {op : Operation β} {id : RecordId} {name : String}
    {v : Value (Method β)} (h : op.slotAtStart m id name = some v) : op.Brings m v := by
  unfold Operation.slotAtStart at h
  split at h
  · split at h
    · exact .inl ⟨name, h⟩
    · cases h
  · split at h
    · exact .inl ⟨name, h⟩
    · cases h
  · split at h
    · exact .inr (exists_of_methodOf h)
    · cases h
  · cases h

theorem brings_of_slot {m : Model β} (hm : m.Sound) {op : Operation β} {id : RecordId}
    {name : String} {v : Value (Method β)} (h : (m.afterOne op).slot? id name = some v) :
    op.Brings m v ∨ m.slot? id name = some v := by
  rw [slot?_afterOne hm, Option.or_eq_some_iff, Option.or_eq_some_iff] at h
  rcases h with (hwrite | ⟨-, hstart⟩) | ⟨-, hold⟩
  · exact .inl (brings_of_slotWrite hwrite)
  · exact .inl (brings_of_slotAtStart hstart)
  · exact .inr hold

theorem brings_of_own {m : Model β} {op : Operation β} {i : Instance β}
    (hans : (op.action.run m).answer = .ok (.object i)) {name : String} {v : Value (Method β)}
    (h : i.getOwn name = some v) : op.Brings m v := by
  rw [getOwn_of_answer hans, Operation.ownAtStart] at h
  obtain ⟨b, hb, h⟩ := Option.bind_eq_some_iff.1 h
  cases hs : b.strategy.delegates with
  | true =>
    rw [if_pos hs] at h
    exact .inl (passes_of_blueprint hb h)
  | false =>
    rw [if_neg (by simp [hs]), Option.or_eq_some_iff] at h
    rcases h with hcopy | ⟨-, hfield⟩
    · obtain ⟨f, hf, rfl⟩ := exists_of_methodOf hcopy
      refine .inr ⟨f, ?_, rfl⟩
      rw [allocated_of_object hans hb, if_pos (.inl hs)]
      exact hf
    · exact .inl (passes_of_blueprint hb hfield)

end Model

end Delegation
