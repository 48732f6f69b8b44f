import Delegation.Proofs.Mirror

/-!
# Mirrored calls

A limit is looked at in one place, when a record is to be stored. So a call on a model and the mirrored
call on the mirrored model come out alike, journal and all, unless the first one is refused for want of
room (`Mirror.Follows`). It is enough to see this of the steps that calls are made of; from there it
goes through every operation in the way it is written (`follows_operation`).
-/

namespace Delegation

variable {β : Type}

/-- The call is refused because the table is full. -/
def Outcome.Full {α : Type} (o : Outcome β α) : Prop :=
  ∃ limit, o.answer = .error (.recordLimitExceeded limit)

namespace Mirror

variable {α α' γ γ' : Type} (σ : Mirror β)

/-- The outcome on the other side, with `g` applied to the answer. -/
def outcome (g : α → α') (o : Outcome β α) : Outcome β α' :=
  { answer := o.answer.map g, model := σ.model o.model, journal := o.journal }

/-- The second call on a mirrored model does what the first one does on the model, unless this one is
refused for want of room. -/
def Follows (g : α → α') (x : Action β α) (y : Action β α') : Prop :=
  ∀ m, y.run (σ.model m) = σ.outcome g (x.run m) ∨ (x.run m).Full

/-! ## What calls are made of -/

namespace Follows

variable {σ} {g : α → α'} {h : γ → γ'}

theorem pure (a : α) : σ.Follows g (Pure.pure a) (Pure.pure (g a)) := fun _ => .inl rfl

theorem bind {x : Action β α} {y : Action β α'} {f : α → Action β γ} {f' : α' → Action β γ'}
    (hx : σ.Follows g x y) (hf : ∀ a, σ.Follows h (f a) (f' (g a))) :
    σ.Follows h (x >>= f) (y >>= f') := by
  intro m
  rw [Action.run_bind, Action.run_bind]
  -- a refusal for want of room in the first part is one of the whole, since nothing runs after it
  have hxm := hx m
  generalize y.run (σ.model m) = o' at hxm ⊢
  rcases hrun : x.run m with ⟨_ | a, m', j⟩
  · rw [hrun] at hxm
    rcases hxm with rfl | ⟨limit, hfull⟩
    · exact .inl rfl
    · cases hfull
      exact .inr ⟨limit, rfl⟩
  · rw [hrun] at hxm
    rcases hxm with rfl | ⟨limit, hfull⟩
    · rcases hf a m' with hfm | hfull
      · refine .inl ?_
        show ({ answer := .ok (g a), model := σ.model m', journal := j } : Outcome β α').andThen f' = _
        rw [Action.andThen_ok, hfm]
        rfl
      · exact .inr hfull
    · cases hfull

theorem map {g' : γ → γ'} {k : α → γ} {k' : α' → γ'} {x : Action β α} {y : Action β α'}
    (hx : σ.Follows g x y) (hk : ∀ a, k' (g a) = g' (k a)) : σ.Follows g' (k <$> x) (k' <$> y) := by
  intro m
  rw [Action.run_map, Action.run_map]
  rcases hx m with e | ⟨limit, hfull⟩
  · left
    rw [e]
    rcases x.run m with ⟨_ | a, m', j⟩
    · rfl
    · simp only [outcome, Outcome.map, Except.map, hk]
  · right
    exact ⟨limit, by rw [Outcome.map, hfull]; rfl⟩

theorem within {x : Action β α} {y : Action β α'} (hx : σ.Follows g x y) (span : Span) :
    σ.Follows g (.within span x) (.within span y) := by
  intro m
  rw [Action.run_within, Action.run_within]
  rcases hx m with e | hfull
  · exact .inl (by rw [e]; rfl)
  · exact .inr hfull

theorem ask {f : Model β → α} {f' : Model β → α'} (hf : ∀ m, f' (σ.model m) = g (f m)) :
    σ.Follows g (.ask f) (.ask f') := by
  intro m
  left
  rw [Action.run_ask, hf]
  rfl

theorem consult {f : Model β → Except Fault α} {f' : Model β → Except Fault α'}
    (hf : ∀ m, f' (σ.model m) = (f m).map g) : σ.Follows g (.consult f) (.consult f') := by
  intro m
  left
  rw [Action.run_consult, hf]
  rfl

theorem change {f f' : Model β → Model β} (hf : ∀ m, f' (σ.model m) = σ.model (f m)) :
    σ.Follows id (.change f) (.change f') := by
  intro m
  left
  rw [Action.run_change, hf]
  rfl

theorem report (event : Event) : σ.Follows id (.report event) (.report event) := fun _ => .inl rfl

theorem allocate (name : String) (body : β) :
    σ.Follows σ.method (.allocate name body) (.allocate name (σ.bodies body)) := fun _ => .inl rfl

/-- The one question that a limit has a say in. -/
theorem nextRecordId : σ.Follows σ.recordId (.consult Model.nextRecordId) (.consult Model.nextRecordId) := by
  intro m
  cases hroom : m.hasRoom with
  | true =>
    left
    rw [Action.run_consult, σ.nextRecordId_model m hroom]
    rfl
  | false =>
    right
    exact ⟨m.limits.maxRecords, by rw [Action.run_consult, Model.nextRecordId, hroom]; rfl⟩

end Follows

/-! ## Calls -/

/-- A change of one entry, seen in an array of images. -/
theorem modify_map {δ ε : Type} {f : δ → ε} {change : δ → δ} {change' : ε → ε}
    (h : ∀ a, f (change a) = change' (f a)) (xs : Array δ) (i : Nat) :
    (xs.map f).modify i change' = (xs.modify i change).map f := by
  apply Array.ext
  · simp
  · intro j hj hj'
    simp only [Array.getElem_modify, Array.getElem_map]
    split
    · exact (h _).symm
    · rfl

variable (m : Model β)

theorem model_push (r : Record β) (bind : Bool) :
    (σ.model m).push (σ.record r) bind = σ.model (m.push r bind) := by
  simp only [Model.push, model, Array.map_push]
  cases bind with
  | false => rfl
  | true =>
    have hcurrent : (m.current.insert r.creatorTag r.id).map σ.recordId =
        (m.current.map σ.recordId).insert r.creatorTag (σ.recordId r.id) := NameMap.map_insert ..
    simp only [if_true, hcurrent]
    rfl

theorem model_modifyRecord (id : RecordId) {f f' : Record β → Record β}
    (hf : ∀ r, σ.record (f r) = f' (σ.record r)) :
    (σ.model m).modifyRecord (σ.recordId id) f' = σ.model (m.modifyRecord id f) := by
  by_cases hid : id.model = m.nonce
  · have hid' : (σ.recordId id).model = (σ.model m).nonce := by
      rw [model_recordId, hid]
      rfl
    rw [Model.modifyRecord, if_pos hid', Model.modifyRecord, if_pos hid, index_recordId]
    show { σ.model m with records := (m.records.map σ.record).modify id.index.toNat f' } = _
    rw [modify_map hf]
    rfl
  · have hid' : (σ.recordId id).model ≠ (σ.model m).nonce := by
      rw [model_recordId]
      exact fun e => hid (σ.models.injective e)
    rw [Model.modifyRecord, if_neg hid', Model.modifyRecord, if_neg hid]

variable {σ}

theorem follows_store (r : Record β) (bind : Bool) :
    σ.Follows id (Model.store r bind) (Model.store (σ.record r) bind) := by
  have hreport : Event.allocated (σ.record r).id.index.toNat (σ.record r).creatorTag bind =
      .allocated r.id.index.toNat r.creatorTag bind := by simp
  rw [Model.store, Model.store, hreport]
  exact (Follows.report _).bind fun _ => .change fun m => σ.model_push m r bind

theorem follows_createRecord (tag : String) :
    σ.Follows σ.recordId (Model.createRecord tag) (Model.createRecord tag) :=
  Follows.nextRecordId.bind fun id =>
    (follows_store (.new id tag) true).bind fun _ => .pure id

theorem follows_record (rid : RecordId) :
    σ.Follows σ.record (.consult fun m => m.record rid) (.consult fun m => m.record (σ.recordId rid)) :=
  .consult fun m => σ.record_model m rid

theorem follows_currentRecord (tag : String) :
    σ.Follows (Option.map σ.recordId) (.ask fun m => m.currentRecord tag)
      (.ask fun m => m.currentRecord tag) :=
  .ask fun m => σ.currentRecord_model m tag

theorem follows_recordForTag (tag : String) :
    σ.Follows σ.recordId (.consult fun m => m.recordForTag tag)
      (.consult fun m => m.recordForTag tag) :=
  .consult fun m => σ.recordForTag_model m tag

theorem follows_setSlot (rid : RecordId) (name : String) (v : Value (Method β)) :
    σ.Follows id (Model.setSlot rid name v) (Model.setSlot (σ.recordId rid) name (σ.value v)) := by
  refine (follows_record rid).bind fun r => ?_
  rw [id_record, index_recordId]
  refine (Follows.report _).bind fun _ => .change fun m => ?_
  exact σ.model_modifyRecord m rid fun r => σ.record_setSlot r name v

theorem follows_mutateSharedSlot (tag name : String) (v : Value (Method β)) :
    σ.Follows id (Model.mutateSharedSlot tag name v) (Model.mutateSharedSlot tag name (σ.value v)) :=
  (follows_recordForTag tag).bind fun rid => follows_setSlot rid name v

theorem follows_relinkConstructor (tag : String) :
    σ.Follows id (Model.relinkConstructor tag : Action β Unit) (Model.relinkConstructor tag) := by
  refine (follows_recordForTag tag).bind fun rid => (follows_record rid).bind fun _ => ?_
  exact .change fun m => σ.model_modifyRecord m rid fun _ => rfl

theorem follows_storeReplacement (tag : String) (old : Option RecordId) (new : RecordId)
    (slots : PropertyMap β) (bind : Bool) :
    σ.Follows σ.recordId (Model.storeReplacement tag old new slots bind)
      (Model.storeReplacement tag (old.map σ.recordId) (σ.recordId new) (σ.properties slots) bind) := by
  have hspan : Span.replaceSlots tag ((old.map σ.recordId).map (·.index.toNat))
      (σ.recordId new).index.toNat = .replaceSlots tag (old.map (·.index.toNat)) new.index.toNat := by
    simp [Function.comp_def]
  rw [Model.storeReplacement, Model.storeReplacement, hspan]
  refine Follows.within ((follows_store (.withSlots new tag slots) bind).bind fun _ => ?_) _
  exact (Follows.report .severed).bind fun _ => .pure new

theorem follows_replaceSlots (rid : RecordId) (slots : PropertyMap β) :
    σ.Follows σ.recordId (Model.replaceSlots rid slots)
      (Model.replaceSlots (σ.recordId rid) (σ.properties slots)) := by
  refine (follows_record rid).bind fun old => Follows.nextRecordId.bind fun new => ?_
  have hbound : σ.Follows id (.ask fun m => decide (m.currentRecord old.creatorTag = some rid))
      (.ask fun m => decide (m.currentRecord old.creatorTag = some (σ.recordId rid))) := by
    refine .ask fun m => ?_
    rw [currentRecord_model]
    cases m.currentRecord old.creatorTag <;> simp
  exact hbound.bind fun bound => follows_storeReplacement old.creatorTag (some rid) new slots bound

theorem follows_replacePrototypeSlots (tag : String) (slots : PropertyMap β) :
    σ.Follows σ.recordId (Model.replacePrototypeSlots tag slots)
      (Model.replacePrototypeSlots tag (σ.properties slots)) := by
  refine (follows_currentRecord tag).bind fun current => ?_
  cases current with
  | some old => exact follows_replaceSlots old slots
  | none => exact Follows.nextRecordId.bind fun new => follows_storeReplacement tag none new slots true

theorem follows_allocateAll (bodies : List (String × β)) :
    σ.Follows σ.named (Model.allocateAll bodies)
      (Model.allocateAll (bodies.map fun p => (p.1, σ.bodies p.2))) := by
  induction bodies with
  | nil => exact .pure []
  | cons p rest ih =>
    obtain ⟨name, body⟩ := p
    exact (Follows.allocate name body).bind fun method => ih.map fun _ => rfl

theorem follows_replacePrototype (tag : String) (methods : MethodTable β) :
    σ.Follows σ.recordId (Model.replacePrototype tag methods)
      (Model.replacePrototype tag (σ.methods methods)) := by
  refine (follows_allocateAll methods.toList).bind fun slots => ?_
  rw [← properties_ofList]
  exact follows_replacePrototypeSlots tag (.ofList slots)

/-! ### Construction -/

theorem follows_writeMethods (rid : RecordId) (bodies : List (String × β)) :
    σ.Follows id (Model.writeMethods rid bodies)
      (Model.writeMethods (σ.recordId rid) (bodies.map fun p => (p.1, σ.bodies p.2))) := by
  induction bodies with
  | nil => exact .pure ()
  | cons p rest ih =>
    obtain ⟨name, body⟩ := p
    exact (Follows.allocate name body).bind fun method =>
      (follows_setSlot rid name (.method method)).bind fun _ => ih

/-- What is done to a record that may be empty. -/
theorem follows_fill (methods : MethodTable β) (rid : RecordId) :
    σ.Follows (Option.map σ.recordId)
      (do
        let record ← .consult fun m => m.record rid
        if record.isPopulated then
          return some rid
        else
          .report (.populating rid.index.toNat)
          Model.writeMethods rid methods.toList
          return some rid)
      (do
        let record ← .consult fun m => m.record (σ.recordId rid)
        if record.isPopulated then
          return some (σ.recordId rid)
        else
          .report (.populating (σ.recordId rid).index.toNat)
          Model.writeMethods (σ.recordId rid) (σ.methods methods).toList
          return some (σ.recordId rid)) := by
  refine (follows_record rid).bind fun r => ?_
  rw [isPopulated_record, index_recordId]
  split
  · exact .pure (some rid)
  · exact (Follows.report _).bind fun _ =>
      (follows_writeMethods rid methods.toList).bind fun _ => .pure (some rid)

theorem follows_attach (strategy : Strategy) (methods : MethodTable β) (tag : String) :
    σ.Follows (Option.map σ.recordId) (Model.attach strategy methods tag)
      (Model.attach strategy (σ.methods methods) tag) := by
  cases strategy with
  | factory | constructorOnly => exact .pure none
  | constructorWithPrototype =>
    refine (follows_currentRecord tag).bind fun current => ?_
    cases current with
    | some rid => exact .pure (some rid)
    | none =>
      exact (follows_createRecord tag).bind fun rid =>
        (follows_writeMethods rid methods.toList).bind fun _ => .pure (some rid)
  | dynamicPrototype =>
    refine (follows_currentRecord tag).bind fun current => ?_
    cases current with
    | some rid => exact (Follows.pure rid).bind fun rid => follows_fill methods rid
    | none => exact (follows_createRecord tag).bind fun rid => follows_fill methods rid

theorem follows_layOut (strategy : Strategy) (fields : PropertyMap β) (methods : MethodTable β) :
    σ.Follows σ.properties (Model.layOut strategy fields methods)
      (Model.layOut strategy (σ.properties fields) (σ.methods methods)) := by
  rw [Model.layOut, Model.layOut]
  split
  · exact .pure fields
  · refine (follows_allocateAll methods.toList).bind fun copies => ?_
    rw [← properties_insertAll]
    exact .pure _

theorem follows_construct (strategy : Strategy) (fields : PropertyMap β) (methods : MethodTable β)
    (tag : String) :
    σ.Follows σ.object (Model.construct strategy fields methods tag)
      (Model.construct strategy (σ.properties fields) (σ.methods methods) tag) := by
  refine Follows.within ((follows_attach strategy methods tag).bind fun prototype =>
    (follows_layOut strategy fields methods).bind fun own => ?_) _
  have hsize : (σ.properties own).size = own.size := NameMap.size_map ..
  rw [hsize]
  exact (Follows.report _).bind fun _ => Follows.pure (g := σ.object) { own, prototype }

theorem follows_constructNamed (name : String) (fields : PropertyMap β) (methods : MethodTable β)
    (tag : String) :
    σ.Follows σ.object (Model.constructNamed name fields methods tag)
      (Model.constructNamed name (σ.properties fields) (σ.methods methods) tag) := by
  have hname : σ.Follows id (.consult fun _ => Strategy.ofName name)
      (.consult fun _ => Strategy.ofName name) :=
    .consult fun _ => by cases Strategy.ofName name <;> rfl
  exact hname.bind fun strategy => follows_construct strategy fields methods tag

/-- **Operations.** The mirrored operation does the same on the mirrored model, unless there is no room
for the record that the first one is to store. -/
theorem follows_operation (op : Operation β) :
    σ.Follows σ.product op.action (σ.operation op).action := by
  cases op with
  | construct strategy fields methods tag =>
    exact (follows_construct strategy fields methods tag).map fun _ => rfl
  | constructNamed name fields methods tag =>
    exact (follows_constructNamed name fields methods tag).map fun _ => rfl
  | createRecord tag => exact (follows_createRecord tag).map fun _ => rfl
  | setSlot rid name v => exact (follows_setSlot rid name v).map fun _ => rfl
  | mutateSharedSlot tag name v => exact (follows_mutateSharedSlot tag name v).map fun _ => rfl
  | relinkConstructor tag => exact (follows_relinkConstructor tag).map fun _ => rfl
  | replaceSlots rid slots => exact (follows_replaceSlots rid slots).map fun _ => rfl
  | replacePrototype tag methods => exact (follows_replacePrototype tag methods).map fun _ => rfl
  | replacePrototypeSlots tag slots =>
    exact (follows_replacePrototypeSlots tag slots).map fun _ => rfl
  | allocate name body => exact (Follows.allocate name body).map fun _ => rfl

end Mirror

end Delegation
