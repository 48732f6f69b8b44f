import Delegation.Proofs.RecordTable

/-!
# Replaying a journal

A journal tells how a model came to have its records. `Chronicle.read` follows the events one by one,
knowing nothing but what they say, and arrives at the number of records, the tag and the number of
writes of each, and the record of every tag. It stops at an event that does not fit: a record is stored
at the next place only, and a slot is set only in a record that was stored.

That no event is missing, and none too early, is a property that calls inherit from the calls they are
made of (`Action.Told`): it holds of a sequence if it holds of both parts, also when the first one is
refused, and of work within a span if it holds of the work. So the proof goes along the definitions of
the calls, and needs no list of cases. The same holds of the spans, each of which is closed by the call
that opened it. A write names the record that it has found, so what is told fits in sound states, and
calls lead from one sound state to another.
-/

namespace Delegation

variable {β α γ : Type}

/-! ## Following the events -/

/-- What events tell about a model. -/
structure Chronicle where
  /-- The tag of every record and the number of writes to its slots, by places. -/
  records : Array (String × Nat)
  /-- The place of the record of a tag. -/
  current : NameMap Nat

namespace Chronicle

def blank : Chronicle := { records := #[], current := ∅ }

/-- Goes on by one event, if it fits. -/
def add (c : Chronicle) : Event → Option Chronicle
  | .allocated place tag bound =>
    if place = c.records.size then
      some { records := c.records.push (tag, 0)
             current := if bound then c.current.insert tag place else c.current }
    else none
  | .slotSet place _ =>
    if place < c.records.size then
      some { c with records := c.records.modify place fun (tag, writes) => (tag, writes + 1) }
    else none
  | .populating _ | .constructed _ | .severed => some c

/-- Goes on by events in their order. -/
def read (c : Chronicle) : List Event → Option Chronicle
  | [] => some c
  | event :: events => (c.add event).bind (·.read events)

theorem read_append (c : Chronicle) (events later : List Event) :
    c.read (events ++ later) = (c.read events).bind (·.read later) := by
  induction events generalizing c with
  | nil => rfl
  | cons event events ih =>
    rw [List.cons_append, read, read, Option.bind_assoc]
    congr 1
    funext c'
    exact ih c'

theorem read_singleton (c : Chronicle) (event : Event) : c.read [event] = c.add event := by
  rw [read]
  cases c.add event <;> rfl

end Chronicle

namespace Model

/-- What there is to be told about a model. -/
def chronicle (m : Model β) : Chronicle :=
  { records := m.records.map fun r => (r.creatorTag, r.slotWrites)
    current := m.current.map (·.index.toNat) }

theorem chronicle_new (nonce : UInt32) (limits : Limits) :
    (Model.new nonce limits : Model β).chronicle = .blank := by
  rw [chronicle, new, Array.map_empty]
  rfl

theorem chronicle_push {m : Model β} {r : Record β} (hid : m.nextRecordId = .ok r.id)
    (hwrites : r.slotWrites = 0) (bind : Bool) :
    m.chronicle.add (.allocated r.id.index.toNat r.creatorTag bind) =
      some (m.push r bind).chronicle := by
  obtain ⟨-, hindex⟩ := nextRecordId_eq_ok hid
  have hplace : r.id.index.toNat = m.chronicle.records.size := by
    rw [hindex, chronicle, Array.size_map]
  rw [Chronicle.add, if_pos hplace, chronicle, chronicle]
  have hrecords : (m.records.map fun r => (r.creatorTag, r.slotWrites)).push (r.creatorTag, 0) =
      (m.push r bind).records.map fun r => (r.creatorTag, r.slotWrites) := by
    rw [records_push, Array.map_push, hwrites]
  rw [hrecords]
  cases bind with
  | false => rfl
  | true =>
    have hcurrent : (m.push r true).current = m.current.insert r.creatorTag r.id := rfl
    rw [hcurrent, NameMap.map_insert]
    rfl

theorem chronicle_modifyRecord {m : Model β} {id : RecordId} (hmodel : id.model = m.nonce)
    {f : Record β → Record β} {g : String × Nat → String × Nat}
    (hfg : ∀ r, ((f r).creatorTag, (f r).slotWrites) = g (r.creatorTag, r.slotWrites)) :
    (m.modifyRecord id f).chronicle =
      { m.chronicle with records := m.chronicle.records.modify id.index.toNat g } := by
  rw [modifyRecord, if_pos hmodel, chronicle, chronicle]
  congr 1
  apply Array.ext
  · simp
  · intro i hi hi'
    simp only [Array.getElem_map, Array.getElem_modify]
    split
    · exact hfg _
    · rfl

theorem chronicle_setSlot {m : Model β} {id : RecordId} {r : Record β} (hr : m.record? id = some r)
    (name : String) (value : Value (Method β)) :
    m.chronicle.add (.slotSet id.index.toNat name) =
      some (m.modifyRecord id fun r => r.setSlot name value).chronicle := by
  have hlt : id.index.toNat < m.chronicle.records.size := by
    rw [chronicle, Array.size_map]
    exact place_of_record? hr
  rw [Chronicle.add, if_pos hlt, chronicle_modifyRecord
    (g := fun (tag, writes) => (tag, writes + 1)) (model_of_record? hr) fun _ => rfl]

/-- A link is no news. -/
theorem chronicle_relink (m : Model β) (id : RecordId) :
    (m.modifyRecord id Record.relink).chronicle = m.chronicle := by
  by_cases hmodel : id.model = m.nonce
  · have hsame : m.chronicle.records.modify id.index.toNat (fun p => p) = m.chronicle.records := by
      apply Array.ext
      · simp
      · intro i hi hi'
        rw [Array.getElem_modify]
        split <;> rfl
    rw [chronicle_modifyRecord (f := Record.relink) (g := fun p => p) hmodel fun _ => rfl, hsame]
  · rw [modifyRecord, if_neg hmodel]

end Model

/-! ## Spans -/

namespace Journal

/-- The spans that are open after a journal, the innermost first, or nothing if it closes a span that
is not the innermost one. -/
def closing (spans : List Span) : Journal → Option (List Span)
  | [] => some spans
  | .opened span :: rest => closing (span :: spans) rest
  | .logged _ :: rest => closing spans rest
  | .closed span :: rest =>
    match spans with
    | [] => none
    | top :: outer => if top = span then closing outer rest else none

theorem closing_append (spans : List Span) (j k : Journal) :
    closing spans (j ++ k) = (closing spans j).bind (closing · k) := by
  induction j generalizing spans with
  | nil => rfl
  | cons entry j ih =>
    cases entry with
    | opened span => exact ih (span :: spans)
    | logged event => exact ih spans
    | closed span =>
      cases spans with
      | nil => rfl
      | cons top outer =>
        simp only [List.cons_append, closing]
        split
        · exact ih outer
        · rfl

theorem closing_wrap {span : Span} {j : Journal} (h : ∀ spans, closing spans j = some spans)
    (spans : List Span) : closing spans (.opened span :: j ++ [.closed span]) = some spans := by
  rw [List.cons_append, closing, closing_append, h, Option.bind_some, closing, if_pos rfl, closing]

/-- What happens after a journal happens in the spans that it leaves open. -/
theorem occurrencesWithin_append {spans spans' : List Span} {j : Journal}
    (h : closing spans j = some spans') (k : Journal) :
    occurrencesWithin spans.reverse (j ++ k) =
      occurrencesWithin spans.reverse j ++ occurrencesWithin spans'.reverse k := by
  induction j generalizing spans with
  | nil =>
    obtain rfl : spans = spans' := Option.some.inj h
    rfl
  | cons entry j ih =>
    cases entry with
    | opened span =>
      have hspans : spans.reverse ++ [span] = (span :: spans).reverse := List.reverse_cons.symm
      simp only [List.cons_append, occurrencesWithin, hspans]
      exact ih h
    | logged event =>
      simp only [List.cons_append, occurrencesWithin]
      rw [ih h]
    | closed span =>
      cases spans with
      | nil => cases h
      | cons top outer =>
        have hspans : (top :: outer).reverse.dropLast = outer.reverse := by simp
        simp only [closing] at h
        split at h
        · simp only [List.cons_append, occurrencesWithin, hspans]
          rw [ih h]
        · cases h

/-- Reports that are all of events happen in the spans that are open already. -/
theorem occurrencesWithin_logged {j : Journal} (h : ∀ entry ∈ j, ∃ event, entry = .logged event)
    (spans : List Span) (k : Journal) :
    occurrencesWithin spans (j ++ k) =
      (j.events.map fun event => ⟨.inl event, spans⟩) ++ occurrencesWithin spans k := by
  induction j with
  | nil => rfl
  | cons entry j ih =>
    obtain ⟨event, rfl⟩ := h entry List.mem_cons_self
    have hrest := ih fun entry hentry => h entry (List.mem_cons_of_mem _ hentry)
    simp only [List.cons_append, occurrencesWithin, hrest]
    rfl

theorem events_wrap (span : Span) (j : Journal) :
    events (.opened span :: j ++ [.closed span]) = events j := by
  simp [events]

end Journal

/-! ## Calls that tell all they do -/

namespace Action

/-- In sound states, the events of the call tell what it does to the model, which stays sound; and it
closes the spans that it opens, and no others. -/
structure Told (x : Action β α) : Prop where
  replayed : ∀ m : Model β, m.Sound →
    m.chronicle.read (x.run m).journal.events = some (x.run m).model.chronicle
  sound : ∀ m : Model β, m.Sound → (x.run m).model.Sound
  closed : ∀ m spans, (x.run m).journal.closing spans = some spans

theorem told_pure (a : α) : Told (pure a : Action β α) :=
  ⟨fun _ _ => rfl, fun _ hm => hm, fun _ _ => rfl⟩

theorem told_ask (f : Model β → α) : Told (ask f) := ⟨fun _ _ => rfl, fun _ hm => hm, fun _ _ => rfl⟩

theorem told_consult (f : Model β → Except Fault α) : Told (consult f) :=
  ⟨fun _ _ => rfl, fun _ hm => hm, fun _ _ => rfl⟩

theorem told_allocate (name : String) (body : β) : Told (allocate name body) :=
  ⟨fun _ _ => rfl, fun _ hm => hm.countMethods 1, fun _ _ => rfl⟩

/-- An event that is no news of records may be reported at any time. -/
theorem told_report {event : Event} (h : ∀ c : Chronicle, c.add event = some c) :
    Told (report event : Action β Unit) :=
  ⟨fun m _ => (Chronicle.read_singleton _ _).trans (h m.chronicle), fun _ hm => hm, fun _ _ => rfl⟩

theorem Told.bind {x : Action β α} {f : α → Action β γ} (hx : x.Told) (hf : ∀ a, (f a).Told) :
    (x >>= f).Told where
  replayed m hm := by
    have h := hx.replayed m hm
    have hm' := hx.sound m hm
    rw [run_bind]
    generalize x.run m = o at h hm' ⊢
    rcases o with ⟨_ | a, m', j⟩
    · exact h
    · rw [andThen_ok, Journal.events_append, Chronicle.read_append, h, Option.bind_some]
      exact (hf a).replayed m' hm'
  sound m hm := by
    have hm' := hx.sound m hm
    rw [run_bind]
    generalize x.run m = o at hm' ⊢
    rcases o with ⟨_ | a, m', j⟩
    · exact hm'
    · exact (hf a).sound m' hm'
  closed m spans := by
    have h := hx.closed m spans
    rw [run_bind]
    generalize x.run m = o at h ⊢
    rcases o with ⟨_ | a, m', j⟩
    · exact h
    · rw [andThen_ok, Journal.closing_append, h, Option.bind_some]
      exact (hf a).closed m' spans

theorem Told.map {x : Action β α} (h : x.Told) (f : α → γ) : (f <$> x).Told :=
  ⟨h.replayed, h.sound, h.closed⟩

theorem Told.within {x : Action β α} (h : x.Told) (span : Span) : (within span x).Told where
  replayed m hm := by
    rw [run_within, Outcome.wrap, Journal.events_wrap]
    exact h.replayed m hm
  sound := h.sound
  closed m := Journal.closing_wrap (h.closed m)

end Action

namespace Model

open Delegation.Action

theorem told_createRecord (tag : String) : (createRecord tag : Action β RecordId).Told where
  replayed m _ := by
    rw [run_createRecord]
    cases hid : m.nextRecordId with
    | error f => rfl
    | ok id =>
      exact (Chronicle.read_singleton _ _).trans (chronicle_push (r := .new id tag) hid rfl true)
  sound m hm := by
    rw [run_createRecord]
    cases hid : m.nextRecordId with
    | error f => exact hm
    | ok id => exact hm.push (r := .new id tag) true hid
  closed m spans := by
    rw [run_createRecord]
    cases m.nextRecordId <;> rfl

theorem told_setSlot (id : RecordId) (name : String) (value : Value (Method β)) :
    (setSlot id name value).Told where
  replayed m hm := by
    rw [run_setSlot]
    cases hr : m.record id with
    | error f => rfl
    | ok r =>
      have hr := record_eq_ok_iff.1 hr
      -- the record that was found is the one under the handle
      simp only [hm.id_eq hr]
      exact (Chronicle.read_singleton _ _).trans (chronicle_setSlot hr name value)
  sound m hm := hm.change (change_setSlot id name value m)
  closed m spans := by
    rw [run_setSlot]
    cases m.record id <;> rfl

theorem told_mutateSharedSlot (tag name : String) (value : Value (Method β)) :
    (mutateSharedSlot tag name value).Told :=
  (told_consult _).bind fun id => told_setSlot id name value

theorem told_relinkConstructor (tag : String) : (relinkConstructor tag : Action β Unit).Told where
  replayed m _ := by
    rw [run_relinkConstructor]
    cases m.recordForTag tag with
    | error f => rfl
    | ok id => exact congrArg some (chronicle_relink m id).symm
  sound m hm := hm.change (change_relinkConstructor tag m)
  closed m spans := by
    rw [run_relinkConstructor]
    cases m.recordForTag tag <;> rfl

/-- A replacement is told if it is stored under the next handle. -/
theorem replayed_storeReplacement {m : Model β} {new : RecordId} (hid : m.nextRecordId = .ok new)
    (tag : String) (old : Option RecordId) (slots : PropertyMap β) (bind : Bool) :
    m.chronicle.read ((storeReplacement tag old new slots bind).run m).journal.events =
      some ((storeReplacement tag old new slots bind).run m).model.chronicle := by
  have hpush := chronicle_push (r := .withSlots new tag slots) hid rfl bind
  rw [run_storeReplacement]
  show (m.chronicle.add (.allocated new.index.toNat tag bind)).bind _ = _
  rw [show m.chronicle.add (.allocated new.index.toNat tag bind) = _ from hpush]
  rfl

theorem closed_storeReplacement (m : Model β) (new : RecordId) (tag : String) (old : Option RecordId)
    (slots : PropertyMap β) (bind : Bool) (spans : List Span) :
    ((storeReplacement tag old new slots bind).run m).journal.closing spans = some spans := by
  rw [run_storeReplacement]
  exact Journal.closing_wrap (j := [.logged _, .logged _]) (fun _ => rfl) spans

theorem told_replaceSlots (id : RecordId) (slots : PropertyMap β) : (replaceSlots id slots).Told where
  replayed m _ := by
    rw [run_replaceSlots]
    cases m.record id with
    | error f => rfl
    | ok old =>
      cases hid : m.nextRecordId with
      | error f => rfl
      | ok new => exact replayed_storeReplacement hid ..
  sound m hm := hm.change (change_replaceSlots id slots m)
  closed m spans := by
    rw [run_replaceSlots]
    cases m.record id with
    | error f => rfl
    | ok old =>
      cases m.nextRecordId with
      | error f => rfl
      | ok new => exact closed_storeReplacement ..

theorem told_replacePrototypeSlots (tag : String) (slots : PropertyMap β) :
    (replacePrototypeSlots tag slots).Told where
  replayed m hm := by
    rw [run_replacePrototypeSlots]
    cases m.currentRecord tag with
    | some old => exact (told_replaceSlots old slots).replayed m hm
    | none =>
      cases hid : m.nextRecordId with
      | error f => rfl
      | ok new => exact replayed_storeReplacement hid ..
  sound m hm := hm.change (change_replacePrototypeSlots tag slots m)
  closed m spans := by
    rw [run_replacePrototypeSlots]
    cases m.currentRecord tag with
    | some old => exact (told_replaceSlots old slots).closed m spans
    | none =>
      cases m.nextRecordId with
      | error f => rfl
      | ok new => exact closed_storeReplacement ..

theorem told_allocateAll (bodies : List (String × β)) : (allocateAll bodies).Told := by
  induction bodies with
  | nil => exact told_pure _
  | cons p rest ih => exact (told_allocate p.1 p.2).bind fun _ => ih.map _

theorem told_replacePrototype (tag : String) (methods : MethodTable β) :
    (replacePrototype tag methods).Told :=
  (told_allocateAll _).bind fun _ => told_replacePrototypeSlots tag _

theorem told_writeMethods (id : RecordId) (bodies : List (String × β)) :
    (writeMethods id bodies).Told := by
  induction bodies with
  | nil => exact told_pure _
  | cons p rest ih =>
    exact (told_allocate p.1 p.2).bind fun f => (told_setSlot id p.1 (.method f)).bind fun _ => ih

theorem told_attach (strategy : Strategy) (methods : MethodTable β) (tag : String) :
    (attach strategy methods tag).Told := by
  have hmade : ∀ id, (do writeMethods id methods.toList; return some id : Action β _).Told :=
    fun id => (told_writeMethods id _).bind fun _ => told_pure _
  cases strategy with
  | factory | constructorOnly => exact told_pure none
  | constructorWithPrototype =>
    refine (told_ask _).bind fun current => ?_
    cases current with
    | some id => exact told_pure (some id)
    | none => exact (told_createRecord tag).bind hmade
  | dynamicPrototype =>
    -- the record is found or made, and then written if it is empty
    have hfill : ∀ id, (do
        let record ← .consult fun m => m.record id
        if record.isPopulated then return some id
        else
          .report (.populating id.index.toNat)
          writeMethods id methods.toList
          return some id : Action β _).Told := by
      intro id
      refine (told_consult _).bind fun record => ?_
      split
      · exact told_pure (some id)
      · exact (told_report fun _ => rfl).bind fun _ => hmade id
    refine (told_ask _).bind fun current => ?_
    cases current with
    | some id => exact (told_pure id).bind hfill
    | none => exact (told_createRecord tag).bind hfill

theorem told_layOut (strategy : Strategy) (fields : PropertyMap β) (methods : MethodTable β) :
    (layOut strategy fields methods).Told := by
  unfold layOut
  split
  · exact told_pure fields
  · exact (told_allocateAll _).bind fun copies => told_pure _

theorem told_construct (strategy : Strategy) (fields : PropertyMap β) (methods : MethodTable β)
    (tag : String) : (construct strategy fields methods tag).Told := by
  apply Told.within
  refine (told_attach strategy methods tag).bind fun prototype => ?_
  refine (told_layOut strategy fields methods).bind fun own => ?_
  exact (told_report fun _ => rfl).bind fun _ => told_pure _

/-- **Every operation tells what it does**, refused or not, in every sound state. -/
theorem told_action (op : Operation β) : op.action.Told := by
  cases op with
  | construct strategy fields methods tag => exact (told_construct strategy fields methods tag).map _
  | constructNamed name fields methods tag =>
    exact ((told_consult _).bind fun strategy => told_construct strategy fields methods tag).map _
  | createRecord tag => exact (told_createRecord tag).map _
  | setSlot id name value => exact (told_setSlot id name value).map _
  | mutateSharedSlot tag name value => exact (told_mutateSharedSlot tag name value).map _
  | relinkConstructor tag => exact (told_relinkConstructor tag).map _
  | replaceSlots id slots => exact (told_replaceSlots id slots).map _
  | replacePrototype tag methods => exact (told_replacePrototype tag methods).map _
  | replacePrototypeSlots tag slots => exact (told_replacePrototypeSlots tag slots).map _
  | allocate name body => exact (told_allocate name body).map _

end Model

end Delegation
