import Delegation.Proofs.RecordHistory
import Delegation.Proofs.Replay

/-!
# Faithful journals

`Model.journal` is all that a model reports during a history. Replayed from nothing, its events lead to
the records and bindings that the model has in the end (`replayed_after`).

What a single operation can report is said once, by `Reports`: a refused one opens and closes its span
at most, and an answered one has one of five forms. From it follows in which spans records are stored
(`spans_of_allocated`), and what a replacement looks like in the journal.
-/

namespace Delegation

variable {β : Type}

namespace Journal

theorem mem_events_iff {j : Journal} {event : Event} : event ∈ j.events ↔ .logged event ∈ j := by
  rw [events, List.mem_filterMap]
  constructor
  · rintro ⟨entry, hentry, he⟩
    cases entry with
    | logged event' =>
      obtain rfl := Option.some.inj he
      exact hentry
    | opened | closed => cases he
  · intro h
    exact ⟨_, h, rfl⟩

theorem occurrences_append {j : Journal} (h : closing [] j = some []) (k : Journal) :
    occurrences (j ++ k) = occurrences j ++ occurrences k :=
  occurrencesWithin_append h k

/-- The reports of a replacement of the record at place `old`, if there was one, by that at `new`. -/
def replacement (tag : String) (old : Option Nat) (new : Nat) (bound : Bool) : Journal := [
  .opened (.replaceSlots tag old new),
  .logged (.allocated new tag bound),
  .logged .severed,
  .closed (.replaceSlots tag old new)]

end Journal

/-- The entry is an event, and if a record was stored, it was one of the tag. -/
def Entry.LogsFor (tag : String) : Entry → Prop
  | .logged (.allocated _ tag' _) => tag' = tag
  | .logged _ => True
  | .opened _ | .closed _ => False

theorem Entry.LogsFor.exists_event {tag : String} {entry : Entry} (h : entry.LogsFor tag) :
    ∃ event, entry = .logged event := by
  cases entry with
  | logged event => exact ⟨event, rfl⟩
  | opened | closed => exact h.elim

/-- Whether an operation replaces a record by another one. -/
def Operation.isReplacement : Operation β → Bool
  | .replaceSlots .. | .replacePrototype .. | .replacePrototypeSlots .. => true
  | _ => false

theorem Operation.isReplacement_of_blueprint {op : Operation β} {b : Blueprint β}
    (hb : op.blueprint? = some b) : op.isReplacement = false := by
  cases op with
  | construct | constructNamed => rfl
  | _ => cases hb

namespace Model

/-! ## The journal of a history -/

/-- All that is reported during a history. -/
def journal (m : Model β) : List (Operation β) → Journal
  | [] => []
  | op :: history => (op.action.run m).journal ++ (m.afterOne op).journal history

theorem journal_append (m : Model β) (history later : List (Operation β)) :
    m.journal (history ++ later) = m.journal history ++ (m.after history).journal later := by
  induction history generalizing m with
  | nil => rfl
  | cons op history ih => simp only [List.cons_append, journal, ih, List.append_assoc, after_cons]

/-- The events of a history tell what it does to a model. -/
theorem replayed_after {m : Model β} (hm : m.Sound) (history : List (Operation β)) :
    m.chronicle.read (m.journal history).events = some (m.after history).chronicle := by
  induction history generalizing m with
  | nil => rfl
  | cons op history ih =>
    have hop := (told_action op).replayed m hm
    rw [journal, Journal.events_append, Chronicle.read_append, hop, Option.bind_some]
    exact ih (hm.afterOne op)

/-- No span is left open. -/
theorem closing_journal (m : Model β) (history : List (Operation β)) (spans : List Span) :
    (m.journal history).closing spans = some spans := by
  induction history generalizing m with
  | nil => rfl
  | cons op history ih =>
    have hop := (told_action op).closed m spans
    rw [journal, Journal.closing_append, hop, Option.bind_some]
    exact ih (m.afterOne op)

/-! ## What one operation reports -/

/-- The tag that a replacement is made for, and the record that is replaced, if there is one. -/
def replaced? (m : Model β) : Operation β → Option (String × Option RecordId)
  | .replaceSlots id _ => (m.record? id).map fun r => (r.creatorTag, some id)
  | .replacePrototype tag _ | .replacePrototypeSlots tag _ => some (tag, m.currentRecord tag)
  | _ => none

/-- The reports of an operation, and its answer. -/
inductive Reports (m : Model β) (op : Operation β) : Except Fault (Product β) → Journal → Prop where
  | refused (f : Fault) : Reports m op (.error f) []
  | refusedWithin (f : Fault) (span : Span) : Reports m op (.error f) [.opened span, .closed span]
  /-- A link is set, or a method is allocated. -/
  | quiet (p : Product β) (hop : op.isReplacement = false) : Reports m op (.ok p) []
  | written (p : Product β) (hop : op.isReplacement = false) (place : Nat) (name : String) :
      Reports m op (.ok p) [.logged (.slotSet place name)]
  | created (tag : String) (hop : op = .createRecord tag) (new : RecordId) :
      Reports m op (.ok (.record new)) [.logged (.allocated new.index.toNat tag true)]
  | replaced (tag : String) (old : Option RecordId) (hop : op.isReplacement = true)
      (hold : m.replaced? op = some (tag, old)) (new : RecordId) :
      Reports m op (.ok (.record new)) (.replacement tag (old.map (·.index.toNat)) new.index.toNat
        (decide (m.currentRecord tag = old)))
  /-- An instance is built, and at most a record of its tag is stored for it. -/
  | built (b : Blueprint β) (hb : op.blueprint? = some b) (i : Instance β) (j : Journal)
      (hlogs : ∀ entry ∈ j, entry.LogsFor b.tag) :
      Reports m op (.ok (.object i))
        (.opened (.construct b.strategy b.tag) :: j ++ [.closed (.construct b.strategy b.tag)])

theorem logsFor_writeJournal (id : RecordId) (methods : MethodTable β) (tag : String) :
    ∀ entry ∈ writeJournal id methods, entry.LogsFor tag := by
  intro entry h
  obtain ⟨p, -, rfl⟩ := List.mem_map.1 h
  trivial

/-- Attaching an instance reports events alone, and stores records of its own tag alone. -/
theorem Attached.logsFor {m : Model β} {strategy : Strategy} {methods : MethodTable β} {tag : String}
    {o : Outcome β (Option RecordId)} (h : Attached m strategy methods tag o) :
    ∀ entry ∈ o.journal, entry.LogsFor tag := by
  intro entry hentry
  cases h with
  | copying | found | full | dangling => cases hentry
  | populated id r =>
    rcases List.mem_cons.1 hentry with rfl | hentry
    · trivial
    · exact logsFor_writeJournal r.id methods tag entry hentry
  | made id =>
    rcases List.mem_cons.1 hentry with rfl | hentry
    · rfl
    rcases List.mem_append.1 hentry with hentry | hentry
    · split at hentry
      · obtain rfl := List.mem_singleton.1 hentry
        trivial
      · cases hentry
    · exact logsFor_writeJournal id methods tag entry hentry

theorem reports_of_blueprint {op : Operation β} {b : Blueprint β} (hb : op.blueprint? = some b)
    (m : Model β) : Reports m op (op.action.run m).answer (op.action.run m).journal := by
  rw [run_of_blueprint hb]
  cases hs : b.strategy.delegates with
  | false =>
    rw [run_build_of_copies hs]
    refine .built b hb _ [.logged (.constructed _)] fun entry h => ?_
    obtain rfl := List.mem_singleton.1 h
    trivial
  | true =>
    have hattached := (attached b.strategy b.methods b.tag m).logsFor
    have hrefused : ∀ f, ((attach b.strategy b.methods b.tag).run m).answer = .error f →
        ((attach b.strategy b.methods b.tag).run m).journal = [] := by
      intro f h
      have hcases := attached b.strategy b.methods b.tag m
      generalize (attach b.strategy b.methods b.tag).run m = o at hcases h
      cases hcases with
      | full | dangling => rfl
      | copying | found | populated | made => cases h
    rw [run_build_of_delegates hs]
    generalize (attach b.strategy b.methods b.tag).run m = o at hattached hrefused
    rcases o with ⟨f | prototype, m', j⟩
    · obtain rfl : j = [] := hrefused f rfl
      exact .refusedWithin f _
    · refine .built b hb _ (j ++ [.logged (.constructed _)]) fun entry h => ?_
      rcases List.mem_append.1 h with h | h
      · exact hattached entry h
      · obtain rfl := List.mem_singleton.1 h
        trivial

theorem reports_setSlot {op : Operation β} (hop : op.isReplacement = false) (id : RecordId)
    (name : String) (value : Value (Method β)) (m : Model β) :
    let o := ((setSlot id name value).run m).map fun _ => Product.nothing
    Reports m op o.answer o.journal := by
  rw [run_setSlot]
  cases m.record id with
  | error f => exact .refused f
  | ok r => exact .written .nothing hop _ _

/-- A tag's prototype may be replaced in a state that has methods allocated for it already. -/
theorem reports_replacePrototypeSlots {m k : Model β} (hk : k.Sound) {op : Operation β}
    {tag : String} (hcur : k.currentRecord tag = m.currentRecord tag)
    (hop : op.isReplacement = true) (hold : m.replaced? op = some (tag, m.currentRecord tag))
    (slots : PropertyMap β) :
    let o := ((replacePrototypeSlots tag slots).run k).map Product.record
    Reports m op o.answer o.journal := by
  rw [run_replacePrototypeSlots_of_sound hk, hcur]
  cases k.nextRecordId with
  | error f => exact .refused f
  | ok new =>
    have h := Reports.replaced tag (m.currentRecord tag) hop hold new
    rw [decide_eq_true rfl] at h
    exact h

/-- **Reports.** What operations report in sound states. -/
theorem reports {m : Model β} (hm : m.Sound) (op : Operation β) :
    Reports m op (op.action.run m).answer (op.action.run m).journal := by
  cases op with
  | construct strategy fields methods tag => exact reports_of_blueprint rfl m
  | constructNamed name fields methods tag =>
    have hop : (Operation.constructNamed name fields methods tag).isConstruction = true := rfl
    rcases blueprint_or_refused hop m with ⟨b, hb⟩ | ⟨-, f, hrun⟩
    · exact reports_of_blueprint hb m
    · rw [hrun]
      exact .refused f
  | createRecord tag =>
    simp only [Operation.action, Action.run_map, run_createRecord]
    cases m.nextRecordId with
    | error f => exact .refused f
    | ok new => exact .created tag rfl new
  | setSlot id name value => exact reports_setSlot rfl id name value m
  | mutateSharedSlot tag name value =>
    simp only [Operation.action, Action.run_map, run_mutateSharedSlot]
    cases m.recordForTag tag with
    | error f => exact .refused f
    | ok id => exact reports_setSlot rfl id name value m
  | relinkConstructor tag =>
    simp only [Operation.action, Action.run_map, run_relinkConstructor]
    cases m.recordForTag tag with
    | error f => exact .refused f
    | ok id =>
      simp only [Outcome.map]
      cases m.record id with
      | error f => exact .refused f
      | ok r => exact .quiet .nothing rfl
  | replaceSlots id slots =>
    simp only [Operation.action, Action.run_map, run_replaceSlots]
    cases hr : m.record id with
    | error f => exact .refused f
    | ok r =>
      have hold : m.replaced? (.replaceSlots id slots) = some (r.creatorTag, some id) := by
        rw [replaced?, record_eq_ok_iff.1 hr, Option.map_some]
      cases m.nextRecordId with
      | error f => exact .refused f
      | ok new => exact .replaced r.creatorTag (some id) rfl hold new
  | replacePrototype tag methods =>
    simp only [Operation.action, Action.run_map, run_replacePrototype]
    exact reports_replacePrototypeSlots (m := m) (hm.countMethods _) rfl rfl rfl _
  | replacePrototypeSlots tag slots => exact reports_replacePrototypeSlots hm rfl rfl rfl slots
  | allocate name body => exact .quiet (.method _) rfl

/-- **Refused calls are silent.** -/
theorem Reports.silent {m : Model β} {op : Operation β} {f : Fault} {j : Journal}
    (h : Reports m op (.error f) j) : j.events = [] := by
  cases h with
  | refused | refusedWithin => rfl

/-- **Where records are stored**: while an instance of their tag is built, or a record of their tag is
replaced, or, if the call is for just that, in no span at all. -/
theorem Reports.spans_of_allocated {m : Model β} {op : Operation β}
    {answer : Except Fault (Product β)} {j : Journal} (h : Reports m op answer j)
    {place : Nat} {tag : String} {bound : Bool} {spans : List Span}
    (hmem : ⟨.inl (.allocated place tag bound), spans⟩ ∈ j.occurrences) :
    op = .createRecord tag ∧ spans = [] ∨
      (∀ tag', op ≠ .createRecord tag') ∧
        ((∃ strategy, spans = [.construct strategy tag]) ∨
          ∃ old, spans = [.replaceSlots tag old place]) := by
  cases h with
  | refused | quiet => cases hmem
  | refusedWithin | written => simp [Journal.occurrences, Journal.occurrencesWithin] at hmem
  | created tag' hop new =>
    obtain ⟨⟨-, rfl, -⟩, rfl⟩ : (_ ∧ tag = tag' ∧ _) ∧ spans = [] := by
      simpa [Journal.occurrences, Journal.occurrencesWithin] using hmem
    exact .inl ⟨hop, rfl⟩
  | replaced tag' old hop _ new =>
    obtain ⟨⟨rfl, rfl, -⟩, rfl⟩ :
        (place = new.index.toNat ∧ tag = tag' ∧ _) ∧
          spans = [.replaceSlots tag' (old.map (·.index.toNat)) new.index.toNat] := by
      simpa [Journal.replacement, Journal.occurrences, Journal.occurrencesWithin] using hmem
    refine .inr ⟨?_, .inr ⟨_, rfl⟩⟩
    rintro tag' rfl
    cases hop
  | built b hb i j hlogs =>
    have hocc : Journal.occurrences
        (.opened (.construct b.strategy b.tag) :: j ++ [.closed (.construct b.strategy b.tag)]) =
          (j.events.map fun event => ⟨.inl event, [.construct b.strategy b.tag]⟩) ++
            [⟨.inr (.construct b.strategy b.tag), []⟩] :=
      Journal.occurrencesWithin_logged (fun entry h => (hlogs entry h).exists_event) _ _
    rw [hocc] at hmem
    rcases List.mem_append.1 hmem with hmem | hmem
    · obtain ⟨event, hevent, he⟩ := List.mem_map.1 hmem
      obtain ⟨rfl, rfl⟩ : event = .allocated place tag bound ∧
          [Span.construct b.strategy b.tag] = spans := by simpa using he
      obtain rfl : tag = b.tag := hlogs _ (Journal.mem_events_iff.1 hevent)
      refine .inr ⟨?_, .inl ⟨_, rfl⟩⟩
      rintro tag' rfl
      cases hb
    · simp at hmem

/-! ## The whole journal -/

/-- **Faithful journals.** Whatever the history, its events, replayed from nothing, lead to the number
of records that the model has in the end, to their tags and numbers of writes, and to the record of
each tag. In the journal the reports of each operation stand in a row, in spans that it opened itself
and closes again. A refused operation logs no event; a record is stored in a span of its own tag, or in
none by the call that does just that; and a replacement stores one record and severs it. -/
theorem journal_faithful (nonce : UInt32) (limits : Limits) (history : List (Operation β)) :
    let start : Model β := .new nonce limits
    (let m := start.after history
      ∃ c : Chronicle, Chronicle.blank.read (start.journal history).events = some c ∧
        c.records.size = m.recordCount ∧
        (∀ j : Nat, c.records[j]? = m.records[j]?.map fun r => (r.creatorTag, r.slotWrites)) ∧
        ∀ tag, m.currentRecord tag =
          (c.current.get? tag).map fun j => .ofParts (UInt32.ofNat j) nonce) ∧
    ∀ before op later, history = before ++ op :: later →
      let m := start.after before
      let o := op.action.run m
      ((start.journal history).occurrences = (start.journal before).occurrences ++
        o.journal.occurrences ++ (o.model.journal later).occurrences) ∧
      (∀ spans, o.journal.closing spans = some spans) ∧
      (∀ f, o.answer = .error f → o.journal.events = []) ∧
      (∀ place tag bound spans,
        ⟨.inl (.allocated place tag bound), spans⟩ ∈ o.journal.occurrences →
          op = .createRecord tag ∧ spans = [] ∨
            (∀ tag', op ≠ .createRecord tag') ∧
              ((∃ strategy, spans = [.construct strategy tag]) ∨
                ∃ old, spans = [.replaceSlots tag old place])) ∧
      (op.isReplacement = true → ∀ p, o.answer = .ok p →
        ∃ tag old new, m.replaced? op = some (tag, old) ∧ p = .record new ∧
          o.journal = .replacement tag (old.map (·.index.toNat)) new.index.toNat
            (decide (m.currentRecord tag = old))) := by
  intro start
  refine ⟨?_, ?_⟩
  · intro m
    have hm : m.Sound := sound_after nonce limits history
    have hread : Chronicle.blank.read (start.journal history).events = some m.chronicle :=
      chronicle_new nonce limits ▸ replayed_after (sound_new nonce limits) history
    refine ⟨m.chronicle, hread, Array.size_map, fun j => Array.getElem?_map, fun tag => ?_⟩
    have hcur : m.chronicle.current.get? tag = (m.currentRecord tag).map (·.index.toNat) :=
      NameMap.get?_map ..
    have hparts : ∀ id, m.currentRecord tag = some id →
        id = .ofParts (UInt32.ofNat id.index.toNat) nonce := by
      intro id hid
      obtain ⟨r, hr, -⟩ := hm.bound tag id hid
      have hmodel : id.model = nonce :=
        (model_of_record? hr).trans (extends_after start history).nonce_eq
      apply RecordId.eq_of_parts
      · rw [RecordId.index_ofParts, UInt32.ofNat_toNat]
      · rw [RecordId.model_ofParts, hmodel]
    rw [hcur]
    cases hid : m.currentRecord tag with
    | none => rfl
    | some id => exact congrArg some (hparts id hid)
  · rintro before op later rfl m o
    have hm : m.Sound := sound_after nonce limits before
    have hreports : Reports m op o.answer o.journal := reports hm op
    have hclosed := (told_action op).closed m
    refine ⟨?_, hclosed, ?_, ?_, ?_⟩
    · rw [journal_append, journal, Journal.occurrences_append (closing_journal ..),
        Journal.occurrences_append (hclosed []), List.append_assoc]
      rfl
    · intro f hf
      rw [hf] at hreports
      exact hreports.silent
    · intro place tag bound spans hmem
      exact hreports.spans_of_allocated hmem
    · intro hop p hp
      rw [hp] at hreports
      generalize o.journal = j at hreports
      cases hreports with
      | replaced tag old _ hold new => exact ⟨tag, old, new, hold, rfl, rfl⟩
      | quiet _ hop' | written _ hop' => simp [hop] at hop'
      | created _ hop' => simp [hop', Operation.isReplacement] at hop
      | built b hb => simp [Operation.isReplacement_of_blueprint hb] at hop

end Model

end Delegation
