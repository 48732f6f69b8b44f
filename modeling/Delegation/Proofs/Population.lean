import Delegation.Proofs.RecordHistory
import Delegation.Proofs.Writes

/-!
# Filling a record with methods

A construction puts its methods into the tag's record only if it makes the record, or if its strategy
fills empty ones and finds the record empty (`Filled`). A record never loses its last slot, because
every write in place adds a slot or overwrites one (`isPopulated_rewrites`). So after a
record has been filled with at least one method no construction fills it again, and
`populated_at_most_once` says what that means for a whole history.
-/

namespace Delegation

variable {β : Type}

/-- The name of the slot that an event sets in the record at a place. -/
def Event.slotAt? (place : Nat) : Event → Option String
  | .slotSet place' name => if place' = place then some name else none
  | _ => none

/-- The names of the slots that were set in the record at a place, in order. -/
def Journal.slotsSet (place : Nat) (j : Journal) : List String :=
  j.events.filterMap (·.slotAt? place)

namespace Record

theorem slotWrites_setSlots (r : Record β) (ps : List (String × Value (Method β))) :
    (r.setSlots ps).slotWrites = r.slotWrites + ps.length := by
  induction ps generalizing r with
  | nil => rfl
  | cons p ps ih => rw [setSlots_cons, ih, slotWrites_setSlot, List.length_cons]; omega

theorem isPopulated_eq_false_iff {r : Record β} : r.isPopulated = false ↔ r.slots = ∅ := by
  rw [isPopulated, Bool.not_eq_false', NameMap.isEmpty_iff]

theorem slots_of_not_populated {r : Record β} (h : r.isPopulated = false) : r.slots = ∅ :=
  isPopulated_eq_false_iff.1 h

theorem isPopulated_iff {r : Record β} : r.isPopulated = true ↔ r.slots ≠ ∅ := by
  rw [isPopulated, ne_eq, ← NameMap.isEmpty_iff, Bool.not_eq_true', Bool.not_eq_true]

end Record

namespace Model

/-- How many slots of the record under a handle have been written in place. -/
def slotWrites (m : Model β) (id : RecordId) : Nat := (m.record? id).elim 0 (·.slotWrites)

/-! ## A record keeps having slots -/

theorem isPopulated_rewrites (m : Model β) (op : Operation β) (id : RecordId) {r : Record β}
    (h : r.isPopulated = true) : (op.rewrites m id r).isPopulated = true := by
  have hwritten : ∀ ps, (r.setSlots ps).isPopulated = true := by
    intro ps
    induction ps generalizing r with
    | nil => exact h
    | cons p ps ih => exact ih (Record.isPopulated_setSlot ..)
  rcases rewrites_eq m op id r with ⟨ps, e⟩ | e
  · rw [e]
    exact hwritten ps
  · rw [e]
    exact h

theorem isPopulated_after {m : Model β} {id : RecordId} {r : Record β} (hr : m.record? id = some r)
    (hp : r.isPopulated = true) (history : List (Operation β)) :
    ∃ r', (m.after history).record? id = some r' ∧ r'.isPopulated = true := by
  induction history generalizing m r with
  | nil => exact ⟨r, hr, hp⟩
  | cons op history ih => exact ih (record?_afterOne hr op) (isPopulated_rewrites m op id hp)

/-! ## What a construction does -/

/-- A construction that fills the record under a handle: it made the record, or found it empty. The
record has the slots of these methods and no others, and each of them was written once. -/
structure Filled (m : Model β) (b : Blueprint β) (id : RecordId) (o : Outcome β (Instance β)) :
    Prop where
  answer : o.answer = .ok { own := b.fields, prototype := some id }
  vacant : m.record? id = none ∨
    b.strategy = .dynamicPrototype ∧ ∃ r, m.record? id = some r ∧ r.isPopulated = false
  stored : ∃ r, o.model.record? id = some r ∧
    r.slots = .ofList (m.nextMethods b.methods.toList) ∧
    r.slotWrites = m.slotWrites id + b.methods.size
  others : ∀ id', id' ≠ id → o.model.record? id' = m.record? id'
  events : o.journal.events =
    (if m.record? id = none then [.allocated id.index.toNat b.tag true] else []) ++
    (if b.strategy = .dynamicPrototype then [.populating id.index.toNat] else []) ++
    (b.methods.keys.map fun name => .slotSet id.index.toNat name) ++ [.constructed b.fields.size]

/-- A construction that fills no record. -/
structure Spared (m : Model β) (o : Outcome β (Instance β)) : Prop where
  records : ∀ id, o.model.record? id = m.record? id
  events : ∀ event ∈ o.journal.events, ∃ own, event = .constructed own

/-- After the instance has been attached, nothing more is done to the model. -/
theorem run_build_of_attach {m m' : Model β} {b : Blueprint β} {prototype : Option RecordId}
    {j : Journal} (hs : b.strategy.delegates = true)
    (h : (attach b.strategy b.methods b.tag).run m =
      { answer := .ok prototype, model := m', journal := j }) :
    (build b).run m =
      { answer := .ok { own := b.fields, prototype }
        model := m'
        journal := .opened (.construct b.strategy b.tag) ::
          (j ++ [.logged (.constructed b.fields.size)]) ++ [.closed (.construct b.strategy b.tag)] } := by
  rw [run_build_of_delegates hs, h]
  rfl

theorem events_around (span : Span) (j : Journal) (own : Nat) :
    Journal.events (.opened span :: (j ++ [.logged (.constructed own)]) ++ [.closed span]) =
      j.events ++ [.constructed own] := by
  simp [Journal.events]

theorem events_writeJournal (id : RecordId) (methods : MethodTable β) :
    Journal.events (writeJournal id methods) =
      methods.keys.map fun name => .slotSet id.index.toNat name := by
  unfold writeJournal NameMap.keys
  induction methods.toList with
  | nil => rfl
  | cons p rest ih => exact congrArg (Event.slotSet id.index.toNat p.1 :: ·) ih

theorem length_nextMethods (m : Model β) (bodies : List (String × β)) :
    (m.nextMethods bodies).length = bodies.length := by
  have h := congrArg List.length (map_fst_nextMethods m bodies)
  rwa [List.length_map, List.length_map] at h

/-- The methods written into a record without slots are all its slots. -/
theorem slots_filled {m : Model β} {r : Record β} (hempty : r.isPopulated = false)
    (methods : MethodTable β) :
    (r.setSlots (m.nextMethods methods.toList)).slots = .ofList (m.nextMethods methods.toList) := by
  rw [Record.slots_setSlots, Record.slots_of_not_populated hempty]
  rfl

theorem slotWrites_filled {m : Model β} (r : Record β) (methods : MethodTable β) :
    (r.setSlots (m.nextMethods methods.toList)).slotWrites = r.slotWrites + methods.size := by
  rw [Record.slotWrites_setSlots, length_nextMethods]
  rfl

/-- **Constructions.** A construction fills one record or none. -/
theorem filled_or_spared (b : Blueprint β) {m : Model β} (hm : m.Sound) :
    (∃ id, Filled m b id ((build b).run m)) ∨ Spared m ((build b).run m) := by
  cases hs : b.strategy.delegates with
  | false =>
    right
    rw [run_build_of_copies hs]
    exact ⟨fun _ => rfl, fun event he => ⟨_, List.mem_singleton.1 he⟩⟩
  | true =>
    have hattach := attached b.strategy b.methods b.tag m
    generalize ho : (attach b.strategy b.methods b.tag).run m = o at hattach
    cases hattach with
    | copying hs' => simp [hs] at hs'
    | found id _ hcur hleft =>
      right
      rw [run_build_of_attach hs ho]
      exact ⟨fun _ => rfl, fun event he => ⟨_, List.mem_singleton.1 he⟩⟩
    | populated id r hdyn hcur hr hempty =>
      left
      rw [run_build_of_attach hs ho]
      refine ⟨id, ?_⟩
      constructor
      case answer => rfl
      case vacant => exact .inr ⟨hdyn, r, hr, hempty⟩
      case stored =>
        refine ⟨r.setSlots (m.nextMethods b.methods.toList), ?_, slots_filled hempty _, ?_⟩
        · rw [record?_countMethods, record?_modifyRecord, if_pos rfl, hr, Option.map_some]
        · rw [slotWrites_filled, slotWrites, hr, Option.elim_some]
      case others =>
        intro id' hne
        rw [record?_countMethods, record?_modifyRecord, if_neg hne]
      case events =>
        rw [hm.id_eq hr, events_around, if_neg (by simp [hr]), if_pos hdyn, ← events_writeJournal]
        rfl
    | made id _ hcur hid =>
      left
      rw [run_build_of_attach hs ho]
      have hnone := record?_of_nextRecordId hid
      have hnew : m.nextRecordId =
          .ok ((Record.new id b.tag).setSlots (m.nextMethods b.methods.toList)).id := by simpa using hid
      refine ⟨id, ?_⟩
      constructor
      case answer => rfl
      case vacant => exact .inl hnone
      case stored =>
        refine ⟨(Record.new id b.tag).setSlots (m.nextMethods b.methods.toList), ?_,
          slots_filled rfl _, ?_⟩
        · rw [record?_countMethods, record?_push hnew, if_pos (by simp)]
        · rw [slotWrites_filled, slotWrites, hnone, Option.elim_none]
          rfl
      case others =>
        intro id' hne
        rw [record?_countMethods, record?_push hnew, if_neg (by simpa using hne)]
      case events =>
        rw [events_around, if_pos hnone, ← events_writeJournal]
        split <;> simp [Journal.events]
    | full f _ hcur hid =>
      right
      rw [run_build_of_delegates hs, ho]
      exact ⟨fun _ => rfl, fun event he => nomatch he⟩
    | dangling id f _ hcur hr =>
      right
      rw [run_build_of_delegates hs, ho]
      exact ⟨fun _ => rfl, fun event he => nomatch he⟩

namespace Filled

variable {m : Model β} {b : Blueprint β} {id : RecordId} {o : Outcome β (Instance β)}

theorem slotsSet (h : Filled m b id o) : o.journal.slotsSet id.index.toNat = b.methods.keys := by
  have hall : (b.methods.keys.map fun name => Event.slotSet id.index.toNat name).filterMap
      (·.slotAt? id.index.toNat) = b.methods.keys := by
    induction b.methods.keys with
    | nil => rfl
    | cons name names ih =>
      have hfirst : (Event.slotSet id.index.toNat name).slotAt? id.index.toNat = some name :=
        if_pos rfl
      rw [List.map_cons, List.filterMap_cons_some hfirst, ih]
  have hmade : (if m.record? id = none then [Event.allocated id.index.toNat b.tag true]
      else []).filterMap (·.slotAt? id.index.toNat) = [] := by
    split <;> rfl
  have hfilling : (if b.strategy = .dynamicPrototype then [Event.populating id.index.toNat]
      else []).filterMap (·.slotAt? id.index.toNat) = [] := by
    split <;> rfl
  rw [Journal.slotsSet, h.events, List.filterMap_append, List.filterMap_append,
    List.filterMap_append, hall, hmade, hfilling]
  simp [Event.slotAt?]

theorem eq_of_populating (h : Filled m b id o) {place : Nat}
    (hp : .populating place ∈ o.journal.events) :
    b.strategy = .dynamicPrototype ∧ place = id.index.toNat := by
  rw [h.events] at hp
  simp only [List.mem_append, List.mem_map, List.mem_singleton] at hp
  rcases hp with ((hp | hp) | ⟨name, -, hp⟩) | hp
  · split at hp <;> simp at hp
  · split at hp
    next hdyn => exact ⟨hdyn, by simpa using hp⟩
    next => cases hp
  · cases hp
  · cases hp

/-- The handle of a filled record is one of the model. -/
theorem model_eq (h : Filled m b id ((build b).run m)) : id.model = m.nonce := by
  obtain ⟨r, hr, -⟩ := h.stored
  have hnonce := (extends_of_change (change_build b m)).nonce_eq
  exact (model_of_record? hr).trans hnonce

/-- A record filled with any methods has slots. -/
theorem isPopulated (h : Filled m b id o) (hne : b.methods.isEmpty = false) :
    ∃ r, o.model.record? id = some r ∧ r.isPopulated = true := by
  obtain ⟨r, hr, hslots, -⟩ := h.stored
  refine ⟨r, hr, ?_⟩
  have hlength := length_nextMethods m b.methods.toList
  have hsome : m.nextMethods b.methods.toList ≠ [] := by
    intro hnil
    rw [hnil, List.length_nil, eq_comm, List.length_eq_zero_iff] at hlength
    rw [NameMap.isEmpty, hlength] at hne
    cases hne
  rw [Record.isPopulated, hslots, NameMap.ofList, NameMap.isEmpty_insertAll]
  simp [hsome]

end Filled

/-! ## Whole histories -/

theorem after_take_succ (m : Model β) {history : List (Operation β)} {k : Nat} {op : Operation β}
    (h : history[k]? = some op) :
    m.after (history.take (k + 1)) = (m.after (history.take k)).afterOne op := by
  rw [List.take_add_one, h, after_append]
  rfl

theorem exists_after_take_of_le (m : Model β) (history : List (Operation β)) {k k' : Nat}
    (hle : k ≤ k') :
    ∃ rest, m.after (history.take k') = (m.after (history.take k)).after rest := by
  refine ⟨(history.take k').drop k, ?_⟩
  have htake : history.take k = (history.take k').take k := by rw [List.take_take, Nat.min_eq_left hle]
  rw [htake, ← after_append, List.take_append_drop]

/-- Whether an operation is a construction that writes a slot of the record under a handle: the
record counts a write, or a slot shows something else. -/
def ConstructsInto (m : Model β) (op : Operation β) (id : RecordId) : Prop :=
  op.isConstruction = true ∧
    ((m.afterOne op).slotWrites id ≠ m.slotWrites id ∨ (m.afterOne op).slot? id ≠ m.slot? id)

theorem not_written_of_record?_eq {m m' : Model β} {id : RecordId}
    (h : m'.record? id = m.record? id) :
    ¬ (m'.slotWrites id ≠ m.slotWrites id ∨ m'.slot? id ≠ m.slot? id) := by
  have hwrites : m'.slotWrites id = m.slotWrites id := by rw [slotWrites, h, slotWrites]
  have hslots : m'.slot? id = m.slot? id := by
    funext name
    rw [slot?, h, slot?]
  simp [hwrites, hslots]

/-- Filling a record with no methods writes nothing. -/
theorem Filled.not_written {m : Model β} {b : Blueprint β} {id : RecordId}
    {o : Outcome β (Instance β)} (h : Filled m b id o) (hempty : b.methods.isEmpty = true) :
    ¬ (o.model.slotWrites id ≠ m.slotWrites id ∨ o.model.slot? id ≠ m.slot? id) := by
  obtain ⟨r, hr, hslots, hcount⟩ := h.stored
  rw [(NameMap.isEmpty_iff b.methods).1 hempty] at hslots hcount
  have hwrites : o.model.slotWrites id = m.slotWrites id := by
    rw [slotWrites, hr, Option.elim_some, hcount]
    rfl
  have hslot : o.model.slot? id = m.slot? id := by
    funext name
    have hafter : o.model.slot? id name = none := by
      rw [slot?, hr, Option.bind_some, hslots]
      rfl
    have hbefore : m.slot? id name = none := by
      rcases h.vacant with hnone | ⟨-, r₀, hr₀, hempty₀⟩
      · rw [slot?, hnone, Option.bind_none]
      · rw [slot?, hr₀, Option.bind_some, Record.slots_of_not_populated hempty₀]
        rfl
    rw [hafter, hbefore]
  simp [hwrites, hslot]

/-- A construction that writes a slot of a record fills it, and with some method. -/
theorem ConstructsInto.filled {m : Model β} (hm : m.Sound) {op : Operation β} {id : RecordId}
    (h : m.ConstructsInto op id) :
    ∃ b, op.blueprint? = some b ∧ b.methods.isEmpty = false ∧
      Filled m b id ((build b).run m) := by
  obtain ⟨hop, hwrites⟩ := h
  rcases blueprint_or_refused hop m with ⟨b, hb⟩ | ⟨-, f, hrun⟩
  · rw [afterOne_of_blueprint hb] at hwrites
    rcases filled_or_spared b hm with ⟨id', hfilled⟩ | hspared
    · obtain rfl : id = id' := Classical.byContradiction fun hne =>
        not_written_of_record?_eq (hfilled.others id hne) hwrites
      have hsome : b.methods.isEmpty ≠ true := fun hempty => hfilled.not_written hempty hwrites
      exact ⟨b, hb, Bool.not_eq_true _ ▸ hsome, hfilled⟩
    · exact absurd hwrites (not_written_of_record?_eq (hspared.records id))
  · rw [afterOne, hrun] at hwrites
    exact absurd hwrites (not_written_of_record?_eq rfl)

/-! ### What other calls log -/

theorem populating_not_mem_setSlot (id : RecordId) (name : String) (value : Value (Method β))
    (m : Model β) (place : Nat) :
    .populating place ∉ ((setSlot id name value).run m).journal.events := by
  rw [run_setSlot]
  cases m.record id <;> simp [Journal.events]

theorem populating_not_mem_mutateSharedSlot (tag name : String) (value : Value (Method β))
    (m : Model β) (place : Nat) :
    .populating place ∉ ((mutateSharedSlot tag name value).run m).journal.events := by
  rw [run_mutateSharedSlot]
  cases m.recordForTag tag with
  | error f => simp [Journal.events]
  | ok id => exact populating_not_mem_setSlot id name value m place

theorem populating_not_mem_replaceSlots (id : RecordId) (slots : PropertyMap β) (m : Model β)
    (place : Nat) : .populating place ∉ ((replaceSlots id slots).run m).journal.events := by
  rw [run_replaceSlots]
  cases m.record id with
  | error f => simp [Journal.events]
  | ok old => cases m.nextRecordId <;> simp [run_storeReplacement, Journal.events]

theorem populating_not_mem_replacePrototypeSlots (tag : String) (slots : PropertyMap β)
    (m : Model β) (place : Nat) :
    .populating place ∉ ((replacePrototypeSlots tag slots).run m).journal.events := by
  rw [run_replacePrototypeSlots]
  cases m.currentRecord tag with
  | some old => exact populating_not_mem_replaceSlots old slots m place
  | none => cases m.nextRecordId <;> simp [run_storeReplacement, Journal.events]

theorem populating_not_mem_createRecord (tag : String) (m : Model β) (place : Nat) :
    .populating place ∉ ((createRecord tag).run m).journal.events := by
  rw [run_createRecord]
  cases m.nextRecordId <;> simp [Journal.events]

theorem populating_not_mem_relinkConstructor (tag : String) (m : Model β) (place : Nat) :
    .populating place ∉ ((relinkConstructor tag).run m).journal.events := by
  rw [run_relinkConstructor]
  cases m.recordForTag tag <;> simp [Journal.events]

/-- An operation that logs the filling of a record is a construction that fills it. -/
theorem filled_of_populating {m : Model β} (hm : m.Sound) {op : Operation β} {place : Nat}
    (h : .populating place ∈ (op.action.run m).journal.events) :
    ∃ b id, op.blueprint? = some b ∧ b.strategy = .dynamicPrototype ∧ id.index.toNat = place ∧
      Filled m b id ((build b).run m) := by
  have hop : op.isConstruction = true := by
    cases op with
    | construct | constructNamed => rfl
    | createRecord tag => exact absurd h (populating_not_mem_createRecord tag m place)
    | setSlot id name value => exact absurd h (populating_not_mem_setSlot id name value m place)
    | mutateSharedSlot tag name value =>
      exact absurd h (populating_not_mem_mutateSharedSlot tag name value m place)
    | relinkConstructor tag => exact absurd h (populating_not_mem_relinkConstructor tag m place)
    | replaceSlots old slots => exact absurd h (populating_not_mem_replaceSlots old slots m place)
    | replacePrototypeSlots tag slots =>
      exact absurd h (populating_not_mem_replacePrototypeSlots tag slots m place)
    | replacePrototype tag methods =>
      change _ ∈ ((replacePrototype tag methods).run m).journal.events at h
      rw [run_replacePrototype] at h
      exact absurd h (populating_not_mem_replacePrototypeSlots tag _ _ place)
    | allocate name body => cases h
  rcases blueprint_or_refused hop m with ⟨b, hb⟩ | ⟨-, f, hrun⟩
  · rw [run_of_blueprint hb] at h
    rcases filled_or_spared b hm with ⟨id, hfilled⟩ | hspared
    · obtain ⟨hdyn, hplace⟩ := hfilled.eq_of_populating h
      exact ⟨b, id, hb, hdyn, hplace.symm, hfilled⟩
    · obtain ⟨own, he⟩ := hspared.events _ h
      cases he
  · rw [hrun] at h
    cases h

/-- A construction attached to a record with slots leaves the model as it is, and says nothing. -/
theorem build_of_populated {m : Model β} (hm : m.Sound) {b : Blueprint β} {i : Instance β}
    {id : RecordId} {r : Record β} (h : ((build b).run m).answer = .ok i) (hproto : i.prototype = some id)
    (hr : m.record? id = some r) (hp : r.isPopulated = true) :
    ((build b).run m).model = m ∧ ∀ event ∈ ((build b).run m).journal.events,
      ∃ own, event = .constructed own := by
  constructor
  · have hbuilt := built_eq h
    generalize ((build b).run m).model = m' at hbuilt ⊢
    cases hbuilt with
    | copying => cases hproto
    | found => rfl
    | populated id' r' _ _ hr' hempty =>
      cases hproto
      obtain rfl : r = r' := Option.some.inj (hr.symm.trans hr')
      rw [hp] at hempty
      cases hempty
    | made id' _ _ hid =>
      cases hproto
      rw [record?_of_nextRecordId hid] at hr
      cases hr
  · rcases filled_or_spared b hm with ⟨id', hfilled⟩ | hspared
    · exfalso
      obtain rfl : _ = i := Except.ok.inj (hfilled.answer.symm.trans h)
      cases hproto
      rcases hfilled.vacant with hnone | ⟨-, r', hr', hempty⟩
      · rw [hr] at hnone
        cases hnone
      · obtain rfl : r = r' := Option.some.inj (hr.symm.trans hr')
        rw [hp] at hempty
        cases hempty
    · exact hspared.events

/-- A record that has been filled with methods is not filled again. -/
theorem Filled.not_again {m : Model β} {b b' : Blueprint β} {id : RecordId}
    (h : Filled m b id ((build b).run m)) (hne : b.methods.isEmpty = false)
    {later : List (Operation β)} :
    ¬ Filled (((build b).run m).model.after later) b' id
      ((build b').run (((build b).run m).model.after later)) := by
  intro h'
  obtain ⟨r, hr, hp⟩ := h.isPopulated hne
  obtain ⟨r', hr', hp'⟩ := isPopulated_after hr hp later
  rcases h'.vacant with hnone | ⟨-, r'', hr'', hempty⟩
  · rw [hr'] at hnone
    cases hnone
  · obtain rfl : r' = r'' := Option.some.inj (hr'.symm.trans hr'')
    rw [hp'] at hempty
    cases hempty

/-- No construction fills a record after one that has filled it with methods. -/
theorem Filled.le {m : Model β} {history : List (Operation β)} {k k' : Nat} {op : Operation β}
    {b b' : Blueprint β} {id : RecordId} (hk : history[k]? = some op) (hb : op.blueprint? = some b)
    (hne : b.methods.isEmpty = false)
    (h : Filled (m.after (history.take k)) b id ((build b).run (m.after (history.take k))))
    (h' : Filled (m.after (history.take k')) b' id ((build b').run (m.after (history.take k')))) :
    k' ≤ k := by
  refine Nat.le_of_not_lt fun hlt => ?_
  obtain ⟨rest, hrest⟩ := exists_after_take_of_le m history (Nat.succ_le_of_lt hlt)
  rw [Nat.succ_eq_add_one, after_take_succ m hk, afterOne_of_blueprint hb] at hrest
  rw [hrest] at h'
  exact h.not_again hne h'

/-- **Methods are written into a record once.** In any history, at most one construction writes a
slot of a record. It has made the record, or it is to fill empty records and has found this one
empty; it writes each method of its table once, and these are all the slots. A record that has a slot
has one ever after. From then on, a construction that attaches an instance to the record leaves the
whole model as it is, and does not log the filling of any record. The filling of a record is logged
only by constructions, and by at most one whose table is not empty. -/
theorem populated_at_most_once (nonce : UInt32) (limits : Limits) (history : List (Operation β))
    (id : RecordId) :
    let m := fun k => (Model.new nonce limits : Model β).after (history.take k)
    let logs := fun k op place => .populating place ∈ (op.action.run (m k)).journal.events
    (∀ k k' op op', history[k]? = some op → history[k']? = some op' →
      (m k).ConstructsInto op id → (m k').ConstructsInto op' id → k = k') ∧
    (∀ k op, history[k]? = some op → (m k).ConstructsInto op id →
      ∃ b r, op.blueprint? = some b ∧ (m (k + 1)).record id = .ok r ∧
        ((m k).record id = .error .invalidHandle ∨
          b.strategy = .dynamicPrototype ∧ ∃ r₀, (m k).record id = .ok r₀ ∧ r₀.slots = ∅) ∧
        r.slotWrites = (m k).slotWrites id + b.methods.size ∧
        (op.action.run (m k)).journal.slotsSet id.index.toNat = b.methods.keys ∧
        r.slots = .ofList ((m k).nextMethods b.methods.toList)) ∧
    (∀ k k' r, k ≤ k' → (m k).record id = .ok r → r.slots ≠ ∅ →
      (∃ r', (m k').record id = .ok r' ∧ r'.slots ≠ ∅) ∧
      ∀ op i, (op.action.run (m k')).answer = .ok (.object i) → i.prototype = some id →
        (m k').afterOne op = m k' ∧ ∀ place, ¬ logs k' op place) ∧
    (∀ k op place, logs k op place →
      ∃ b, op.blueprint? = some b ∧ b.strategy = .dynamicPrototype) ∧
    (∀ k k' op op' b b', history[k]? = some op → history[k']? = some op' →
      op.blueprint? = some b → op'.blueprint? = some b' →
      logs k op id.index.toNat → logs k' op' id.index.toNat →
      b.methods.isEmpty = false → b'.methods.isEmpty = false → k = k') := by
  intro m logs
  have hm : ∀ k, (m k).Sound := fun k => sound_after nonce limits (history.take k)
  refine ⟨?_, ?_, ?_, ?_, ?_⟩
  · intro k k' op op' hk hk' h h'
    obtain ⟨b, hb, hne, hfilled⟩ := h.filled (hm k)
    obtain ⟨b', hb', hne', hfilled'⟩ := h'.filled (hm k')
    exact Nat.le_antisymm (hfilled'.le hk' hb' hne' hfilled) (hfilled.le hk hb hne hfilled')
  · intro k op hk h
    obtain ⟨b, hb, -, hfilled⟩ := h.filled (hm k)
    obtain ⟨r, hr, hslots, hcount⟩ := hfilled.stored
    have hnext : m (k + 1) = ((build b).run (m k)).model := by
      rw [← afterOne_of_blueprint hb]
      exact after_take_succ _ hk
    refine ⟨b, r, hb, ?_, ?_, hcount, ?_, hslots⟩
    · rw [record_eq_ok_iff, hnext, hr]
    · rcases hfilled.vacant with hnone | ⟨hdyn, r₀, hr₀, hempty⟩
      · exact .inl (by rw [record, hnone])
      · exact .inr ⟨hdyn, r₀, record_eq_ok_iff.2 hr₀, Record.slots_of_not_populated hempty⟩
    · rw [run_of_blueprint hb]
      exact hfilled.slotsSet
  · intro k k' r hle hr hslots
    obtain ⟨rest, hrest⟩ := exists_after_take_of_le (Model.new nonce limits) history hle
    obtain ⟨r', hr', hp'⟩ :=
      isPopulated_after (record_eq_ok_iff.1 hr) (Record.isPopulated_iff.2 hslots) rest
    rw [← hrest] at hr'
    refine ⟨⟨r', record_eq_ok_iff.2 hr', Record.isPopulated_iff.1 hp'⟩, ?_⟩
    intro op i hans hproto
    obtain ⟨b, hb, hok, hafter⟩ := built_of_answer hans
    obtain ⟨hsame, hevents⟩ := build_of_populated (hm k') hok hproto hr' hp'
    refine ⟨hafter.trans hsame, fun place hlog => ?_⟩
    change _ ∈ (op.action.run (m k')).journal.events at hlog
    rw [run_of_blueprint hb] at hlog
    obtain ⟨own, he⟩ := hevents _ hlog
    cases he
  · intro k op place hlog
    obtain ⟨b, -, hb, hdyn, -⟩ := filled_of_populating (hm k) hlog
    exact ⟨b, hb, hdyn⟩
  · intro k k' op op' b b' hk hk' hb hb' hlog hlog' hne hne'
    obtain ⟨c, id₁, hc, -, hplace₁, hfilled⟩ := filled_of_populating (hm k) hlog
    obtain ⟨c', id₂, hc', -, hplace₂, hfilled'⟩ := filled_of_populating (hm k') hlog'
    obtain rfl : b = c := Option.some.inj (hb.symm.trans hc)
    obtain rfl : b' = c' := Option.some.inj (hb'.symm.trans hc')
    -- both handles are of this model, so their places tell them apart
    have hmodel : id₁.model = id₂.model := by
      rw [hfilled.model_eq, hfilled'.model_eq, (extends_after _ _).nonce_eq,
        (extends_after _ _).nonce_eq]
    obtain rfl : id₁ = id₂ :=
      RecordId.eq_of_parts (UInt32.toNat_inj.1 (hplace₁.trans hplace₂.symm)) hmodel
    exact Nat.le_antisymm (hfilled'.le hk' hb' hne' hfilled) (hfilled.le hk hb hne hfilled')

/-- A past in which a record is made empty, then filled by a construction, and then found. -/
def foundEmpty : List (Operation Unit) := [
  .createRecord "T",
  .construct .dynamicPrototype ∅ (.ofList [("f", ()), ("g", ())]) "T",
  .construct .dynamicPrototype ∅ (.ofList [("h", ())]) "T"]

/-- The first construction writes two slots, and the second none. -/
theorem populated_at_most_once_foundEmpty :
    let m := fun k => (Model.new 0 {} : Model Unit).after (foundEmpty.take k)
    let id := RecordId.ofParts 0 0
    (∃ r, (m 2).record id = .ok r ∧ r.slotWrites = 2 ∧ r.slots.keys = ["f", "g"]) ∧
      ¬ (m 2).ConstructsInto (.construct .dynamicPrototype ∅ (.ofList [("h", ())]) "T") id := by
  intro m id
  obtain ⟨honce, hfill, -⟩ := populated_at_most_once 0 {} foundEmpty id
  have hwrites : (m 1).ConstructsInto
      (.construct .dynamicPrototype ∅ (.ofList [("f", ()), ("g", ())]) "T") id :=
    ⟨rfl, .inl (by decide)⟩
  obtain ⟨b, r, hb, hr, -, hcount, -, hslots⟩ := hfill 1 _ rfl hwrites
  cases hb
  refine ⟨⟨r, hr, hcount.trans (by decide), ?_⟩, fun h => ?_⟩
  · rw [hslots]
    rfl
  · exact absurd (honce 1 2 _ _ rfl rfl hwrites h) (by decide)

end Model

end Delegation
