import Delegation.Proofs.Population
import Delegation.Proofs.World

/-!
# The past of a record

A record can be told from the past alone. One operation stored it, with the slots of a replacement or
without any (`Operation.startingSlots`); since then slots were written in place, one after another
(`World.inPlace`), and some operation may have linked it to its tag (`Operation.Links`). `Told` puts
these three together, and `told` is the one induction on the past. Its step is the same for every act:
an operation that finds the record links it or writes slots of it (`Told.afterOne`), and one that does
not find it may store it (`told_of_begins`).

Two results are read off. `back_link_iff_made_or_relinked` is about links, `slot_writes_counted` about
the count of writes.
-/

namespace Delegation

variable {β : Type}

/-! ## What one operation does to a record -/

namespace Operation

/-- The record of a handle is there after the operation, and was not before. -/
def Begins (m : Model β) (op : Operation β) (id : RecordId) : Prop :=
  m.record? id = none ∧ ∃ r, (m.afterOne op).record? id = some r

/-- Whether an operation makes records as a tag's own, and not in place of others. -/
def makes : Operation β → Bool
  | .createRecord _ => true
  | op => op.isConstruction

/-- The slots with which a record begins that the operation stores. -/
def startingSlots (m : Model β) : Operation β → PropertyMap β
  | .replaceSlots _ slots | .replacePrototypeSlots _ slots => slots
  | .replacePrototype _ methods => .ofList (m.nextMethods methods.toList)
  | _ => ∅

/-- The slots that an operation writes in place into the record of a handle, in order, if it is
answered: the one that was asked for, or all methods of a construction that writes them there. -/
def inPlace (m : Model β) (op : Operation β) (id : RecordId) : List (String × Value (Method β)) :=
  match op, (op.action.run m).answer with
  | .setSlot id' name value, .ok _ => if id' = id then [(name, value)] else []
  | .mutateSharedSlot tag name value, .ok _ =>
    if m.currentRecord tag = some id then [(name, value)] else []
  | op, .ok (.object i) =>
    match op.blueprint? with
    | some b =>
      if i.prototype = some id ∧ m.writesMethods b = true then m.nextMethods b.methods.toList
      else []
    | none => []
  | _, _ => []

/-- The operation relinks the tag while it has the record of this handle, and is answered. -/
def Relinks (m : Model β) (op : Operation β) (id : RecordId) (tag : String) : Prop :=
  op = .relinkConstructor tag ∧ (op.action.run m).answer = .ok .nothing ∧
    m.currentRecord tag = some id

/-- The operation leaves a link in the record of a handle: it made the record, other than in place of
another one, or it relinks the tag. -/
def Links (m : Model β) (op : Operation β) (id : RecordId) (tag : String) : Prop :=
  op.Begins m id ∧ op.makes = true ∨ op.Relinks m id tag

/-- The operation writes no slot of the record: it is refused, writes to another record, or stores one
in place of this or any other. -/
inductive Spares (m : Model β) (id : RecordId) : Operation β → Prop where
  | refused {op : Operation β} {f : Fault} (h : (op.action.run m).answer = .error f) : Spares m id op
  | setSlot {id' : RecordId} (h : id' ≠ id) (name : String) (value : Value (Method β)) :
      Spares m id (.setSlot id' name value)
  | mutateSharedSlot {tag : String} (h : m.currentRecord tag ≠ some id) (name : String)
      (value : Value (Method β)) : Spares m id (.mutateSharedSlot tag name value)
  | built {op : Operation β} {b : Blueprint β} (hb : op.blueprint? = some b)
      (h : m.currentRecord b.tag ≠ some id) : Spares m id op
  | replaceSlots (old : RecordId) (slots : PropertyMap β) : Spares m id (.replaceSlots old slots)
  | replacePrototype (tag : String) (methods : MethodTable β) :
      Spares m id (.replacePrototype tag methods)
  | replacePrototypeSlots (tag : String) (slots : PropertyMap β) :
      Spares m id (.replacePrototypeSlots tag slots)

end Operation

/-- A record, told by the slots it began with, those written in place since, and whether anything has
linked it. -/
structure Told (slots : PropertyMap β) (writes : List (String × Value (Method β))) (linked : Prop)
    (r : Record β) : Prop where
  slots_eq : r.slots = slots.insertAll writes
  slotWrites_eq : r.slotWrites = writes.length
  backLink : r.backLink = none ∧ ¬ linked ∨ r.backLink = some r.creatorTag ∧ linked

namespace Told

variable {slots : PropertyMap β} {writes ps : List (String × Value (Method β))} {linked : Prop}
  {r : Record β}

theorem setSlots (h : Told slots writes linked r) (ps : List (String × Value (Method β))) :
    Told slots (writes ++ ps) linked (r.setSlots ps) where
  slots_eq := by rw [Record.slots_setSlots, h.slots_eq, NameMap.insertAll_append]
  slotWrites_eq := by rw [Record.slotWrites_setSlots, h.slotWrites_eq, List.length_append]
  backLink := by
    rw [Record.backLink_setSlots, Record.creatorTag_setSlots]
    exact h.backLink

theorem relink {linked' : Prop} (h : Told slots writes linked r) (hlinked : linked') :
    Told slots writes linked' r.relink where
  slots_eq := h.slots_eq
  slotWrites_eq := h.slotWrites_eq
  backLink := .inr ⟨rfl, hlinked⟩

theorem congr {linked' : Prop} (h : Told slots writes linked r) (hiff : linked ↔ linked') :
    Told slots writes linked' r where
  slots_eq := h.slots_eq
  slotWrites_eq := h.slotWrites_eq
  backLink := by
    rw [← hiff]
    exact h.backLink

theorem new (id : RecordId) (tag : String) (hlinked : linked) :
    Told ∅ [] linked (Record.new id tag : Record β) :=
  ⟨rfl, rfl, .inr ⟨rfl, hlinked⟩⟩

theorem withSlots (id : RecordId) (tag : String) (slots : PropertyMap β) (hlinked : ¬ linked) :
    Told slots [] linked (Record.withSlots id tag slots) :=
  ⟨rfl, rfl, .inl ⟨rfl, hlinked⟩⟩

theorem backLink_ne_none_iff (h : Told slots writes linked r) : r.backLink ≠ none ↔ linked := by
  rcases h.backLink with ⟨hnone, hnot⟩ | ⟨hsome, hlinked⟩
  · simp [hnone, hnot]
  · simp [hsome, hlinked]

theorem size_le (h : Told slots writes linked r) : r.slots.size ≤ slots.size + r.slotWrites := by
  rw [h.slots_eq, h.slotWrites_eq]
  exact NameMap.size_insertAll_le slots writes

theorem isPopulated_iff (h : Told slots writes linked r) :
    r.isPopulated = true ↔ slots ≠ ∅ ∨ 0 < r.slotWrites := by
  rw [Record.isPopulated, h.slots_eq, NameMap.isEmpty_insertAll, h.slotWrites_eq,
    List.length_pos_iff, ne_eq, ← NameMap.isEmpty_iff]
  cases slots.isEmpty <;> simp

end Told

namespace Model

variable {m : Model β} {op : Operation β} {id : RecordId} {r : Record β}

theorem inPlace_of_refused {f : Fault} (h : (op.action.run m).answer = .error f) :
    op.inPlace m id = [] := by
  unfold Operation.inPlace
  rw [h]
  cases op <;> rfl

/-- An operation that stores a record and constructs nothing writes nothing in place. -/
theorem inPlace_of_stores (hb : op.blueprint? = none) (hstores : op.stores m id ≠ none) :
    op.inPlace m id = [] := by
  cases op with
  | setSlot | mutateSharedSlot => exact absurd rfl hstores
  | _ =>
    unfold Operation.inPlace
    split <;> simp_all

theorem inPlace_of_object {i : Instance β} {b : Blueprint β}
    (h : (op.action.run m).answer = .ok (.object i)) (hb : op.blueprint? = some b) :
    op.inPlace m id =
      if i.prototype = some id ∧ m.writesMethods b = true then m.nextMethods b.methods.toList
      else [] := by
  cases op with
  | construct | constructNamed => simp only [Operation.inPlace, h, hb]
  | _ => cases hb

/-! ### A record that is there -/

/-- What a construction makes of a record that is there is what it writes into it. -/
theorem fills_iff (hr : m.record? id = some r) {i : Instance β} {b : Blueprint β}
    (h : ((build b).run m).answer = .ok i) :
    (b.strategy = .dynamicPrototype ∧ m.currentRecord b.tag = some id ∧ r.isPopulated = false) ↔
      i.prototype = some id ∧ m.writesMethods b = true := by
  have hbuilt := built_eq h
  generalize ((build b).run m).model = m' at hbuilt
  cases hbuilt with
  | copying hs =>
    constructor
    · rintro ⟨hdyn, -⟩
      rw [hdyn] at hs
      cases hs
    · rintro ⟨hproto, -⟩
      cases hproto
  | found id' hs hcur hleft =>
    have hwrites := writesMethods_of_left hcur hleft
    constructor
    · rintro ⟨hdyn, hcur', hempty⟩
      obtain rfl : id' = id := Option.some.inj (hcur.symm.trans hcur')
      have hfills := writesMethods_of_empty hdyn hcur hr hempty
      rw [hwrites] at hfills
      cases hfills
    · rintro ⟨-, hfills⟩
      rw [hwrites] at hfills
      cases hfills
  | populated id' r' hs hcur hr' hempty =>
    constructor
    · rintro ⟨-, hcur', -⟩
      exact ⟨hcur.symm.trans hcur', writesMethods_of_empty hs hcur hr' hempty⟩
    · rintro ⟨hproto, -⟩
      obtain rfl : id' = id := Option.some.inj hproto
      obtain rfl : r' = r := Option.some.inj (hr'.symm.trans hr)
      exact ⟨hs, hcur, hempty⟩
  | made id' hs hcur hid =>
    constructor
    · rintro ⟨-, hcur', -⟩
      rw [hcur] at hcur'
      cases hcur'
    · rintro ⟨hproto, -⟩
      obtain rfl : id' = id := Option.some.inj hproto
      rw [record?_of_nextRecordId hid] at hr
      cases hr

theorem rewrites_of_refused (hr : m.record? id = some r) {f : Fault}
    (h : (op.action.run m).answer = .error f) : op.rewrites m id r = r := by
  have hafter := record?_afterOne hr op
  rw [model_of_refused h, record?_countMethods, hr] at hafter
  exact (Option.some.inj hafter).symm

/-- An operation that does not link a record writes slots of it, and does nothing else to it. -/
theorem rewrites_of_not_relinks (hr : m.record? id = some r)
    (h : ∀ tag, ¬ op.Relinks m id tag) : op.rewrites m id r = r.setSlots (op.inPlace m id) := by
  cases hans : (op.action.run m).answer with
  | error f =>
    rw [rewrites_of_refused hr hans, inPlace_of_refused hans]
    rfl
  | ok p =>
    cases op with
    | setSlot id' name value =>
      simp only [Operation.rewrites, Operation.inPlace, hans]
      split <;> rfl
    | mutateSharedSlot tag name value =>
      simp only [Operation.rewrites, Operation.inPlace, hans]
      split <;> rfl
    | relinkConstructor tag =>
      obtain ⟨_, -, rfl⟩ := answer_map_eq_ok hans
      have hcur : m.currentRecord tag ≠ some id := fun hcur => h tag ⟨rfl, hans, hcur⟩
      simp only [Operation.rewrites, Operation.inPlace, hans, if_neg hcur]
      rfl
    | construct strategy fields methods tag | constructNamed strategy fields methods tag =>
      obtain ⟨i, -, rfl⟩ := answer_map_eq_ok hans
      obtain ⟨b, hb, hbuild, -⟩ := built_of_answer hans
      rw [inPlace_of_object hans hb]
      simp only [Operation.rewrites, hb, fills_iff hr hbuild]
      split <;> rfl
    | createRecord | replaceSlots | replacePrototype | replacePrototypeSlots | allocate =>
      obtain ⟨_, -, rfl⟩ := answer_map_eq_ok hans
      simp only [Operation.inPlace, hans]
      rfl

theorem rewrites_of_relinks {tag : String} (h : op.Relinks m id tag) :
    op.rewrites m id r = r.relink ∧ op.inPlace m id = [] := by
  obtain ⟨rfl, hans, hcur⟩ := h
  constructor
  · simp only [Operation.rewrites, if_pos hcur]
  · simp only [Operation.inPlace, hans]

/-- What an operation relinks is the record of its tag. -/
theorem Sound.creatorTag_of_relinks (hm : m.Sound) (hr : m.record? id = some r) {tag : String}
    (h : op.Relinks m id tag) : r.creatorTag = tag := by
  obtain ⟨-, -, hcur⟩ := h
  obtain ⟨r', hr', htag⟩ := hm.bound tag id hcur
  rw [Option.some.inj (hr.symm.trans hr')]
  exact htag

/-! ### A record that is not there -/

/-- Slots are written in place only into records that are there after the operation. -/
theorem exists_record_of_inPlace (hm : m.Sound) (h : op.inPlace m id ≠ []) :
    ∃ r, (m.afterOne op).record? id = some r := by
  cases hans : (op.action.run m).answer with
  | error f => exact absurd (inPlace_of_refused hans) h
  | ok p =>
    cases op with
    | setSlot id' name value =>
      obtain ⟨_, hok, rfl⟩ := answer_map_eq_ok hans
      simp only [Operation.inPlace, hans] at h
      split at h
      next e =>
        subst e
        cases hr : m.record id' with
        | error f =>
          rw [run_setSlot, hr] at hok
          cases hok
        | ok r => exact ⟨_, record?_afterOne (record_eq_ok_iff.1 hr) _⟩
      next => exact absurd rfl h
    | mutateSharedSlot tag name value =>
      simp only [Operation.inPlace, hans] at h
      split at h
      next hcur =>
        obtain ⟨r, hr, -⟩ := hm.bound tag id hcur
        exact ⟨_, record?_afterOne hr _⟩
      next => exact absurd rfl h
    | construct strategy fields methods tag | constructNamed strategy fields methods tag =>
      obtain ⟨i, -, rfl⟩ := answer_map_eq_ok hans
      obtain ⟨b, hb, hbuild, hafter⟩ := built_of_answer hans
      rw [inPlace_of_object hans hb] at h
      split at h
      next hproto =>
        obtain ⟨-, r, hr, -⟩ := prototype_of_build hm hbuild hproto.1
        exact ⟨r, hafter ▸ hr⟩
      next => exact absurd rfl h
    | createRecord | replaceSlots | replacePrototype | replacePrototypeSlots | allocate
    | relinkConstructor =>
      obtain ⟨_, -, rfl⟩ := answer_map_eq_ok hans
      simp [Operation.inPlace, hans] at h

theorem not_relinks_of_none {tag : String} (hm : m.Sound) (hnone : m.record? id = none) :
    ¬ op.Relinks m id tag := by
  rintro ⟨-, -, hcur⟩
  obtain ⟨r, hr, -⟩ := hm.bound tag id hcur
  rw [hnone] at hr
  cases hr

/-- A record that a construction makes begins without slots, and is written in place at once. -/
theorem told_of_made (hnone : m.record? id = none) {b : Blueprint β} (hb : op.blueprint? = some b)
    (hr : (m.afterOne op).record? id = some r) {linked : Prop} (hlinked : linked) :
    Told ∅ (op.inPlace m id) linked r := by
  rw [afterOne_of_blueprint hb] at hr
  obtain ⟨hs, hcur, hans, rfl⟩ := stored_of_build hnone b hr
  have hobject : (op.action.run m).answer = .ok (.object { own := b.fields, prototype := some id }) := by
    rw [run_of_blueprint hb, Outcome.map, hans]
    rfl
  -- a tag without a record has its methods written by every construction that delegates
  rw [inPlace_of_object hobject hb, if_pos ⟨rfl, writesMethods_of_unbound hs hcur⟩]
  exact (Told.new id b.tag hlinked).setSlots _

/-- A record that an operation stores is told by this operation. -/
theorem told_of_begins (hm : m.Sound) (hnone : m.record? id = none)
    (hr : (m.afterOne op).record? id = some r) :
    Told (op.startingSlots m) (op.inPlace m id) (op.Links m id r.creatorTag) r := by
  have hbegins : op.Begins m id := ⟨hnone, r, hr⟩
  have hstores := stores_of_record? hm hnone op hr
  have hreplacement : op.makes = false → ¬ op.Links m id r.creatorTag := by
    rintro hmakes (⟨-, hmade⟩ | hrelinks)
    · rw [hmakes] at hmade
      cases hmade
    · exact not_relinks_of_none hm hnone hrelinks
  have hwrites : op.blueprint? = none → op.inPlace m id = [] := fun hb =>
    inPlace_of_stores hb (by simp [hstores])
  cases op with
  | setSlot | mutateSharedSlot | relinkConstructor | allocate => cases hstores
  | createRecord tag =>
    obtain rfl := Option.some.inj hstores
    rw [hwrites rfl]
    exact .new id tag (.inl ⟨hbegins, rfl⟩)
  | replaceSlots old slots =>
    obtain ⟨r', -, rfl⟩ := Option.map_eq_some_iff.1 hstores
    rw [hwrites rfl]
    exact .withSlots id r'.creatorTag slots (hreplacement rfl)
  | replacePrototypeSlots tag slots =>
    obtain rfl := Option.some.inj hstores
    rw [hwrites rfl]
    exact .withSlots id tag slots (hreplacement rfl)
  | replacePrototype tag methods =>
    obtain rfl := Option.some.inj hstores
    rw [hwrites rfl]
    exact .withSlots id tag _ (hreplacement rfl)
  | construct strategy fields methods tag | constructNamed strategy fields methods tag =>
    simp only [Operation.stores] at hstores
    obtain ⟨b, hb, -⟩ := Option.map_eq_some_iff.1 hstores
    exact told_of_made hnone hb hr (.inl ⟨hbegins, rfl⟩)

end Model

/-- What is told of a record that is there is told on through every operation. -/
theorem Told.afterOne {m : Model β} (hm : m.Sound) {id : RecordId} {r : Record β}
    (hr : m.record? id = some r) {slots : PropertyMap β} {writes : List (String × Value (Method β))}
    {linked : Prop} (h : Told slots writes linked r) (op : Operation β) :
    Told slots (writes ++ op.inPlace m id) (op.Links m id r.creatorTag ∨ linked)
      (op.rewrites m id r) := by
  have hiff : (op.Links m id r.creatorTag ∨ linked) ↔ (op.Relinks m id r.creatorTag ∨ linked) := by
    have hbegins : ¬ op.Begins m id := fun ⟨hnone, _⟩ => by simp [hr] at hnone
    simp [Operation.Links, hbegins]
  by_cases hrelinks : ∃ tag, op.Relinks m id tag
  · -- only the tag of the record itself can be relinked here, since tags are bound to their own records
    obtain ⟨tag, hrelinks⟩ := hrelinks
    obtain rfl := hm.creatorTag_of_relinks hr hrelinks
    obtain ⟨hrewrites, hnil⟩ := Model.rewrites_of_relinks (r := r) hrelinks
    rw [hrewrites, hnil, List.append_nil]
    exact h.relink (.inl (.inr hrelinks))
  · have hnot : ∀ tag, ¬ op.Relinks m id tag := fun tag h => hrelinks ⟨tag, h⟩
    rw [Model.rewrites_of_not_relinks hr hnot]
    refine (h.setSlots _).congr ?_
    simp [hiff, hnot]

/-- An operation that spares a record leaves it as it is. -/
theorem Operation.Spares.record? {m : Model β} {id : RecordId} {r : Record β} {op : Operation β}
    (h : op.Spares m id) (hr : m.record? id = some r) : (m.afterOne op).record? id = some r := by
  rw [Model.record?_afterOne hr]
  cases h with
  | refused h => rw [Model.rewrites_of_refused hr h]
  | setSlot h => rw [Operation.rewrites, if_neg h]
  | mutateSharedSlot h => rw [Operation.rewrites, if_neg h]
  | built hb h =>
    cases op with
    | construct | constructNamed => simp only [Operation.rewrites, hb, h, false_and, and_false, if_false]
    | _ => cases hb
  | replaceSlots | replacePrototype | replacePrototypeSlots => rfl

/-- An operation that leaves a link in a record leaves the record. -/
theorem Model.exists_record_of_links {m : Model β} (hm : m.Sound) {op : Operation β} {id : RecordId}
    {tag : String} (h : op.Links m id tag) : ∃ r, (m.afterOne op).record? id = some r := by
  rcases h with ⟨⟨-, hr⟩, -⟩ | ⟨rfl, -, hcur⟩
  · exact hr
  · obtain ⟨r, hr, -⟩ := hm.bound tag id hcur
    exact ⟨_, record?_afterOne hr _⟩

/-! ## What the past says -/

/-- The slots that an act writes in place into the record of a handle. -/
def Act.inPlace (m : Model β) (id : RecordId) : Act β → List (String × Value (Method β))
  | .operate op => op.inPlace m id
  | _ => []

theorem Act.inPlace_of_not_operate {a : Act β} (ha : ¬ ∃ op, a = .operate op) (m : Model β)
    (id : RecordId) : a.inPlace m id = [] := by
  cases a with
  | operate op => exact absurd ⟨op, rfl⟩ ha
  | _ => rfl

namespace World

variable {w : World β} {id : RecordId} {r : Record β}

/-- The slots that were written in place into the record of a handle, in order. -/
def inPlace (w : World β) (id : RecordId) : List (Act β) → List (String × Value (Method β))
  | [] => []
  | a :: past => w.inPlace id past ++ a.inPlace (w.after past).model id

/-- What has happened to a record has left it there. -/
theorem exists_record_of_happened (hw : w.model.Sound) {past : List (Act β)}
    {P : Model β → Operation β → Prop}
    (hP : ∀ m op, m.Sound → P m op → ∃ r, (m.afterOne op).record? id = some r)
    (h : w.Happened past P) : ∃ r, (w.after past).model.record? id = some r := by
  obtain ⟨later, op, earlier, rfl, h⟩ := h
  obtain ⟨r, hr⟩ := hP _ op (sound_after hw earlier) h
  rw [after_append]
  obtain ⟨r', hr', -⟩ := (extends_after ((w.after earlier).step (.operate op)) later).record? hr
  exact ⟨r', hr'⟩

theorem inPlace_of_none (hw : w.model.Sound) {past : List (Act β)}
    (hnone : (w.after past).model.record? id = none) : w.inPlace id past = [] := by
  induction past with
  | nil => rfl
  | cons a past ih =>
    have hbefore : (w.after past).model.record? id = none := by
      cases hr : (w.after past).model.record? id with
      | none => rfl
      | some r =>
        obtain ⟨r', hr', -⟩ := (extends_step (w.after past) a).record? hr
        exact absurd (hnone.symm.trans hr') (by simp)
    have hact : a.inPlace (w.after past).model id = [] := by
      by_cases ha : ∃ op, a = .operate op
      · obtain ⟨op, rfl⟩ := ha
        refine Classical.byContradiction fun hne => ?_
        obtain ⟨r, hr⟩ := Model.exists_record_of_inPlace (sound_after hw past) hne
        exact absurd (hnone.symm.trans hr) (by simp)
      · exact Act.inPlace_of_not_operate ha _ id
    rw [inPlace, ih hbefore, hact, List.nil_append]

/-- **Records as told.** A record that was stored in the past is told by it. -/
theorem told (hw : w.model.Sound) (hnew : w.model.record? id = none) {past : List (Act β)}
    (hr : (w.after past).model.record? id = some r) :
    w.Happened past fun m op => op.Begins m id ∧
      Told (op.startingSlots m) (w.inPlace id past)
        (w.Happened past fun m op => op.Links m id r.creatorTag) r := by
  induction past generalizing r with
  | nil => exact absurd (hnew.symm.trans hr) (by simp)
  | cons a past ih =>
    have hsound := sound_after hw past
    by_cases ha : ∃ op, a = .operate op
    · obtain ⟨op, rfl⟩ := ha
      simp only [happened_cons_operate]
      cases hold : (w.after past).model.record? id with
      | none =>
        -- the operation has stored the record, and nothing has happened to it before
        have hnot : ¬ w.Happened past fun m op => op.Links m id r.creatorTag := by
          intro h
          obtain ⟨r', hr'⟩ := exists_record_of_happened hw
            (fun m op hm => Model.exists_record_of_links hm) h
          exact absurd (hold.symm.trans hr') (by simp)
        rw [inPlace, inPlace_of_none hw hold, List.nil_append]
        refine .inl ⟨⟨hold, r, hr⟩, (Model.told_of_begins hsound hold hr).congr ?_⟩
        simp [hnot]
      | some r₀ =>
        -- the record was there before, so it is told up to here and goes on from there
        obtain ⟨r', hr', -, htag⟩ := (Model.extends_afterOne _ op).record? hold
        obtain rfl : r' = r := Option.some.inj (hr'.symm.trans hr)
        obtain rfl : op.rewrites _ id r₀ = r' :=
          Option.some.inj ((Model.record?_afterOne hold op).symm.trans hr)
        refine .inr ((ih hold).mono fun m op' ⟨hbegins, htold⟩ => ⟨hbegins, ?_⟩)
        rw [htag]
        exact htold.afterOne hsound hold op
    · simp only [happened_cons_of_not_operate ha]
      rw [inPlace, Act.inPlace_of_not_operate ha, List.append_nil]
      rw [after_cons, model_step_of_not_operate ha] at hr
      exact ih hr

theorem record_after (hr : w.model.record id = .ok r) (later : List (Act β)) :
    ∃ r', (w.after later).model.record id = .ok r' ∧ r'.creatorTag = r.creatorTag := by
  obtain ⟨r', hr', -, htag⟩ := (extends_after w later).record? (Model.record_eq_ok_iff.1 hr)
  exact ⟨r', Model.record_eq_ok_iff.2 hr', htag⟩

section Runs

variable {nonce : UInt32} {limits : Limits} {past : List (Act β)}

theorem told_of_new (hr : ((World.new nonce limits).after past).model.record id = .ok r) :
    (World.new nonce limits).Happened past fun m op => op.Begins m id ∧
      Told (op.startingSlots m) ((World.new nonce limits).inPlace id past)
        ((World.new nonce limits).Happened past fun m op => op.Links m id r.creatorTag) r := by
  refine told (Model.sound_new nonce limits) ?_ (Model.record_eq_ok_iff.1 hr)
  simp [World.new, Model.new, Model.record?]

/-! ## Back links -/

/-- **Back links.** A record links back to its own tag or has no link. It has one if and only if it was
made by a construction or by `createRecord`, or the tag was relinked while this was its record. A
link that is there stays, whatever is done later. -/
theorem back_link_iff_made_or_relinked
    (hr : ((World.new nonce limits).after past).model.record id = .ok r) :
    let w : World β := .new nonce limits
    (r.backLink = none ∨ r.backLink = some r.creatorTag) ∧
    (r.backLink ≠ none ↔ w.Happened past fun m op =>
      op.Begins m id ∧ op.makes = true ∨ op.Relinks m id r.creatorTag) ∧
    (∀ i, i.prototype = some id → (w.after past).model.constructorOf i = r.backLink) ∧
    (r.backLink ≠ none → ∀ later, ∃ r', (w.after (later ++ past)).model.record id = .ok r' ∧
      r'.backLink = r.backLink) := by
  intro w
  obtain ⟨_, _, _, -, -, htold⟩ := told_of_new hr
  have howned : r.backLink ≠ none → r.backLink = some r.creatorTag := by
    rcases htold.backLink with ⟨hnone, -⟩ | ⟨hsome, -⟩
    · exact fun h => absurd hnone h
    · exact fun _ => hsome
  refine ⟨?_, htold.backLink_ne_none_iff, ?_, ?_⟩
  · exact (Classical.em (r.backLink = none)).imp_right howned
  · intro i hproto
    rw [Model.constructorOf, Model.prototypeRecord?, hproto, Option.bind_some,
      Model.record_eq_ok_iff.1 hr, Option.bind_some]
  · intro hlink later
    obtain ⟨r', hr', htag⟩ := record_after hr later
    rw [← after_append] at hr'
    obtain ⟨_, _, _, -, -, htold'⟩ := told_of_new hr'
    -- what has once happened stays in the longer past, and the tag of a record never changes
    have hlinked := (htold.backLink_ne_none_iff.1 hlink).later later
    rcases htold'.backLink with ⟨-, hnot⟩ | ⟨hsome, -⟩
    · rw [htag] at hnot
      exact absurd hlinked hnot
    · exact ⟨r', hr', by rw [hsome, howned hlink, htag]⟩

/-- The record of a tag is replaced by one without slots, which the next construction fills. -/
def refilled : List (Act Unit) := [
  .operate (.construct .dynamicPrototype ∅ (.ofList [("f", ()), ("g", ())]) "T"),
  .operate (.replacePrototypeSlots "T" ∅),
  .operate (.createRecord "T")]

/-- Being filled does not link the replacement, and relinking its tag does, for good. -/
theorem back_link_iff_made_or_relinked_refilled :
    let w : World Unit := .new 0 {}
    let id := RecordId.ofParts 1 0
    (∃ r, (w.after refilled).model.record id = .ok r ∧ r.isPopulated = true ∧
      ¬ w.Happened refilled fun m op =>
        op.Begins m id ∧ op.makes = true ∨ op.Relinks m id r.creatorTag) ∧
    ∀ later, ∃ r, (w.after (later ++ .operate (.relinkConstructor "T") :: refilled)).model.record id
      = .ok r ∧ r.backLink = some "T" := by
  intro w id
  have hfilled : ((w.after refilled).model.record? id).map (fun r => (r.isPopulated, r.backLink)) =
      some (true, none) := by decide
  have hlinked : ((w.after (.operate (.relinkConstructor "T") :: refilled)).model.record? id).map
      (·.backLink) = some (some "T") := by decide
  constructor
  · obtain ⟨r, hr, he⟩ := Option.map_eq_some_iff.1 hfilled
    obtain ⟨hpopulated, hnone⟩ := Prod.mk.inj he
    have hr := Model.record_eq_ok_iff.2 hr
    obtain ⟨-, hiff, -⟩ := back_link_iff_made_or_relinked hr
    exact ⟨r, hr, hpopulated, fun h => hiff.2 h hnone⟩
  · intro later
    obtain ⟨r, hr, hlink⟩ := Option.map_eq_some_iff.1 hlinked
    have hr := Model.record_eq_ok_iff.2 hr
    obtain ⟨-, -, -, hkept⟩ := back_link_iff_made_or_relinked hr
    obtain ⟨r', hr', hsame⟩ := hkept (by simp [hlink]) later
    exact ⟨r', hr', hsame.trans hlink⟩

/-! ## Counting writes -/

/-- **Counting writes.** The count of a record is the number of slots that were written in place into
it, one for each `setSlot` and `mutateSharedSlot` that was answered and reached it and one for each
method that a construction wrote there, and its slots are those it began with under these. So it has
no more slots than it began with and has counted, and it has none only if it began without any and
has counted nothing. Refused calls, writes to other records and to instances, and replacements leave
the record as it is. -/
theorem slot_writes_counted
    (hr : ((World.new nonce limits).after past).model.record id = .ok r) :
    let w : World β := .new nonce limits
    r.slotWrites = (w.inPlace id past).length ∧
    (w.Happened past fun m op => op.Begins m id ∧
      r.slots = (op.startingSlots m).insertAll (w.inPlace id past) ∧
      r.slots.size ≤ (op.startingSlots m).size + r.slotWrites ∧
      (r.isPopulated = true ↔ op.startingSlots m ≠ ∅ ∨ 0 < r.slotWrites)) ∧
    (∀ a, ∃ r', (w.after (a :: past)).model.record id = .ok r' ∧
      r'.slotWrites = r.slotWrites + (a.inPlace (w.after past).model id).length) ∧
    (∀ a, (∀ op, a = .operate op → op.Spares (w.after past).model id) →
      (w.after (a :: past)).model.record id = .ok r) := by
  intro w
  have hcount : ∀ past {r}, (w.after past).model.record id = .ok r →
      r.slotWrites = (w.inPlace id past).length := by
    intro past r hr
    obtain ⟨_, _, _, -, -, htold⟩ := told_of_new hr
    exact htold.slotWrites_eq
  refine ⟨hcount past hr, ?_, ?_, ?_⟩
  · exact (told_of_new hr).mono fun m op ⟨hbegins, htold⟩ =>
      ⟨hbegins, htold.slots_eq, htold.size_le, htold.isPopulated_iff⟩
  · intro a
    obtain ⟨r', hr', -⟩ := record_after hr [a]
    refine ⟨r', hr', ?_⟩
    rw [hcount (a :: past) hr', hcount past hr, inPlace, List.length_append]
  · intro a hspares
    rw [after_cons, Model.record_eq_ok_iff]
    by_cases ha : ∃ op, a = .operate op
    · obtain ⟨op, rfl⟩ := ha
      exact (hspares op rfl).record? (Model.record_eq_ok_iff.1 hr)
    · rw [model_step_of_not_operate ha]
      exact Model.record_eq_ok_iff.1 hr

/-- The replacement has counted the two methods that fill it, and the next replacement leaves it
alone. -/
theorem slot_writes_counted_refilled :
    let w : World Unit := .new 0 {}
    let id := RecordId.ofParts 1 0
    ∃ r, (w.after refilled).model.record id = .ok r ∧ (w.inPlace id refilled).length = 2 ∧
      r.slotWrites = 2 ∧
      (w.after (.operate (.replacePrototypeSlots "T" (.ofList [("h", .null)])) ::
        refilled)).model.record id = .ok r := by
  intro w id
  have hthere : ((w.after refilled).model.record? id).isSome = true := by decide
  have hwrites : (w.inPlace id refilled).length = 2 := by decide
  obtain ⟨r, hr⟩ := Option.isSome_iff_exists.1 hthere
  have hr := Model.record_eq_ok_iff.2 hr
  obtain ⟨hcount, -, -, hspared⟩ := slot_writes_counted hr
  refine ⟨r, hr, hwrites, hcount.trans hwrites, hspared _ ?_⟩
  rintro op ⟨⟩
  exact .replacePrototypeSlots "T" _

end Runs

end World

end Delegation
