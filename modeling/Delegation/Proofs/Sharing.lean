import Delegation.Proofs.MethodIdentity
import Delegation.Proofs.RecordHistory

/-!
# Sharing a record

Two instances that were built for one tag delegate to one record unless the tag was given another
record in between. Four calls do that: three that store a record for the tag, and the replacement of
the very record that the tag has (`Operation.Rebinds`). Constructions do not, since the first
instance has left the tag with a record.

A record that was given to the tag in between was not there when the first instance was built, so it
is another record than the one that the first instance has. That is all the argument, and
`currentRecord_of_rebound` carries it over any number of acts.
-/

namespace Delegation

variable {β : Type}

/-- Whether an operation gives another record to a tag that has one. -/
def Operation.Rebinds (m : Model β) (tag : String) (op : Operation β) : Prop :=
  match op, (op.action.run m).answer with
  | .createRecord tag', .ok _
  | .replacePrototype tag' _, .ok _
  | .replacePrototypeSlots tag' _, .ok _ => tag' = tag
  | .replaceSlots id _, .ok _ => m.currentRecord tag = some id
  | _, _ => False

/-- Whether an act points the instance with this number at a record or at none. -/
def Act.Points (i : Nat) (a : Act β) : Prop := ∃ prototype, a = .setPrototype i prototype

namespace Model

/-! ## Which operations rebind a tag -/

theorem currentRecord_replacePrototypeSlots {m : Model β} (hm : m.Sound) {tag : String}
    {slots : PropertyMap β} {id : RecordId}
    (h : ((replacePrototypeSlots tag slots).run m).answer = .ok id) (tag' : String) :
    ((replacePrototypeSlots tag slots).run m).model.currentRecord tag' =
      if tag' = tag then some id else m.currentRecord tag' := by
  have hid := (stores_replacePrototypeSlots hm h).1
  rw [run_replacePrototypeSlots_of_sound hm, hid]
  show (m.push (.withSlots id tag slots) true).currentRecord tag' = _
  rw [currentRecord_push]
  simp [Record.withSlots]

theorem currentRecord_replaceSlots {m : Model β} (hm : m.Sound) {old : RecordId}
    {slots : PropertyMap β} {id : RecordId}
    (h : ((replaceSlots old slots).run m).answer = .ok id) (tag : String) :
    ((replaceSlots old slots).run m).model.currentRecord tag =
      if m.currentRecord tag = some old then some id else m.currentRecord tag := by
  have hid := (stores_replaceSlots h).1
  rw [run_replaceSlots] at h ⊢
  cases hr : m.record old with
  | error f => simp [hr] at h
  | ok r =>
    rw [hid]
    show (m.push (.withSlots id r.creatorTag slots) _).currentRecord tag = _
    rw [currentRecord_push]
    -- the tag that has the old record is the tag of this record
    have htag : m.currentRecord tag = some old → tag = r.creatorTag := by
      intro hcur
      obtain ⟨r', hr', rfl⟩ := hm.bound tag old hcur
      obtain rfl : r = r' := Option.some.inj ((record_eq_ok_iff.1 hr).symm.trans hr')
      rfl
    by_cases hcur : m.currentRecord tag = some old
    · have hbound := hcur
      rw [htag hcur] at hbound
      rw [if_pos ⟨decide_eq_true hbound, htag hcur⟩, if_pos hcur]
      rfl
    · rw [if_neg hcur, if_neg]
      rintro ⟨hbound, rfl⟩
      exact hcur (of_decide_eq_true hbound)

theorem currentRecord_createRecord {m : Model β} {tag : String} {id : RecordId}
    (h : ((createRecord tag).run m).answer = .ok id) (tag' : String) :
    ((createRecord tag).run m).model.currentRecord tag' =
      if tag' = tag then some id else m.currentRecord tag' := by
  have hid := (stores_createRecord h).1
  rw [run_createRecord, hid]
  show (m.push (.new id tag) true).currentRecord tag' = _
  rw [currentRecord_push]
  simp

theorem currentRecord_setSlot (id : RecordId) (name : String) (value : Value (Method β))
    (m : Model β) (tag : String) :
    ((setSlot id name value).run m).model.currentRecord tag = m.currentRecord tag := by
  rw [run_setSlot]
  cases m.record id <;> simp

theorem currentRecord_mutateSharedSlot (tag' name : String) (value : Value (Method β))
    (m : Model β) (tag : String) :
    ((mutateSharedSlot tag' name value).run m).model.currentRecord tag = m.currentRecord tag := by
  rw [run_mutateSharedSlot]
  cases m.recordForTag tag' with
  | error f => rfl
  | ok id => exact currentRecord_setSlot id name value m tag

theorem currentRecord_relinkConstructor (tag' : String) (m : Model β) (tag : String) :
    ((relinkConstructor tag').run m).model.currentRecord tag = m.currentRecord tag := by
  rw [run_relinkConstructor]
  cases m.recordForTag tag' <;> simp

/-- A construction rebinds no tag that has a record. -/
theorem currentRecord_build (b : Blueprint β) {m : Model β} {tag : String} {cur : RecordId}
    (hcur : m.currentRecord tag = some cur) :
    ((build b).run m).model.currentRecord tag = some cur := by
  have hbuilt := built b m
  generalize ((build b).run m).answer = answer, ((build b).run m).model = m' at hbuilt ⊢
  cases hbuilt with
  | copying | found | full | dangling => exact hcur
  | populated id r =>
    show (m.modifyRecord id _).currentRecord tag = _
    rw [currentRecord_modifyRecord, hcur]
  | made id _ hnone hid =>
    have hne : tag ≠ b.tag := by
      rintro rfl
      rw [hcur] at hnone
      cases hnone
    show (m.push _ true).currentRecord tag = _
    rw [currentRecord_push, if_neg (by simpa using hne), hcur]

/-- **Bindings.** A tag that has a record is given the record stored in this call if the operation
rebinds it, and keeps its own otherwise. -/
theorem currentRecord_of_rebinds {m : Model β} (hm : m.Sound) {tag : String} {cur : RecordId}
    (hcur : m.currentRecord tag = some cur) (op : Operation β) :
    (op.Rebinds m tag → ∃ id, m.nextRecordId = .ok id ∧
      (m.afterOne op).currentRecord tag = some id) ∧
    (¬ op.Rebinds m tag → (m.afterOne op).currentRecord tag = some cur) := by
  cases hans : (op.action.run m).answer with
  | error f =>
    have hnot : ¬ op.Rebinds m tag := by
      unfold Operation.Rebinds
      rw [hans]
      cases op <;> exact id
    refine ⟨fun h => absurd h hnot, fun _ => ?_⟩
    rw [model_of_refused hans]
    exact hcur
  | ok p =>
    cases op with
    | createRecord tag' =>
      obtain ⟨id, hok, rfl⟩ := answer_map_eq_ok hans
      have hafter := currentRecord_createRecord hok tag
      simp only [Operation.Rebinds, hans]
      refine ⟨fun e => ⟨id, (stores_createRecord hok).1, ?_⟩, fun e => ?_⟩
      · exact hafter.trans (if_pos e.symm)
      · exact (hafter.trans (if_neg (Ne.symm e))).trans hcur
    | replaceSlots old slots =>
      obtain ⟨id, hok, rfl⟩ := answer_map_eq_ok hans
      have hafter := currentRecord_replaceSlots hm hok tag
      simp only [Operation.Rebinds, hans]
      refine ⟨fun e => ⟨id, (stores_replaceSlots hok).1, ?_⟩, fun e => ?_⟩
      · exact hafter.trans (if_pos e)
      · exact (hafter.trans (if_neg e)).trans hcur
    | replacePrototypeSlots tag' slots =>
      obtain ⟨id, hok, rfl⟩ := answer_map_eq_ok hans
      have hafter := currentRecord_replacePrototypeSlots hm hok tag
      simp only [Operation.Rebinds, hans]
      refine ⟨fun e => ⟨id, (stores_replacePrototypeSlots hm hok).1, ?_⟩, fun e => ?_⟩
      · exact hafter.trans (if_pos e.symm)
      · exact (hafter.trans (if_neg (Ne.symm e))).trans hcur
    | replacePrototype tag' methods =>
      obtain ⟨id, hok, rfl⟩ := answer_map_eq_ok hans
      simp only [Operation.Rebinds, hans, afterOne]
      show (_ → ∃ id, _ ∧ ((replacePrototype tag' methods).run m).model.currentRecord tag = _) ∧
        (_ → ((replacePrototype tag' methods).run m).model.currentRecord tag = _)
      rw [run_replacePrototype] at hok ⊢
      have hm' := hm.countMethods methods.size
      have hafter := currentRecord_replacePrototypeSlots hm' hok tag
      refine ⟨fun e => ⟨id, (stores_replacePrototypeSlots hm' hok).1, ?_⟩, fun e => ?_⟩
      · exact hafter.trans (if_pos e.symm)
      · exact (hafter.trans (if_neg (Ne.symm e))).trans hcur
    | construct | constructNamed =>
      obtain ⟨i, -, rfl⟩ := answer_map_eq_ok hans
      obtain ⟨b, -, -, hafter⟩ := built_of_answer hans
      refine ⟨False.elim, fun _ => ?_⟩
      rw [hafter]
      exact currentRecord_build b hcur
    | setSlot id name value =>
      exact ⟨False.elim, fun _ => (currentRecord_setSlot id name value m tag).trans hcur⟩
    | mutateSharedSlot tag' name value =>
      exact ⟨False.elim, fun _ =>
        (currentRecord_mutateSharedSlot tag' name value m tag).trans hcur⟩
    | relinkConstructor tag' =>
      exact ⟨False.elim, fun _ => (currentRecord_relinkConstructor tag' m tag).trans hcur⟩
    | allocate name body => exact ⟨False.elim, fun _ => hcur⟩

/-- An instance built by a delegating strategy has the record that the tag has afterwards. -/
theorem currentRecord_of_built {m : Model β} {b : Blueprint β} {i : Instance β}
    (h : ((build b).run m).answer = .ok i) (hs : b.strategy.delegates = true) :
    ∃ id, i.prototype = some id ∧ ((build b).run m).model.currentRecord b.tag = some id ∧
      ∀ cur, m.currentRecord b.tag = some cur → cur = id := by
  have hbuilt := built_eq h
  generalize ((build b).run m).model = m' at hbuilt ⊢
  cases hbuilt with
  | copying hs' =>
    rw [hs] at hs'
    cases hs'
  | found id _ hcur => exact ⟨id, rfl, hcur, fun cur h => Option.some.inj (h.symm.trans hcur)⟩
  | populated id r _ hcur =>
    refine ⟨id, rfl, ?_, fun cur h => Option.some.inj (h.symm.trans hcur)⟩
    show (m.modifyRecord id _).currentRecord b.tag = _
    rw [currentRecord_modifyRecord, hcur]
  | made id _ hcur hid =>
    refine ⟨id, rfl, ?_, fun cur h => by rw [hcur] at h; cases h⟩
    show (m.push _ true).currentRecord b.tag = _
    rw [currentRecord_push, if_pos (by simp)]
    simp

/-! ## Comparing prototypes -/

theorem sharesRecordWith_iff {m : Model β} {a b : Instance β} {id id' : RecordId}
    (ha : a.prototype = some id) (hb : b.prototype = some id') {r : Record β}
    (hr : m.record? id = some r) : m.sharesRecordWith a b = true ↔ id' = id := by
  have hmodel := model_of_record? hr
  simp only [sharesRecordWith, ha, hb, hmodel, beq_self_eq_true, Bool.and_true, beq_iff_eq]
  exact eq_comm

theorem get_of_slot {m : Model β} {i : Instance β} {id : RecordId} {r : Record β} {name : String}
    {v : Value (Method β)} (hown : i.getOwn name = none) (hproto : i.prototype = some id)
    (hr : m.record? id = some r) (hslot : r.slots.get? name = some v) : m.get i name = .ok v := by
  have hr' := record_eq_ok_iff.2 hr
  simp only [get, hown, hproto, hr', bind, Except.bind, hslot]

/-- A method in a shared slot is one method, looked up from either side. -/
theorem sameMethodReference_of_slot {m : Model β} {a b : Instance β} {id : RecordId} {r : Record β}
    (ha : a.prototype = some id) (hb : b.prototype = some id) (hr : m.record? id = some r)
    {name : String} {f : Method β} (hslot : r.slots.get? name = some (.method f))
    (hna : a.getOwn name = none) (hnb : b.getOwn name = none) :
    m.sameMethodReference a b name = .ok true :=
  sameMethodReference_eq_true_iff.2
    ⟨f, f, get_of_slot hna ha hr hslot, get_of_slot hnb hb hr hslot, rfl⟩

end Model

namespace World

/-! ## Along a past -/

/-- Whether any operation of a past gave another record to the tag. -/
def Rebound (w : World β) (tag : String) : List (Act β) → Prop
  | [] => False
  | .operate op :: past => op.Rebinds (w.after past).model tag ∨ w.Rebound tag past
  | _ :: past => w.Rebound tag past

/-- **The record of a tag after a past.** It is the one that the tag had if no operation gave it
another one, and otherwise one that was not there before. -/
theorem currentRecord_of_rebound {w : World β} (hm : w.model.Sound) {tag : String} {cur : RecordId}
    (hcur : w.model.currentRecord tag = some cur) (past : List (Act β)) :
    ∃ id, (w.after past).model.currentRecord tag = some id ∧
      (w.Rebound tag past → w.model.record? id = none) ∧ (¬ w.Rebound tag past → id = cur) := by
  induction past with
  | nil => exact ⟨cur, hcur, False.elim, fun _ => rfl⟩
  | cons a past ih =>
    obtain ⟨id, hid, hnew, hsame⟩ := ih
    cases a with
    | operate op =>
      have hm' := sound_after hm past
      obtain ⟨hyes, hno⟩ := Model.currentRecord_of_rebinds hm' hid op
      by_cases hop : op.Rebinds (w.after past).model tag
      · obtain ⟨new, hnext, hafter⟩ := hyes hop
        refine ⟨new, hafter, fun _ => ?_, fun h => absurd (.inl hop) h⟩
        -- the handle was not honoured just before, and so not at the beginning either
        have hlate := Model.record?_of_nextRecordId hnext
        cases hr : w.model.record? new with
        | none => rfl
        | some r =>
          obtain ⟨r', hr', -⟩ := (extends_after w past).record? hr
          rw [hlate] at hr'
          cases hr'
      · refine ⟨id, hno hop, fun h => hnew (h.resolve_left hop), fun h => hsame fun hp => h (.inr hp)⟩
    | clone i =>
      rw [after_cons, model_step_clone]
      exact ⟨id, hid, hnew, hsame⟩
    | setPrototype | setOwn | deleteOwn => exact ⟨id, hid, hnew, hsame⟩

/-- An instance keeps its prototype through an act that does not point it elsewhere. -/
theorem prototype_step {w : World β} {a : Act β} {i : Nat} {o : Instance β}
    (ho : w.objects[i]? = some o) (ha : ¬ a.Points i) :
    ∃ o', (w.step a).objects[i]? = some o' ∧ o'.prototype = o.prototype := by
  cases a with
  | operate op => exact ⟨o, getElem?_step ho (by simp [Act.target?]), rfl⟩
  | clone j => exact ⟨o, getElem?_step ho (by simp [Act.target?]), rfl⟩
  | setPrototype j prototype =>
    have hj : j ≠ i := fun e => ha ⟨prototype, by rw [e]⟩
    exact ⟨o, getElem?_step ho (by simpa [Act.target?] using hj), rfl⟩
  | setOwn j name value =>
    by_cases hj : j = i
    · exact ⟨o.setOwn name value, by simp [step, Array.getElem?_modify, hj, ho], rfl⟩
    · exact ⟨o, getElem?_step ho (by simpa [Act.target?] using hj), rfl⟩
  | deleteOwn j name =>
    by_cases hj : j = i
    · exact ⟨o.deleteOwn name, by simp [step, Array.getElem?_modify, hj, ho], rfl⟩
    · exact ⟨o, getElem?_step ho (by simpa [Act.target?] using hj), rfl⟩

theorem prototype_after {w : World β} {i : Nat} {o : Instance β} (ho : w.objects[i]? = some o)
    {past : List (Act β)} (hpast : ∀ a ∈ past, ¬ a.Points i) :
    ∃ o', (w.after past).objects[i]? = some o' ∧ o'.prototype = o.prototype := by
  induction past with
  | nil => exact ⟨o, ho, rfl⟩
  | cons a past ih =>
    obtain ⟨o₁, ho₁, hproto₁⟩ := ih fun a' ha' => hpast a' (List.mem_cons_of_mem _ ha')
    obtain ⟨o₂, ho₂, hproto₂⟩ := prototype_step ho₁ (hpast a List.mem_cons_self)
    exact ⟨o₂, ho₂, hproto₂.trans hproto₁⟩

/-! ## Two instances of one tag -/

/-- The act builds the instance with this number, by a delegating strategy and under the tag. -/
def Attaches (w : World β) (tag : String) (i : Nat) (a : Act β) : Prop :=
  ∃ op b o, a = .operate op ∧ op.blueprint? = some b ∧ b.strategy.delegates = true ∧ b.tag = tag ∧
    (op.action.run w.model).answer = .ok (.object o) ∧ w.objects.size = i

/-- The instance is there after the act, and has the record that the tag has then. -/
theorem Attaches.exists_object {w : World β} {tag : String} {i : Nat} {a : Act β}
    (h : w.Attaches tag i a) :
    ∃ o id, (w.step a).objects[i]? = some o ∧ o.prototype = some id ∧
      (w.step a).model.currentRecord tag = some id ∧
      ∀ cur, w.model.currentRecord tag = some cur → cur = id := by
  obtain ⟨op, b, o, rfl, hb, hs, rfl, hans, rfl⟩ := h
  obtain ⟨b', hb', hok, hafter⟩ := Model.built_of_answer hans
  obtain rfl : b = b' := Option.some.inj (hb.symm.trans hb')
  obtain ⟨id, hproto, hcur, hbefore⟩ := Model.currentRecord_of_built hok hs
  refine ⟨o, id, ?_, hproto, ?_, hbefore⟩
  · simp only [step, receive, hans]
    exact Array.getElem?_push_size
  · rw [model_step_operate, hafter, hcur]

/-- The record of the first instance is still there after the second construction, and it is the
record of the second one unless the tag was given another in between. -/
theorem Attaches.prototypes {w : World β} (hm : w.model.Sound) {tag : String} {i j : Nat}
    {birth birth' : Act β} {between : List (Act β)} (ha : w.Attaches tag i birth)
    (hb : ((w.step birth).after between).Attaches tag j birth') :
    ∃ a b id id' r, (w.step birth).objects[i]? = some a ∧ a.prototype = some id ∧
      (((w.step birth).after between).step birth').objects[j]? = some b ∧ b.prototype = some id' ∧
      (w.step birth).model.record? id = some r ∧
      (id' = id ↔ ¬ (w.step birth).Rebound tag between) := by
  have hm₁ := sound_step hm birth
  obtain ⟨a, id, hai, haid, hcur, -⟩ := ha.exists_object
  obtain ⟨r, hr, -⟩ := hm₁.bound tag id hcur
  obtain ⟨b, id', hbj, hbid, -, hbefore⟩ := hb.exists_object
  obtain ⟨cur, hcur', hnew, hsame⟩ := currentRecord_of_rebound hm₁ hcur between
  obtain rfl : cur = id' := hbefore cur hcur'
  refine ⟨a, b, id, cur, r, hai, haid, hbj, hbid, hr, ?_, hsame⟩
  -- a record that was not there cannot be the first instance's own
  rintro rfl hre
  rw [hnew hre] at hr
  cases hr

/-- **Sharing.** An instance is built for a tag by a delegating strategy, and another one later, and
neither is pointed at another record. They share their record if and only if no operation between
the two constructions gave the tag another record. This is so in every later state, whatever has
happened by then; and if they share, a name that neither of them owns leads to the same method on
both wherever the slot of the record holds a method. -/
theorem shares_record_iff_not_rebound (nonce : UInt32) (limits : Limits)
    (earlier between later : List (Act β)) {birth birth' : Act β} {tag : String} {i j : Nat}
    (ha : ((World.new nonce limits).after earlier).Attaches tag i birth)
    (hb : ((World.new nonce limits).after (between ++ birth :: earlier)).Attaches tag j birth')
    (hi : ∀ a ∈ later ++ between, ¬ a.Points i) (hj : ∀ a ∈ later, ¬ a.Points j) :
    let w := (World.new nonce limits).after (later ++ birth' :: (between ++ birth :: earlier))
    ∃ a b, w.objects[i]? = some a ∧ w.objects[j]? = some b ∧
      (w.model.sharesRecordWith a b = true ↔
        ¬ ((World.new nonce limits).after (birth :: earlier)).Rebound tag between) ∧
      (w.model.sharesRecordWith a b = true →
        ∃ id r, a.prototype = some id ∧ b.prototype = some id ∧ w.model.record id = .ok r ∧
          ∀ name f, a.getOwn name = none → b.getOwn name = none →
            r.slots.get? name = some (.method f) →
            w.model.sameMethodReference a b name = .ok true) := by
  intro w
  have hnew : (World.new nonce limits : World β).model.Sound := Model.sound_new nonce limits
  have hsplit : (World.new nonce limits).after (between ++ birth :: earlier) =
      (((World.new nonce limits).after earlier).step birth).after between := by
    rw [after_append, after_cons]
  rw [hsplit] at hb
  obtain ⟨a₁, b₁, id, id', r₁, ha₁, haid, hb₁, hbid, hr₁, hiff⟩ :=
    ha.prototypes (sound_after hnew earlier) hb
  -- the first instance keeps its prototype, first until the second is built and then to the end
  have hend : w = ((((World.new nonce limits).after earlier).step birth).after
      (later ++ birth' :: between)) := by
    show after _ _ = _
    rw [← after_cons, ← after_append, List.append_assoc, List.cons_append]
  have hbirth' : ¬ birth'.Points i := by
    rintro ⟨prototype, rfl⟩
    obtain ⟨_, _, _, h, -⟩ := hb
    cases h
  have hkept : ∀ act ∈ later ++ birth' :: between, ¬ act.Points i := by
    intro act hact
    rcases List.mem_append.1 hact with h | h
    · exact hi act (List.mem_append_left _ h)
    · rcases List.mem_cons.1 h with rfl | h
      · exact hbirth'
      · exact hi act (List.mem_append_right _ h)
  obtain ⟨a, ha, hproto⟩ := prototype_after ha₁ hkept
  obtain ⟨b, hb, hproto'⟩ := prototype_after hb₁ hj
  rw [haid] at hproto
  rw [hbid] at hproto'
  rw [← hend] at ha
  rw [← after_cons, ← after_append, ← hend] at hb
  obtain ⟨r, hr, -⟩ := (extends_after _ (later ++ birth' :: between)).record? hr₁
  rw [← hend] at hr
  have hshares := Model.sharesRecordWith_iff hproto hproto' hr
  refine ⟨a, b, ha, hb, hshares.trans hiff, fun h => ?_⟩
  obtain rfl := hshares.1 h
  exact ⟨id', r, hproto, hproto', Model.record_eq_ok_iff.2 hr, fun name f hna hnb hslot =>
    Model.sameMethodReference_of_slot hproto hproto' hr hslot hna hnb⟩

/-- Acts that store two records, neither of them for the tag `T` as it stands: record 0 was replaced
before, so its replacement is bound to nothing. -/
def storedElsewhere : List (Act Unit) := [
  .operate (.replaceSlots (.ofParts 0 0) (.ofList [("f", .null)])),
  .operate (.createRecord "U")]

/-- The second construction fills the record that the first one found empty, and both instances have
the method from there. -/
theorem shares_record_iff_not_rebound_storedElsewhere :
    let earlier : List (Act Unit) := [
      .operate (.replacePrototypeSlots "T" ∅), .operate (.createRecord "T")]
    let birth : Act Unit :=
      .operate (.construct .constructorWithPrototype ∅ (.ofList [("f", ())]) "T")
    let birth' : Act Unit := .operate (.construct .dynamicPrototype ∅ (.ofList [("f", ())]) "T")
    let w := (World.new 0 {}).after (birth' :: (storedElsewhere ++ birth :: earlier))
    ∃ a b, w.objects[0]? = some a ∧ w.objects[1]? = some b ∧
      w.model.sharesRecordWith a b = true ∧ w.model.sameMethodReference a b "f" = .ok true := by
  intro earlier birth birth' w
  have ha : ((World.new 0 {}).after earlier).Attaches "T" 0 birth :=
    ⟨_, _, ⟨∅, some (.ofParts 1 0)⟩, rfl, rfl, rfl, rfl, rfl, rfl⟩
  have hb : ((World.new 0 {}).after (storedElsewhere ++ birth :: earlier)).Attaches "T" 1 birth' := by
    dsimp only [birth, birth', earlier]
    exact ⟨_, _, ⟨∅, some (.ofParts 1 0)⟩, rfl, rfl, rfl, rfl, rfl, rfl⟩
  have hkept : ∀ act ∈ ([] : List (Act Unit)) ++ storedElsewhere, ¬ act.Points 0 := by
    rintro act hact ⟨prototype, rfl⟩
    simp [storedElsewhere] at hact
  have hnot : ¬ ((World.new 0 {}).after (birth :: earlier)).Rebound "T" storedElsewhere := by
    have hstale : ((World.new 0 {}).after (.operate (.createRecord "U") ::
        birth :: earlier)).model.currentRecord "T" ≠ some (.ofParts 0 0) := by decide
    rintro (h | h | h)
    · exact hstale h
    · exact absurd (show "U" = "T" from h) (by decide)
    · exact h
  obtain ⟨a, b, hai, hbj, hiff, hmethods⟩ :=
    shares_record_iff_not_rebound 0 {} earlier storedElsewhere [] ha hb hkept (by simp)
  have hshares := hiff.2 hnot
  obtain ⟨id, r, hid, -, hr, hsame⟩ := hmethods hshares
  have ha' : w.objects[0]? = some ⟨∅, some (.ofParts 1 0)⟩ := by
    dsimp only [w, birth, birth', earlier]
    rfl
  have hb' : w.objects[1]? = some ⟨∅, some (.ofParts 1 0)⟩ := by
    dsimp only [w, birth, birth', earlier]
    rfl
  obtain rfl := Option.some.inj (hai.symm.trans ha')
  obtain rfl := Option.some.inj (hbj.symm.trans hb')
  obtain rfl := Option.some.inj hid
  have hslot : (w.model.record? (.ofParts 1 0)).bind (fun r => r.slots.get? "f") =
      some (.method ⟨⟨0, 0⟩, "f", ()⟩) := by
    dsimp only [w, birth, birth', earlier]
    rfl
  rw [show w.model.record? _ = some r from Model.record_eq_ok_iff.1 hr] at hslot
  exact ⟨_, _, hai, hbj, hshares, hsame "f" _ rfl rfl hslot⟩

end World

end Delegation
