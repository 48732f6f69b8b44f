import Delegation.Proofs.World
import Delegation.Proofs.Writes

/-!
# The latest write counts

What a lookup answers is determined by the past alone: the latest write to the instance's own
property, unless it was deleted since, or else the latest write to the slot of the record that the
instance delegates to, or else the slot that the record started out with. The past is read act by
act, from the latest on (`ownValue`, `slotValue`). All it takes from the state at each act is which
record a tag had and whether that record was empty.

The two tiers are two inductions on the past. For the slots the step is one equation for all
operations (`slot?_afterOne`), for the own properties one case for each act (`getOwn_eq_ownValue`).
-/

namespace Delegation

variable {β : Type}

/-! ## What the past has written -/

namespace World

/-- The first answer that the acts of a past give, from the latest on. -/
def latest {α : Type} (f : Model β → Operation β → Option α) (w : World β) :
    List (Act β) → Option α
  | [] => none
  | .operate op :: past => (f (w.after past).model op).or (w.latest f past)
  | _ :: past => w.latest f past

/-- The value of a slot: of the latest write in place, or else the one it started out with. -/
def slotValue (w : World β) (past : List (Act β)) (id : RecordId) (name : String) :
    Option (Value (Method β)) :=
  (w.latest (fun m op => op.slotWrite m id name) past).or
    (w.latest (fun m op => op.slotAtStart m id name) past)

/-- The value of an own property of the instance with this number: of the latest write, unless it
was deleted since. A clone has the past of the instance it was copied from. -/
def ownValue (w : World β) : List (Act β) → Nat → String → Option (Value (Method β))
  | [], _, _ => none
  | .setOwn j name' value :: past, i, name =>
    if j = i ∧ name' = name then some value else w.ownValue past i name
  | .deleteOwn j name' :: past, i, name =>
    if j = i ∧ name' = name then none else w.ownValue past i name
  | .setPrototype _ _ :: past, i, name => w.ownValue past i name
  | .clone j :: past, i, name =>
    w.ownValue past (if i = (w.after past).objects.size then j else i) name
  | .operate op :: past, i, name =>
    if i = (w.after past).objects.size then op.ownAtStart (w.after past).model name
    else w.ownValue past i name

/-- Every prototype that was set is none, or a record of the model at that time. -/
def KeepsToModel (w : World β) : List (Act β) → Prop
  | [] => True
  | .setPrototype _ (some id) :: past =>
    (∃ r, (w.after past).model.record id = .ok r) ∧ w.KeepsToModel past
  | _ :: past => w.KeepsToModel past

/-- Whether an act may change what the instance `o`, which has number `i`, shows under a name. An
own property hides everything but acts on itself. -/
def Touches (w : World β) (i : Nat) (o : Instance β) (name : String) : Act β → Prop
  | .setOwn j name' _ | .deleteOwn j name' => j = i ∧ name' = name
  | .setPrototype j _ => j = i ∧ o.getOwn name = none
  | .clone _ => False
  | .operate op =>
    o.getOwn name = none ∧ ∃ id, o.prototype = some id ∧ op.slotWrite w.model id name ≠ none

end World

namespace World

/-! ## The past as a whole -/

/-- **Slots and the past.** In a world that began without records, a slot holds what the past says. -/
theorem slot?_eq_slotValue (nonce : UInt32) (limits : Limits) (past : List (Act β)) (id : RecordId)
    (name : String) :
    ((World.new nonce limits).after past).model.slot? id name =
      (World.new nonce limits).slotValue past id name := by
  induction past with
  | nil => simp [World.new, Model.slot?, Model.record?, Model.new, slotValue, latest]
  | cons a past ih =>
    have hm := sound_after (w := World.new nonce limits) (Model.sound_new nonce limits) past
    cases a with
    | operate op =>
      rw [after_cons, model_step_operate, Model.slot?_afterOne hm, ih]
      simp only [slotValue, latest]
      cases hstart : op.slotAtStart ((World.new nonce limits).after past).model id name with
      | none => simp [Option.or_assoc]
      | some v =>
        -- the record is new: the past before has nothing to say about it
        obtain ⟨hwrite, hrecord⟩ := Model.record?_of_slotAtStart hm hstart
        have hnone := ih
        rw [Model.slot?, hrecord, Option.bind_none, slotValue, eq_comm,
          Option.or_eq_none_iff] at hnone
        rw [Model.slot?, hrecord, Option.bind_none] at ih
        simp [hwrite, hnone.1]
    | clone j =>
      rw [after_cons, model_step_clone, ih]
      rfl
    | _ => exact ih

theorem ownValue_cons_of_kept {w : World β} {past : List (Act β)} {a : Act β} {i : Nat}
    (hi : i < (w.after past).objects.size) (ha : a.target? ≠ some i) (name : String) :
    w.ownValue (a :: past) i name = w.ownValue past i name := by
  have hne : i ≠ (w.after past).objects.size := by omega
  cases a with
  | operate op => rw [ownValue, if_neg hne]
  | clone j => rw [ownValue, if_neg hne]
  | setPrototype j prototype => rfl
  | setOwn j name' value => rw [ownValue, if_neg fun h => ha (congrArg some h.1)]
  | deleteOwn j name' => rw [ownValue, if_neg fun h => ha (congrArg some h.1)]

/-- **Own properties and the past.** An instance owns what the past says. -/
theorem getOwn_eq_ownValue (nonce : UInt32) (limits : Limits) (past : List (Act β)) {i : Nat}
    {o : Instance β} (ho : ((World.new nonce limits).after past).objects[i]? = some o)
    (name : String) : o.getOwn name = (World.new nonce limits).ownValue past i name := by
  induction past generalizing i o with
  | nil => simp [World.new] at ho
  | cons a past ih =>
    cases became ho with
    | kept hold ha =>
      have hlt := (Array.getElem?_eq_some_iff.1 hold).1
      rw [ownValue_cons_of_kept hlt ha, ih hold]
    | pointed hold => rw [ownValue, ← ih hold]; rfl
    | @written _ _ name' _ hold =>
      rw [ownValue, ← ih hold, Instance.getOwn, Instance.setOwn, NameMap.get?_insert, Instance.getOwn]
      by_cases e : name' = name
      · simp [e]
      · simp [e, Ne.symm e]
    | @deleted _ _ name' hold =>
      rw [ownValue, ← ih hold, Instance.getOwn, Instance.deleteOwn, NameMap.get?_erase,
        Instance.getOwn]
      by_cases e : name' = name
      · simp [e]
      · simp [e, Ne.symm e]
    | copied hold => rw [ownValue, if_pos rfl, ih hold]
    | built hans => rw [ownValue, if_pos rfl, Model.getOwn_of_answer hans]

/-! ## Prototypes -/

theorem KeepsToModel.tail {w : World β} {a : Act β} {past : List (Act β)}
    (h : w.KeepsToModel (a :: past)) : w.KeepsToModel past := by
  cases a with
  | setPrototype i prototype =>
    cases prototype with
    | none => exact h
    | some id => exact h.2
  | _ => exact h

theorem record?_of_answer {m : Model β} (hm : m.Sound) {op : Operation β} {i : Instance β}
    (h : (op.action.run m).answer = .ok (.object i)) {id : RecordId}
    (hproto : i.prototype = some id) : ∃ r, (m.afterOne op).record? id = some r :=
  (Model.GivesOut.product op (.object i) id h hproto).record? hm

/-- In a world that keeps to its model, every prototype is a record of the model. -/
theorem record?_of_prototype {nonce : UInt32} {limits : Limits} {past : List (Act β)}
    (hkeep : (World.new nonce limits).KeepsToModel past) {i : Nat} {o : Instance β}
    (ho : ((World.new nonce limits).after past).objects[i]? = some o) {id : RecordId}
    (hproto : o.prototype = some id) :
    ∃ r, ((World.new nonce limits).after past).model.record? id = some r := by
  induction past generalizing i o with
  | nil => simp [World.new] at ho
  | cons a past ih =>
    have ih := @ih hkeep.tail
    have hm := sound_after (w := World.new nonce limits) (Model.sound_new nonce limits) past
    -- a record that was found before is found after the act
    have hlater : (∃ r, ((World.new nonce limits).after past).model.record? id = some r) →
        ∃ r, ((World.new nonce limits).after (a :: past)).model.record? id = some r := by
      rintro ⟨r, hr⟩
      obtain ⟨r', hr', -⟩ := (extends_step _ a).record? hr
      exact ⟨r', hr'⟩
    cases became ho with
    | kept hold => exact hlater (ih hold hproto)
    | @pointed _ _ prototype =>
      obtain rfl : prototype = some id := hproto
      obtain ⟨r, hr⟩ := hkeep.1
      exact ⟨r, Model.record_eq_ok_iff.1 hr⟩
    | written hold => exact hlater (ih hold hproto)
    | deleted hold => exact hlater (ih hold hproto)
    | copied hold => exact hlater (ih hold hproto)
    | built hans => exact record?_of_answer hm hans hproto

/-! ## Lookups -/

/-- **What an act leaves alone.** An act that does not touch a name of an instance leaves what the
instance shows under it. -/
theorem get_step_of_not_touches {w : World β} (hm : w.model.Sound) {i : Nat} {o : Instance β}
    (ho : w.objects[i]? = some o)
    (hproto : ∀ id, o.prototype = some id → ∃ r, w.model.record? id = some r) {name : String}
    {a : Act β} (ha : ¬ w.Touches i o name a) :
    ∃ o', (w.step a).objects[i]? = some o' ∧ (w.step a).model.get o' name = w.model.get o name := by
  cases a with
  | operate op =>
    refine ⟨o, getElem?_step ho (by simp [Act.target?]), ?_⟩
    cases hown : o.getOwn name with
    | some v => rw [Model.get_own hown, Model.get_own hown]
    | none =>
      have hafter : ∀ id, o.prototype = some id →
          ∃ r, (w.model.afterOne op).record? id = some r := by
        intro id hid
        obtain ⟨r, hr⟩ := hproto id hid
        obtain ⟨r', hr', -⟩ := (Model.extends_afterOne w.model op).record? hr
        exact ⟨r', hr'⟩
      rw [model_step_operate, Model.get_eq hafter, Model.get_eq hproto]
      cases hid : o.prototype with
      | none => rfl
      | some id =>
        have hwrite : op.slotWrite w.model id name = none :=
          Classical.byContradiction fun hne => ha ⟨hown, id, hid, hne⟩
        obtain ⟨r, hr⟩ := hproto id hid
        rw [Option.bind_some, Option.bind_some, Model.slot?_of_slotWrite_eq_none hm hwrite hr]
  | clone j => exact ⟨o, getElem?_step ho (by simp [Act.target?]), by rw [model_step_clone]⟩
  | setPrototype j prototype =>
    by_cases hj : j = i
    · refine ⟨o.setPrototype prototype, by simp [step, Array.getElem?_modify, hj, ho], ?_⟩
      cases hown : o.getOwn name with
      | none => exact absurd ⟨hj, hown⟩ ha
      | some v =>
        have hown' : (o.setPrototype prototype).getOwn name = some v := hown
        rw [Model.get_own hown, Model.get_own hown']
    · exact ⟨o, getElem?_step ho (by simpa [Act.target?] using hj), rfl⟩
  | setOwn j name' value =>
    by_cases hj : j = i
    · refine ⟨o.setOwn name' value, by simp [step, Array.getElem?_modify, hj, ho], ?_⟩
      have hne : name ≠ name' := fun e => ha ⟨hj, e.symm⟩
      refine Model.get_congr ?_ rfl
      rw [Instance.getOwn, Instance.setOwn, NameMap.get?_insert, if_neg hne, Instance.getOwn]
    · exact ⟨o, getElem?_step ho (by simpa [Act.target?] using hj), rfl⟩
  | deleteOwn j name' =>
    by_cases hj : j = i
    · refine ⟨o.deleteOwn name', by simp [step, Array.getElem?_modify, hj, ho], ?_⟩
      have hne : name ≠ name' := fun e => ha ⟨hj, e.symm⟩
      refine Model.get_congr ?_ rfl
      rw [Instance.getOwn, Instance.deleteOwn, NameMap.get?_erase, if_neg hne, Instance.getOwn]
    · exact ⟨o, getElem?_step ho (by simpa [Act.target?] using hj), rfl⟩

/-- **The latest write counts.** In a world that began with a new model and has kept its prototypes
to that model, a lookup answers with the latest write to the own property, unless it was deleted
since, or else with the slot that the past has left in the prototype's record, or else with the fault
of a missing property. An act that does not touch the name leaves the answer as it is. -/
theorem get_eq_latest_write (nonce : UInt32) (limits : Limits) (past : List (Act β))
    (hkeep : (World.new nonce limits).KeepsToModel past) {i : Nat} {o : Instance β}
    (ho : ((World.new nonce limits).after past).objects[i]? = some o) (name : String) :
    let w := (World.new nonce limits).after past
    (w.model.get o name =
      match (World.new nonce limits).ownValue past i name with
      | some v => .ok v
      | none =>
        match o.prototype.bind fun id => (World.new nonce limits).slotValue past id name with
        | some v => .ok v
        | none => .error (.propertyNotFound name)) ∧
    ∀ a, ¬ w.Touches i o name a →
      ∃ o', (w.step a).objects[i]? = some o' ∧
        (w.step a).model.get o' name = w.model.get o name := by
  intro w
  have hm : w.model.Sound := sound_after (Model.sound_new nonce limits) past
  have hproto : ∀ id, o.prototype = some id → ∃ r, w.model.record? id = some r :=
    fun id hid => record?_of_prototype hkeep ho hid
  refine ⟨?_, fun a ha => get_step_of_not_touches hm ho hproto ha⟩
  have hslot : (fun id => w.model.slot? id name) =
      fun id => (World.new nonce limits).slotValue past id name := by
    funext id
    exact slot?_eq_slotValue nonce limits past id name
  rw [Model.get_eq hproto, hslot, getOwn_eq_ownValue nonce limits past ho]
  cases (World.new nonce limits).ownValue past i name <;> rfl

/-- A past in which the slot of a record is written while an instance hides it, the instance stops
hiding it after the record was replaced, and a clone goes over to the replacement. -/
def replacedWhileHidden : List (Act Unit) := [
  .setPrototype 1 (some (.ofParts 1 0)),
  .operate (.mutateSharedSlot "T" "f" (.bool false)),
  .operate (.replacePrototypeSlots "T" (.ofList [("f", .null)])),
  .deleteOwn 0 "f",
  .clone 0,
  .operate (.mutateSharedSlot "T" "f" (.string "shared")),
  .setOwn 0 "f" (.bool true),
  .operate (.construct .dynamicPrototype ∅ (.ofList [("f", ())]) "T")]

/-- The instance shows the write it had hidden, and a later write to the tag's slot lands on another
record. The clone still has its own property. -/
theorem get_eq_latest_write_replacedWhileHidden :
    let w := (World.new 0 {}).after replacedWhileHidden
    let later := w.step (.operate (.mutateSharedSlot "T" "f" .undefined))
    (World.new 0 {}).KeepsToModel replacedWhileHidden ∧
    (∃ o, w.objects[0]? = some o ∧ w.model.get o "f" = .ok (.string "shared") ∧
      ∃ o', later.objects[0]? = some o' ∧ later.model.get o' "f" = .ok (.string "shared")) ∧
    ∃ o, w.objects[1]? = some o ∧ w.model.get o "f" = .ok (.bool true) := by
  have hkeep : (World.new 0 {}).KeepsToModel replacedWhileHidden := ⟨⟨_, rfl⟩, trivial⟩
  obtain ⟨hget, hframe⟩ := get_eq_latest_write 0 {} replacedWhileHidden hkeep (i := 0) rfl "f"
  refine ⟨hkeep, ⟨_, rfl, hget, ?_⟩, _, rfl,
    (get_eq_latest_write 0 {} replacedWhileHidden hkeep (i := 1) rfl "f").1⟩
  obtain ⟨o', ho', hsame⟩ := hframe (.operate (.mutateSharedSlot "T" "f" .undefined)) (by
    rintro ⟨-, id, hid, hne⟩
    cases hid
    exact hne rfl)
  exact ⟨o', ho', hsame.trans hget⟩

end World

end Delegation
