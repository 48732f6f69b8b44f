import Delegation.Instance
import Delegation.Model.Replace
/-!
# Construction

Building an instance. The fields become own properties whatever the strategy; the strategy decides
where the methods go. Copying strategies allocate every method anew into the instance. Delegating
strategies attach the instance to the tag's current record and write the methods there: one of them
only when it had to make the record, the other whenever the record has no slots.

Methods are allocated and written in ascending order of their names.
-/

namespace Delegation.Model

variable {β : Type}

/-- Allocates a method for every body in a list and writes it into a record. -/
def writeMethods (id : RecordId) : List (String × β) → Action β Unit
  | [] => return
  | (name, body) :: rest => do
    let method ← .allocate name body
    setSlot id name (.method method)
    writeMethods id rest

/-- The record that a new instance delegates to, with the methods written where the strategy wants
them; none for a copying strategy. -/
def attach (strategy : Strategy) (methods : MethodTable β) (tag : String) :
    Action β (Option RecordId) := do
  match strategy with
  | .factory | .constructorOnly => return none
  | .constructorWithPrototype =>
    match ← .ask fun m => m.currentRecord tag with
    | some id => return some id
    | none =>
      let id ← createRecord tag
      writeMethods id methods.toList
      return some id
  | .dynamicPrototype =>
    let id ← match ← .ask fun m => m.currentRecord tag with
      | some id => pure id
      | none => createRecord tag
    let record ← .consult fun m => m.record id
    if record.isPopulated then
      return some id
    else
      .report (.populating id.index.toNat)
      writeMethods id methods.toList
      return some id

/-- The own properties of a new instance: the fields, overwritten by copies of the methods when the
strategy copies. -/
def layOut (strategy : Strategy) (fields : PropertyMap β) (methods : MethodTable β) :
    Action β (PropertyMap β) := do
  if strategy.delegates then
    return fields
  else
    let copies ← allocateAll methods.toList
    return fields.insertAll copies

/-- Builds an instance. -/
def construct (strategy : Strategy) (fields : PropertyMap β) (methods : MethodTable β)
    (tag : String) : Action β (Instance β) :=
  .within (.construct strategy tag) do
    let prototype ← attach strategy methods tag
    let own ← layOut strategy fields methods
    .report (.constructed own.size)
    return { own, prototype }

/-- Builds an instance with the strategy of a name. -/
def constructNamed (strategy : String) (fields : PropertyMap β) (methods : MethodTable β)
    (tag : String) : Action β (Instance β) := do
  let strategy ← .consult fun _ => Strategy.ofName strategy
  construct strategy fields methods tag

/-! ## Writing methods into a record -/

/-- **Methods of a record.** Writing methods into a record of the model is never refused: they are
allocated in order, each is written under its name, and each write is reported. -/
theorem run_writeMethods {m : Model β} {id : RecordId} {r : Record β} (h : m.record? id = some r)
    (bodies : List (String × β)) :
    (writeMethods id bodies).run m =
      { answer := .ok ()
        model := (m.modifyRecord id fun r => r.setSlots (m.nextMethods bodies)).countMethods
          bodies.length
        journal := bodies.map fun p => .logged (.slotSet r.id.index.toNat p.1) } := by
  induction bodies generalizing m r with
  | nil => simp [writeMethods, nextMethods, Record.setSlots, countMethods]
  | cons p rest ih =>
    obtain ⟨name, body⟩ := p
    have hrec : m.countMethod.record id = .ok r := record_eq_ok_iff.2 h
    have hnext := record?_modifyRecord m.countMethod id id fun r =>
      r.setSlot name (.method (m.nextMethod name body))
    rw [if_pos rfl, show m.countMethod.record? id = some r from h, Option.map_some] at hnext
    rw [writeMethods, Action.run_bind, Action.run_allocate, Action.andThen_ok, Action.run_bind,
      run_setSlot, hrec]
    simp only [Action.andThen_ok]
    rw [ih hnext, Record.id_setSlot]
    have hsame : (m.countMethod.modifyRecord id fun r =>
        r.setSlot name (.method (m.nextMethod name body))).nextMethods rest
          = m.countMethod.nextMethods rest :=
      nextMethods_congr (by simp) (by simp) rest
    rw [hsame, modifyRecord_modifyRecord]
    have hcount : m.countMethod = m.countMethods 1 := rfl
    simp only [hcount, modifyRecord_countMethods, List.length_cons, List.map_cons, List.nil_append,
      List.cons_append]
    simp only [countMethods, nextMethods, Record.setSlots, List.foldl_cons, hcount,
      Nat.add_comm 1, Nat.add_assoc]

end Delegation.Model
