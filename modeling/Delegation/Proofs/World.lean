import Delegation.Proofs.RecordTable

/-!
# Worlds

A model seldom stands alone: callers hold the instances it built, write their properties, copy them
and point them at other records. A `World` is a model with these instances, numbered in the order in
which they came to be, and an `Act` is anything that can be done to either. A world's past is the
list of its acts, the latest first, so that what came last is found first.
-/

namespace Delegation

variable {β : Type}

/-- A model, and the instances that callers hold. -/
structure World (β : Type) where
  model : Model β
  /-- In the order in which they came to be; none is ever given up. -/
  objects : Array (Instance β)

/-- What callers do, to the model or to one of the instances. -/
inductive Act (β : Type) where
  | operate (op : Operation β)
  | setPrototype (object : Nat) (prototype : Option RecordId)
  | setOwn (object : Nat) (name : String) (value : Value (Method β))
  | deleteOwn (object : Nat) (name : String)
  | clone (object : Nat)

namespace World

def new (nonce : UInt32) (limits : Limits) : World β :=
  { model := .new nonce limits, objects := #[] }

/-- The instances after an answer, which may be one more. -/
def receive (objects : Array (Instance β)) : Except Fault (Product β) → Array (Instance β)
  | .ok (.object i) => objects.push i
  | _ => objects

/-- The world after one act. -/
def step (w : World β) : Act β → World β
  | .operate op =>
    { model := w.model.afterOne op
      objects := receive w.objects (op.action.run w.model).answer }
  | .setPrototype i prototype =>
    { w with objects := w.objects.modify i (·.setPrototype prototype) }
  | .setOwn i name value => { w with objects := w.objects.modify i (·.setOwn name value) }
  | .deleteOwn i name => { w with objects := w.objects.modify i (·.deleteOwn name) }
  | .clone i =>
    match w.objects[i]? with
    | some o => { w with objects := w.objects.push o }
    | none => w

/-- The world after a past, the latest act first. -/
def after (w : World β) : List (Act β) → World β
  | [] => w
  | a :: past => (w.after past).step a

@[simp] theorem after_nil (w : World β) : w.after [] = w := rfl

@[simp] theorem after_cons (w : World β) (a : Act β) (past : List (Act β)) :
    w.after (a :: past) = (w.after past).step a := rfl

/-! ## The model of a world -/

@[simp] theorem model_step_operate (w : World β) (op : Operation β) :
    (w.step (.operate op)).model = w.model.afterOne op := rfl

@[simp] theorem model_step_clone (w : World β) (i : Nat) : (w.step (.clone i)).model = w.model := by
  simp only [step]
  split <;> rfl

theorem model_step (w : World β) (a : Act β) :
    (w.step a).model = w.model ∨ ∃ op, a = .operate op ∧ (w.step a).model = w.model.afterOne op := by
  cases a with
  | operate op => exact .inr ⟨op, rfl, rfl⟩
  | clone i => exact .inl (model_step_clone w i)
  | _ => exact .inl rfl

theorem model_step_of_not_operate {a : Act β} (ha : ¬ ∃ op, a = .operate op) (w : World β) :
    (w.step a).model = w.model := by
  rcases model_step w a with e | ⟨op, rfl, -⟩
  · exact e
  · exact absurd ⟨op, rfl⟩ ha

theorem sound_step {w : World β} (h : w.model.Sound) (a : Act β) : (w.step a).model.Sound := by
  rcases model_step w a with e | ⟨op, -, e⟩
  · rw [e]; exact h
  · rw [e]; exact h.afterOne op

theorem sound_after {w : World β} (h : w.model.Sound) (past : List (Act β)) :
    (w.after past).model.Sound := by
  induction past with
  | nil => exact h
  | cons a past ih => exact sound_step ih a

theorem extends_step (w : World β) (a : Act β) : w.model.Extends (w.step a).model := by
  rcases model_step w a with e | ⟨op, -, e⟩
  · rw [e]; exact .refl _
  · rw [e]; exact Model.extends_afterOne _ op

theorem after_append (w : World β) (later earlier : List (Act β)) :
    w.after (later ++ earlier) = (w.after earlier).after later := by
  induction later with
  | nil => rfl
  | cons a later ih => rw [List.cons_append, after_cons, after_cons, ih]

theorem extends_after (w : World β) (past : List (Act β)) :
    w.model.Extends (w.after past).model := by
  induction past with
  | nil => exact .refl _
  | cons a past ih => exact ih.trans (extends_step _ a)

/-! ## What has happened -/

section Happened

variable {w : World β}

/-- Some operation of the past was such, on the model that it found. -/
def Happened (w : World β) (past : List (Act β)) (P : Model β → Operation β → Prop) : Prop :=
  ∃ later op earlier, past = later ++ .operate op :: earlier ∧ P (w.after earlier).model op

theorem happened_cons_operate {op : Operation β} {past : List (Act β)}
    {P : Model β → Operation β → Prop} :
    w.Happened (.operate op :: past) P ↔ P (w.after past).model op ∨ w.Happened past P := by
  constructor
  · rintro ⟨later, op', earlier, hpast, hP⟩
    cases later with
    | nil =>
      obtain ⟨e, rfl⟩ := List.cons.inj hpast
      cases e
      exact .inl hP
    | cons a later =>
      obtain ⟨-, rfl⟩ := List.cons.inj hpast
      exact .inr ⟨later, op', earlier, rfl, hP⟩
  · rintro (hP | ⟨later, op', earlier, rfl, hP⟩)
    · exact ⟨[], op, past, rfl, hP⟩
    · exact ⟨.operate op :: later, op', earlier, rfl, hP⟩

theorem happened_cons_of_not_operate {a : Act β} (ha : ¬ ∃ op, a = .operate op)
    {past : List (Act β)} {P : Model β → Operation β → Prop} :
    w.Happened (a :: past) P ↔ w.Happened past P := by
  constructor
  · rintro ⟨later, op, earlier, hpast, hP⟩
    cases later with
    | nil => exact absurd ⟨op, (List.cons.inj hpast).1⟩ ha
    | cons a' later =>
      obtain ⟨-, rfl⟩ := List.cons.inj hpast
      exact ⟨later, op, earlier, rfl, hP⟩
  · rintro ⟨later, op, earlier, rfl, hP⟩
    exact ⟨a :: later, op, earlier, rfl, hP⟩

theorem Happened.mono {past : List (Act β)} {P Q : Model β → Operation β → Prop}
    (h : w.Happened past P) (hPQ : ∀ m op, P m op → Q m op) : w.Happened past Q := by
  obtain ⟨later, op, earlier, hpast, hP⟩ := h
  exact ⟨later, op, earlier, hpast, hPQ _ _ hP⟩

theorem Happened.later {past : List (Act β)} {P : Model β → Operation β → Prop}
    (h : w.Happened past P) (later : List (Act β)) : w.Happened (later ++ past) P := by
  obtain ⟨between, op, earlier, rfl, hP⟩ := h
  exact ⟨later ++ between, op, earlier, by rw [List.append_assoc], hP⟩

end Happened

/-! ## The instances of a world -/

end World

/-- The instance that an act changes. -/
def Act.target? : Act β → Option Nat
  | .setPrototype i _ | .setOwn i _ _ | .deleteOwn i _ => some i
  | .operate _ | .clone _ => none

namespace World

/-- Where an instance that is there after an act comes from. -/
inductive Became (w : World β) : Act β → Nat → Instance β → Prop where
  | kept {a : Act β} {i : Nat} {o : Instance β} (ho : w.objects[i]? = some o)
      (ha : a.target? ≠ some i) : Became w a i o
  | pointed {i : Nat} {o : Instance β} {prototype : Option RecordId}
      (ho : w.objects[i]? = some o) :
      Became w (.setPrototype i prototype) i (o.setPrototype prototype)
  | written {i : Nat} {o : Instance β} {name : String} {value : Value (Method β)}
      (ho : w.objects[i]? = some o) : Became w (.setOwn i name value) i (o.setOwn name value)
  | deleted {i : Nat} {o : Instance β} {name : String} (ho : w.objects[i]? = some o) :
      Became w (.deleteOwn i name) i (o.deleteOwn name)
  | copied {j : Nat} {o : Instance β} (ho : w.objects[j]? = some o) :
      Became w (.clone j) w.objects.size o
  | built {op : Operation β} {o : Instance β}
      (hans : (op.action.run w.model).answer = .ok (.object o)) :
      Became w (.operate op) w.objects.size o

theorem getElem?_receive {objects : Array (Instance β)} {answer : Except Fault (Product β)} {i : Nat}
    {o : Instance β} (h : (receive objects answer)[i]? = some o) :
    objects[i]? = some o ∨ i = objects.size ∧ answer = .ok (.object o) := by
  unfold receive at h
  split at h
  · rw [Array.getElem?_push] at h
    split at h
    next hi =>
      obtain rfl : _ = o := by simpa using h
      exact .inr ⟨hi, rfl⟩
    next => exact .inl h
  · exact .inl h

/-- **Instances.** An act builds, copies or changes one instance, and keeps all others. -/
theorem became {w : World β} {a : Act β} {i : Nat} {o : Instance β}
    (h : (w.step a).objects[i]? = some o) : Became w a i o := by
  cases a with
  | operate op =>
    rcases getElem?_receive h with ho | ⟨rfl, hans⟩
    · exact .kept ho (by simp [Act.target?])
    · exact .built hans
  | setPrototype j prototype =>
    simp only [step, Array.getElem?_modify] at h
    split at h
    next hj =>
      subst hj
      obtain ⟨o', ho', rfl⟩ := Option.map_eq_some_iff.1 h
      exact .pointed ho'
    next hj => exact .kept h (by simpa [Act.target?] using hj)
  | setOwn j name value =>
    simp only [step, Array.getElem?_modify] at h
    split at h
    next hj =>
      subst hj
      obtain ⟨o', ho', rfl⟩ := Option.map_eq_some_iff.1 h
      exact .written ho'
    next hj => exact .kept h (by simpa [Act.target?] using hj)
  | deleteOwn j name =>
    simp only [step, Array.getElem?_modify] at h
    split at h
    next hj =>
      subst hj
      obtain ⟨o', ho', rfl⟩ := Option.map_eq_some_iff.1 h
      exact .deleted ho'
    next hj => exact .kept h (by simpa [Act.target?] using hj)
  | clone j =>
    simp only [step] at h
    split at h
    next o' ho' =>
      rw [Array.getElem?_push] at h
      split at h
      next hi =>
        subst hi
        obtain rfl : o' = o := by simpa using h
        exact .copied ho'
      next => exact .kept h (by simp [Act.target?])
    next => exact .kept h (by simp [Act.target?])

theorem getElem?_step {w : World β} {a : Act β} {i : Nat} {o : Instance β}
    (ho : w.objects[i]? = some o) (ha : a.target? ≠ some i) :
    (w.step a).objects[i]? = some o := by
  have hlt : i < w.objects.size := (Array.getElem?_eq_some_iff.1 ho).1
  have hpush : ∀ o', (w.objects.push o')[i]? = some o := by
    intro o'
    rw [Array.getElem?_push, if_neg (by omega), ho]
  cases a with
  | operate op =>
    simp only [step, receive]
    split
    · exact hpush _
    · exact ho
  | clone j =>
    simp only [step]
    split
    · exact hpush _
    · exact ho
  | setPrototype j | setOwn j | deleteOwn j =>
    have hj : j ≠ i := fun e => ha (congrArg some e)
    simp [step, Array.getElem?_modify, hj, ho]

end World

end Delegation
