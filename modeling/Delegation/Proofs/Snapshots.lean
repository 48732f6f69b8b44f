import Delegation.Proofs.IdentityTests

/-!
# What a snapshot tells

A snapshot lays both tiers of an instance side by side, and a model looks names up in the two tiers
themselves. Here the two views are compared. A snapshot can be taken exactly if the instance has no
prototype or one that stands in the model's table (`viewed` lists the three cases), and then looking a
name up in the snapshot finds what the model finds (`get_of_snapshot`).

So whoever has the snapshots of two instances knows all that the model would say about either. What
counts as the same value is left open: `Snapshot.Matches R` compares by any relation `R` that does not
take two methods for one, such as identity and the equality that programs see.
-/

namespace Delegation

variable {β : Type}

/-! ## Comparing snapshots -/

/-- The identity of a method; nothing for any other value. -/
def Value.methodId? (v : Value (Method β)) : Option MethodId := v.asMethod.map (·.id)

/-- Related values are one and the same method, or neither is a method. -/
def RespectsMethods (R : Value (Method β) → Value (Method β) → Prop) : Prop :=
  ∀ v w, R v w → v.methodId? = w.methodId?

/-- Equality as programs see it, methods by their identity. -/
def Value.SeenEqual (v w : Value (Method β)) : Prop := v.equals Method.same w = true

theorem respectsMethods_eq : RespectsMethods (β := β) Eq := fun _ _ h => congrArg _ h

theorem respectsMethods_seenEqual : RespectsMethods (β := β) Value.SeenEqual := by
  intro v w h
  unfold Value.SeenEqual at h
  -- off the diagonal nothing is equal, and on it only methods have an identity to compare
  cases v <;> cases w <;> simp_all [Value.equals, Value.methodId?, Value.asMethod, Method.same]

/-- Two maps have the same names, with related values. -/
def PropertyMap.Matches (R : Value (Method β) → Value (Method β) → Prop) (ps qs : PropertyMap β) :
    Prop :=
  ∀ name, Option.Rel R (ps.get? name) (qs.get? name)

/-- Two snapshots of records show the same, up to related values. -/
structure RecordSnapshot.Matches (R : Value (Method β) → Value (Method β) → Prop)
    (p q : RecordSnapshot β) : Prop where
  id : p.id = q.id
  creatorTag : p.creatorTag = q.creatorTag
  backLink : p.backLink = q.backLink
  slots : PropertyMap.Matches R p.slots q.slots

/-- Two snapshots show the same, up to related values. -/
structure Snapshot.Matches (R : Value (Method β) → Value (Method β) → Prop) (s t : Snapshot β) :
    Prop where
  own : PropertyMap.Matches R s.own t.own
  prototype : Option.Rel (RecordSnapshot.Matches R) s.prototype t.prototype

/-- The value of a name in a snapshot: the own one, or else the slot. -/
def Snapshot.get? (s : Snapshot β) (name : String) : Option (Value (Method β)) :=
  (s.own.get? name).or (s.prototype.bind fun p => p.slots.get? name)

theorem Snapshot.Matches.get? {R : Value (Method β) → Value (Method β) → Prop} {s t : Snapshot β}
    (h : s.Matches R t) (name : String) : Option.Rel R (s.get? name) (t.get? name) := by
  unfold Snapshot.get?
  have hown := h.own name
  generalize s.own.get? name = v, t.own.get? name = w at hown
  cases hown with
  | some hvw => exact .some hvw
  | none =>
    have hproto := h.prototype
    generalize s.prototype = p, t.prototype = q at hproto
    cases hproto with
    | none => exact .none
    | some hpq => exact hpq.slots name

namespace Model

/-! ## Taking a snapshot -/

/-- The three ways in which taking a snapshot can go. -/
inductive Viewed (m : Model β) (i : Instance β) : Except Fault (Snapshot β) → Prop where
  /-- There is no record to be shown. -/
  | alone (hproto : i.prototype = none) : Viewed m i (.ok { own := i.own, prototype := none })
  /-- The record is shown under the handle that led to it. -/
  | onto (id : RecordId) (r : Record β) (hproto : i.prototype = some id)
      (hr : m.record? id = some r) :
      Viewed m i (.ok { own := i.own, prototype := some { r.snapshot with id } })
  /-- The handle leads to no record. -/
  | unknown (id : RecordId) (hproto : i.prototype = some id) (hr : m.record? id = none) :
      Viewed m i (.error .invalidHandle)

theorem viewed (m : Model β) (i : Instance β) : Viewed m i (m.snapshot i) := by
  cases hproto : i.prototype with
  | none =>
    simp only [snapshot, hproto]
    exact .alone hproto
  | some id =>
    simp only [snapshot, hproto, recordSnapshot, record]
    cases hr : m.record? id with
    | none => exact .unknown id hproto hr
    | some r => exact .onto id r hproto hr

theorem viewed_of_snapshot {m : Model β} {i : Instance β} {answer : Except Fault (Snapshot β)}
    (h : m.snapshot i = answer) : Viewed m i answer :=
  h ▸ viewed m i

/-- In the states that calls lead to, a handle finds a record exactly if one of the table carries
it. -/
theorem Sound.exists_record?_iff {m : Model β} (hm : m.Sound) (id : RecordId) :
    (∃ r, m.record? id = some r) ↔ ∃ r ∈ m.records, r.id = id := by
  constructor
  · rintro ⟨r, hr⟩
    exact ⟨r, Array.mem_of_getElem? (record?_eq_some_iff.1 hr).2, hm.id_eq hr⟩
  · rintro ⟨r, hmem, rfl⟩
    exact ⟨r, hm.record?_of_mem hmem⟩

/-- A snapshot is refused exactly if no record of the table carries the prototype's handle. -/
theorem Sound.snapshot_refused_iff {m : Model β} (hm : m.Sound) (i : Instance β) (f : Fault) :
    m.snapshot i = .error f ↔
      f = .invalidHandle ∧ ∃ id, i.prototype = some id ∧ ∀ r ∈ m.records, r.id ≠ id := by
  have hviewed := viewed m i
  generalize m.snapshot i = answer at hviewed ⊢
  cases hviewed with
  | alone hproto => simp [hproto]
  | onto id r hproto hr =>
    -- the record that was found is in the table
    obtain ⟨r', hmem, hid⟩ := (hm.exists_record?_iff id).1 ⟨r, hr⟩
    constructor
    · rintro ⟨⟩
    · rintro ⟨-, id', hproto', hnone⟩
      obtain rfl : id = id' := Option.some.inj (hproto.symm.trans hproto')
      exact absurd hid (hnone r' hmem)
  | unknown id hproto hr =>
    have hnone : ∀ r ∈ m.records, r.id ≠ id := by
      intro r hmem hid
      obtain ⟨r', hr'⟩ := (hm.exists_record?_iff id).2 ⟨r, hmem, hid⟩
      rw [hr] at hr'
      cases hr'
    constructor
    · rintro ⟨⟩
      exact ⟨rfl, id, hproto, hnone⟩
    · rintro ⟨rfl, -⟩
      rfl

/-! ## Reading a snapshot -/

section Reading

variable {m : Model β} {i : Instance β} {s : Snapshot β}

/-- **Two views, one value.** A name has the same value in the model and in the snapshot. -/
theorem get_of_snapshot (h : m.snapshot i = .ok s) (name : String) :
    m.get i name =
      match s.get? name with
      | some v => .ok v
      | none => .error (.propertyNotFound name) := by
  cases viewed_of_snapshot h with
  | alone hproto =>
    rw [get_eq (by simp [hproto]), hproto]
    rfl
  | onto id r hproto hr =>
    have hfound : ∀ id', i.prototype = some id' → ∃ r, m.record? id' = some r := by
      intro id' hproto'
      exact ⟨r, Option.some.inj (hproto.symm.trans hproto') ▸ hr⟩
    rw [get_eq hfound, hproto, Option.bind_some, slot?, hr, Option.bind_some]
    rfl

theorem prototype_of_snapshot (h : m.snapshot i = .ok s) :
    i.prototype = s.prototype.map (·.id) := by
  cases viewed_of_snapshot h with
  | alone hproto => exact hproto
  | onto id r hproto hr => exact hproto

/-- What the snapshot shows of the record is what the record holds. -/
theorem prototypeRecord?_of_snapshot (h : m.snapshot i = .ok s) :
    (m.prototypeRecord? i).map (fun r => (r.creatorTag, r.backLink)) =
      s.prototype.map fun p => (p.creatorTag, p.backLink) := by
  unfold prototypeRecord?
  cases viewed_of_snapshot h with
  | alone hproto => rw [hproto]; rfl
  | onto id r hproto hr => rw [hproto, Option.bind_some, hr]; rfl

theorem producedBy_of_snapshot (h : m.snapshot i = .ok s) (tag : String) :
    m.producedBy i tag = s.prototype.any fun p => p.creatorTag == tag := by
  have hshown := prototypeRecord?_of_snapshot h
  unfold producedBy
  generalize m.prototypeRecord? i = r, s.prototype = p at hshown
  cases r <;> cases p <;> simp_all

theorem constructorOf_of_snapshot (h : m.snapshot i = .ok s) :
    m.constructorOf i = s.prototype.bind (·.backLink) := by
  have hshown := prototypeRecord?_of_snapshot h
  unfold constructorOf
  generalize m.prototypeRecord? i = r, s.prototype = p at hshown
  cases r <;> cases p <;> simp_all

end Reading

/-! ## Instances that look the same -/

/-- Two answers to a lookup are the same fault, or related values. -/
inductive SameAnswer (R : Value (Method β) → Value (Method β) → Prop) :
    Except Fault (Value (Method β)) → Except Fault (Value (Method β)) → Prop where
  | value {v w : Value (Method β)} (h : R v w) : SameAnswer R (.ok v) (.ok w)
  | fault (f : Fault) : SameAnswer R (.error f) (.error f)

/-- No question that the model can be asked tells the two instances apart, up to related values. -/
structure Indistinguishable (m : Model β) (R : Value (Method β) → Value (Method β) → Prop)
    (a b : Instance β) : Prop where
  get : ∀ name, SameAnswer R (m.get a name) (m.get b name)
  hasProperty : ∀ name, m.hasProperty a name = m.hasProperty b name
  producedBy : ∀ tag, m.producedBy a tag = m.producedBy b tag
  isInstanceOf : ∀ tag, m.isInstanceOf a tag = m.isInstanceOf b tag
  constructorOf : m.constructorOf a = m.constructorOf b
  sharesRecordWith : ∀ c, m.sharesRecordWith a c = m.sharesRecordWith b c ∧
    m.sharesRecordWith c a = m.sharesRecordWith c b
  sameMethodReference : ∀ c name, m.sameMethodReference a c name = m.sameMethodReference b c name ∧
    m.sameMethodReference c a name = m.sameMethodReference c b name

/-- Comparing methods looks at identities alone. -/
theorem sameMethodReference_eq (m : Model β) (a b : Instance β) (name : String) :
    m.sameMethodReference a b name = (do
      let v ← m.get a name
      let w ← m.get b name
      return v.methodId?.isSome && v.methodId? == w.methodId?) := by
  unfold sameMethodReference
  cases m.get a name with
  | error f => rfl
  | ok v =>
    cases m.get b name with
    | error f => rfl
    | ok w => cases v <;> cases w <;> rfl

theorem sameMethodReference_congr {m : Model β} {R : Value (Method β) → Value (Method β) → Prop}
    (hR : RespectsMethods R) {a b : Instance β} {name : String}
    (h : SameAnswer R (m.get a name) (m.get b name)) (c : Instance β) :
    m.sameMethodReference a c name = m.sameMethodReference b c name ∧
      m.sameMethodReference c a name = m.sameMethodReference c b name := by
  simp only [sameMethodReference_eq]
  generalize m.get a name = answer, m.get b name = answer' at h
  cases h with
  | fault f => exact ⟨rfl, rfl⟩
  | value hvw =>
    have hid := hR _ _ hvw
    constructor
    · show (m.get c name >>= fun w => _) = (m.get c name >>= fun w => _)
      rw [hid]
    · show (m.get c name >>= fun w => _) = (m.get c name >>= fun w => _)
      simp only [bind, Except.bind, hid]

theorem indistinguishable_of_matches {m : Model β}
    {R : Value (Method β) → Value (Method β) → Prop} (hR : RespectsMethods R) {a b : Instance β}
    {s t : Snapshot β} (ha : m.snapshot a = .ok s) (hb : m.snapshot b = .ok t)
    (h : s.Matches R t) : m.Indistinguishable R a b := by
  have hget : ∀ name, SameAnswer R (m.get a name) (m.get b name) := by
    intro name
    rw [get_of_snapshot ha, get_of_snapshot hb]
    have hvalue := h.get? name
    generalize s.get? name = v, t.get? name = w at hvalue
    cases hvalue with
    | none => exact .fault _
    | some hvw => exact .value hvw
  -- the handles agree, and with them whatever depends on the prototype alone
  have hproto : a.prototype = b.prototype := by
    rw [prototype_of_snapshot ha, prototype_of_snapshot hb]
    have hshown := h.prototype
    generalize s.prototype = p, t.prototype = q at hshown
    cases hshown with
    | none => rfl
    | some hpq => exact congrArg some hpq.id
  obtain ⟨hproduced, hinstance, hlink, -⟩ := answers_congr (m := m) hproto
  constructor
  case get => exact hget
  case hasProperty =>
    intro name
    have hname := hget name
    unfold hasProperty
    generalize m.get a name = answer, m.get b name = answer' at hname
    cases hname <;> rfl
  case producedBy => exact hproduced
  case isInstanceOf => exact hinstance
  case constructorOf => exact hlink
  case sharesRecordWith =>
    intro c
    constructor
    · rw [sharesRecordWith, hproto, sharesRecordWith]
    · rw [sharesRecordWith, hproto, sharesRecordWith]
  case sameMethodReference => exact fun c name => sameMethodReference_congr hR (hget name) c

/-- **Adequacy.** In every state that calls lead to, a snapshot is taken of an instance exactly if it
has no prototype, or its prototype is the handle of a record in the table; otherwise the handle is
invalid. A snapshot that was taken finds under every name what the model finds, own properties before
slots, and it names the handle, the tag and the link that the model reports. So two instances whose
snapshots match are told apart by no question, neither alone nor beside a third instance, and whether
they match may be judged by identity or by the equality that programs see. -/
theorem snapshot_adequate {m : Model β} (hm : m.Reachable) (i : Instance β) :
    ((∃ s, m.snapshot i = .ok s) ↔
      i.prototype = none ∨ ∃ r ∈ m.records, i.prototype = some r.id) ∧
    (∀ f, m.snapshot i = .error f → f = .invalidHandle) ∧
    (∀ s, m.snapshot i = .ok s →
      (∀ name, m.get i name =
        match s.own.get? name, s.prototype.bind fun p => p.slots.get? name with
        | some v, _ => .ok v
        | none, some v => .ok v
        | none, none => .error (.propertyNotFound name)) ∧
      i.prototype = s.prototype.map (·.id) ∧
      (∀ tag, m.producedBy i tag = true ↔ ∃ p, s.prototype = some p ∧ p.creatorTag = tag) ∧
      m.constructorOf i = s.prototype.bind (·.backLink)) ∧
    RespectsMethods (β := β) Eq ∧ RespectsMethods (β := β) Value.SeenEqual ∧
    ∀ R, RespectsMethods R → ∀ (j : Instance β) (s t : Snapshot β), m.snapshot i = .ok s →
      m.snapshot j = .ok t → s.Matches R t → m.Indistinguishable R i j := by
  have hrefused := hm.sound.snapshot_refused_iff i
  refine ⟨?_, fun f hf => ((hrefused f).1 hf).1, fun s hs => ⟨fun name => ?_,
    prototype_of_snapshot hs, fun tag => ?_, constructorOf_of_snapshot hs⟩, respectsMethods_eq,
    respectsMethods_seenEqual, fun R hR j s t hs ht => indistinguishable_of_matches hR hs ht⟩
  · constructor
    · rintro ⟨s, hs⟩
      cases viewed_of_snapshot hs with
      | alone hproto => exact .inl hproto
      | onto id r hproto hr =>
        obtain ⟨r', hmem, rfl⟩ := (hm.sound.exists_record?_iff id).1 ⟨r, hr⟩
        exact .inr ⟨r', hmem, hproto⟩
    · intro hproto
      cases hs : m.snapshot i with
      | ok s => exact ⟨s, rfl⟩
      | error f =>
        obtain ⟨-, id, hid, hnone⟩ := (hrefused f).1 hs
        rcases hproto with hproto | ⟨r, hmem, hproto⟩
        · cases hproto.symm.trans hid
        · exact absurd (Option.some.inj (hproto.symm.trans hid)) (hnone r hmem)
  · rw [get_of_snapshot hs, Snapshot.get?]
    cases s.own.get? name <;> cases s.prototype.bind fun p => p.slots.get? name <;> rfl
  · rw [producedBy_of_snapshot hs, Option.any_eq_true]
    simp only [beq_iff_eq]

/-- A model with one record, which has the method `f`. -/
def oneMethod : Model Nat :=
  (Model.new 0 {}).after [.construct .dynamicPrototype ∅ (.ofList [("f", 10)]) "T"]

theorem matches_single {R : Value (Method β) → Value (Method β) → Prop} (name : String)
    {v w : Value (Method β)} (h : R v w) :
    PropertyMap.Matches R (.ofList [(name, v)]) (.ofList [(name, w)]) := by
  intro name'
  show Option.Rel R ((NameMap.insert ∅ name v).get? name') ((NameMap.insert ∅ name w).get? name')
  rw [NameMap.get?_insert, NameMap.get?_insert]
  split
  · exact .some h
  · exact .none

/-- Two instances on that record that differ in the sign of a zero. Programs see the zeros as equal, so
no question tells the instances apart; both lead to the one method of the record. Under a handle of
another model no snapshot is taken. -/
theorem snapshot_adequate_signedZeros :
    let a : Instance Nat := { own := .ofList [("x", .number ⟨0⟩)], prototype := some (.ofParts 0 0) }
    let b : Instance Nat :=
      { own := .ofList [("x", .number .negativeZero)], prototype := some (.ofParts 0 0) }
    oneMethod.Reachable ∧
    (∃ s t, oneMethod.snapshot a = .ok s ∧ oneMethod.snapshot b = .ok t ∧ s.own ≠ t.own ∧
      s.Matches Value.SeenEqual t) ∧
    oneMethod.Indistinguishable Value.SeenEqual a b ∧
    oneMethod.sameMethodReference a b "f" = .ok true ∧
    oneMethod.snapshot (a.setPrototype (some (.ofParts 0 1))) = .error .invalidHandle := by
  intro a b
  have hreachable : oneMethod.Reachable := Reachable.after (.new 0 {}) _
  -- both snapshots show the one record
  let record : RecordSnapshot Nat :=
    { id := .ofParts 0 0, creatorTag := "T", backLink := some "T"
      slots := .ofList [("f", .method { id := ⟨0, 0⟩, name := "f", body := 10 })] }
  have ha : oneMethod.snapshot a = .ok { own := a.own, prototype := some record } := rfl
  have hb : oneMethod.snapshot b = .ok { own := b.own, prototype := some record } := rfl
  have hmatches : Snapshot.Matches Value.SeenEqual { own := a.own, prototype := some record }
      { own := b.own, prototype := some record } :=
    ⟨matches_single "x" rfl, .some ⟨rfl, rfl, rfl, matches_single "f" rfl⟩⟩
  have hne : a.own ≠ b.own := by
    intro h
    have hx : (some (.number ⟨0⟩) : Option (Value (Method Nat))) = some (.number .negativeZero) :=
      congrArg (NameMap.get? · "x") h
    cases hx
  obtain ⟨-, -, -, -, hrespects, htold⟩ := snapshot_adequate hreachable a
  have hsame := htold Value.SeenEqual hrespects b _ _ ha hb hmatches
  refine ⟨hreachable, ⟨_, _, ha, hb, hne, hmatches⟩, hsame, ?_, ?_⟩
  · rw [← (hsame.sameMethodReference a "f").2]
    rfl
  · rfl

end Model

end Delegation
