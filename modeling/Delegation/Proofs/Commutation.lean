import Delegation.Proofs.TagCalls

/-!
# Calls on different tags

Two calls on different tags can be made in either order. The handles and numbers that they are given
depend on the order, so the models that the two orders lead to differ, but only by a renaming: it
exchanges the two next places if both calls store a record, and the methods of one call for those of
the other.

The renaming is the same for every pair of calls (`Model.exchange`). What the two calls do is known
from `Model.effected` by then: neither touches the record of the other's tag
(`Effected.tagRecord?_of_ne`), so each has the same effect in both orders, under other names. That the
effects fit together is `renamed_of_effected`, which knows nothing of calls.
-/

namespace Delegation

variable {β : Type}

namespace Model

/-- The handle of a place. -/
def handle (m : Model β) (place : Nat) : RecordId := .ofParts (UInt32.ofNat place) m.nonce

theorem nextRecordId_of_room {m : Model β} (hlimit : m.recordCount < m.limits.maxRecords)
    (hplace : m.recordCount < placeLimit) : m.nextRecordId = .ok (m.handle m.recordCount) := by
  have hroom : m.hasRoom = true := by simp [hasRoom, recordCount] at *; omega
  rw [nextRecordId, if_pos hroom]
  rfl

/-! ## One call after another -/

section

variable {m : Model β} {tag tag' : String} {id x : RecordId} {e : Effect β} {n : Nat}
  {o : Outcome β (Product β)}

theorem Sound.tag_unique (hm : m.Sound) (h : m.currentRecord tag = some x)
    (h' : m.currentRecord tag' = some x) : tag = tag' := by
  obtain ⟨r, hr, htag⟩ := hm.bound tag x h
  obtain ⟨r', hr', htag'⟩ := hm.bound tag' x h'
  obtain rfl : r = r' := Option.some.inj (hr.symm.trans hr')
  exact htag.symm.trans htag'

theorem Sound.currentRecord_ne_next (hm : m.Sound) (hid : m.nextRecordId = .ok id) (tag : String) :
    m.currentRecord tag ≠ some id := by
  intro h
  obtain ⟨r, hr, -⟩ := hm.bound tag id h
  rw [record?_of_nextRecordId hid] at hr
  cases hr

theorem Effected.currentRecord_of_ne (h : Effected m tag id e n o) (hne : tag' ≠ tag) :
    o.model.currentRecord tag' = m.currentRecord tag' := by
  rw [h.currentRecord, if_neg fun hboth => hne hboth.2]

/-- No tag but its own has its record touched by a call. -/
theorem Effected.tagRecord?_of_ne (h : Effected m tag id e n o) (hm : m.Sound)
    (hid : m.nextRecordId = .ok id) (hne : tag' ≠ tag) :
    o.model.tagRecord? tag' = m.tagRecord? tag' := by
  rw [tagRecord?, tagRecord?, h.currentRecord_of_ne hne]
  cases hcur : m.currentRecord tag' with
  | none => rfl
  | some x =>
    have hnew : x ≠ id := by
      rintro rfl
      exact hm.currentRecord_ne_next hid tag' hcur
    have hother : m.currentRecord tag ≠ some x := fun hcur' => hne (hm.tag_unique hcur hcur')
    rw [Option.bind_some, h.record?, if_neg fun hboth => hnew hboth.2, if_neg hother]
    rfl

theorem Effected.nextRecordId (h : Effected m tag id e n o)
    (hlimit : m.recordCount + 2 ≤ m.limits.maxRecords) (hplace : m.recordCount + 2 ≤ placeLimit) :
    o.model.nextRecordId = .ok (m.handle (m.recordCount + if e.stored.isSome then 1 else 0)) := by
  have hcount : o.model.recordCount ≤ m.recordCount + 1 := by
    rw [h.recordCount_eq]
    split <;> omega
  rw [← h.recordCount_eq, handle, ← h.nonce_eq]
  apply nextRecordId_of_room
  · rw [h.limits_eq]
    omega
  · omega

/-- A call has the effect on its tag that it would have had before a call on another tag. -/
theorem Effected.followed (h : Effected m tag id e n o) (hm : m.Sound) (hid : m.nextRecordId = .ok id)
    (hne : tag' ≠ tag) (ho : o.model.Sound) {id' : RecordId} (hid' : o.model.nextRecordId = .ok id')
    (c : TagCall β) :
    let bodies := c.bodies (m.tagRecord? tag')
    Effected o.model tag' id' (c.effect tag' id' (o.model.nextMethods bodies) (m.tagRecord? tag'))
      bodies.length ((c.on tag').action.run o.model) := by
  have heffected := effected ho hid' c tag'
  rw [h.tagRecord?_of_ne hm hid hne] at heffected
  exact heffected

theorem currentRecord_renamed {ρ : Renaming} (hm : m.Sound) (hfix : ρ.Fixes m)
    (hcur : m.currentRecord tag = some x) : ρ.recordId x = x := by
  obtain ⟨r, hr, -⟩ := hm.bound tag x hcur
  exact hfix.recordId_eq hr

theorem currentRecord_renamed_iff {ρ : Renaming} (hm : m.Sound) (hfix : ρ.Fixes m) :
    m.currentRecord tag = some (ρ.recordId x) ↔ m.currentRecord tag = some x := by
  constructor
  · intro h
    rwa [ρ.recordId_injective (currentRecord_renamed hm hfix h)] at h
  · intro h
    rwa [currentRecord_renamed hm hfix h]

end

/-! ## Effects in either order -/

section Orders

variable {m : Model β} {tag tag' : String} {n n₁ n₂ : RecordId} {e f : Effect β} {a b : Nat}
  {o o' u u' : Outcome β (Product β)} {ρ : Renaming}

/-- **The two orders.** First `e` on one tag and then `f` on the other leads to `o'`; first `f` and
then `e`, under their other names, leads to `u'`. If the renaming takes the handles given out in the
first order to those of the second, then it takes the first model to the second. -/
theorem renamed_of_effected (hm : m.Sound) (hknows : m.KnowsSlots) (hfix : ρ.Fixes m)
    (hne : tag ≠ tag') (hn : m.nextRecordId = .ok n)
    (ho : Effected m tag n e a o) (ho' : Effected o.model tag' n₁ f b o')
    (hu : Effected m tag' n (ρ.effect f) b u) (hu' : Effected u.model tag n₂ (ρ.effect e) a u')
    (he : e.stored.isSome → ρ.recordId n = n₂ ∧ n₁ ≠ n)
    (hf : f.stored.isSome → ρ.recordId n₁ = n) : Renamed ρ o'.model u'.model := by
  have hstored : ∀ e : Effect β, (ρ.effect e).stored.isSome = e.stored.isSome :=
    fun e => Option.isSome_map
  refine ⟨?_, ?_, ?_, ?_, fun x => ?_, fun t => ?_⟩
  · rw [hu'.nonce_eq, hu.nonce_eq, ho'.nonce_eq, ho.nonce_eq]
  · rw [hu'.limits_eq, hu.limits_eq, ho'.limits_eq, ho.limits_eq]
  · rw [hu'.recordCount_eq, hu.recordCount_eq, ho'.recordCount_eq, ho.recordCount_eq, hstored, hstored]
    omega
  · rw [hu'.methodCount_eq, hu.methodCount_eq, ho'.methodCount_eq, ho.methodCount_eq]
    omega
  · -- at each handle at most one of four things has happened, whatever the order
    have hnew : (e.stored.isSome ∧ ρ.recordId x = n₂) = (e.stored.isSome ∧ x = n) := by
      refine propext (and_congr_right fun h => ?_)
      rw [← (he h).1]
      exact ρ.recordId_injective.eq_iff
    have hnew' : (f.stored.isSome ∧ ρ.recordId x = n) = (f.stored.isSome ∧ x = n₁) := by
      refine propext (and_congr_right fun h => ?_)
      rw [← hf h]
      exact ρ.recordId_injective.eq_iff
    have hcur : ∀ t, (m.currentRecord t = some (ρ.recordId x)) = (m.currentRecord t = some x) :=
      fun t => propext (currentRecord_renamed_iff hm hfix)
    rw [hu'.record?, hu.currentRecord_of_ne hne, hu.record?, ho'.record?,
      ho.currentRecord_of_ne (Ne.symm hne), ho.record?, hstored, hstored]
    simp only [hnew, hnew', hcur, hfix.record?_recordId hm hknows, Renaming.effect]
    by_cases h : e.stored.isSome ∧ x = n
    · have hother : ¬ (f.stored.isSome ∧ x = n₁) := by
        rintro ⟨-, rfl⟩
        exact (he h.1).2 h.2
      have hcur' : m.currentRecord tag' ≠ some x := h.2 ▸ hm.currentRecord_ne_next hn tag'
      rw [if_pos h, if_neg hother, if_neg hcur', if_pos h]
    · rw [if_neg h, if_neg h]
      by_cases hkept : m.currentRecord tag = some x
      · have hother : ¬ (f.stored.isSome ∧ x = n₁) := by
          intro hboth
          have hnext := (hnew'.symm ▸ hboth).2
          rw [currentRecord_renamed hm hfix hkept] at hnext
          exact hm.currentRecord_ne_next hn tag (hnext ▸ hkept)
        have hcur' : m.currentRecord tag' ≠ some x := fun hcur' => hne (hm.tag_unique hkept hcur')
        rw [if_pos hkept, if_neg hother, if_neg hcur', if_pos hkept]
      · rw [if_neg hkept, if_neg hkept]
        split
        · rfl
        · split <;> rfl
  · rw [hu'.currentRecord, hu.currentRecord, ho'.currentRecord, ho.currentRecord, hstored, hstored]
    by_cases h : e.stored.isSome ∧ t = tag
    · have hother : ¬ (f.stored.isSome ∧ t = tag') := by
        rintro ⟨-, rfl⟩
        exact hne h.2.symm
      rw [if_pos h, if_neg hother, if_pos h, Option.map_some, (he h.1).1]
    · rw [if_neg h, if_neg h]
      by_cases h' : f.stored.isSome ∧ t = tag'
      · rw [if_pos h', if_pos h', Option.map_some, hf h'.1]
      · rw [if_neg h', if_neg h']
        cases hcur : m.currentRecord t with
        | none => rfl
        | some x => rw [Option.map_some, currentRecord_renamed hm hfix hcur]

/-- A call has the same effect under other names, if the renaming leaves the model alone. -/
theorem effect_of_fixes (hm : m.Sound) (hknows : m.KnowsSlots) (hfix : ρ.Fixes m) {c : TagCall β}
    (hpassed : ∀ v, (c.on tag).Passes v → m.Knows v) {id id' : RecordId}
    {named named' : List (String × Value (Method β))} (hnamed : ρ.named named = named')
    (hid : (c.effect tag id named (m.tagRecord? tag)).stored.isSome → ρ.recordId id = id') :
    c.effect tag id' named' (m.tagRecord? tag) =
      ρ.effect (c.effect tag id named (m.tagRecord? tag)) := by
  have hcur : (m.tagRecord? tag).map ρ.record = m.tagRecord? tag := by
    cases h : m.tagRecord? tag with
    | none => rfl
    | some r =>
      obtain ⟨x, -, hr⟩ := Option.bind_eq_some_iff.1 h
      rw [Option.map_some, hfix.record_eq hm hknows hr]
  have hrenamed := c.effect_renamed ρ tag id named (m.tagRecord? tag)
    fun v hv => hfix.value_eq (hpassed v hv)
  rw [hcur, hnamed] at hrenamed
  cases hstored : (c.effect tag id named (m.tagRecord? tag)).stored.isSome with
  | true => rw [← hid hstored, hrenamed]
  | false =>
    have hnone : (c.effect tag (ρ.recordId id) named' (m.tagRecord? tag)).stored.isSome = false := by
      rw [hrenamed, Renaming.effect, Option.isSome_map, hstored]
    rw [TagCall.effect_of_not_stored hnone, hrenamed]

end Orders

/-! ## The renaming -/

/-- The renaming between the two orders of a call that allocates `a` methods and one that allocates `b`,
of which both store a record or not. -/
def exchange (m : Model β) (both : Bool) (a b : Nat) : Renaming :=
  { model := m.nonce
    places :=
      if both then Equiv.swap (UInt32.ofNat m.recordCount) (UInt32.ofNat (m.recordCount + 1))
      else Equiv.refl _
    numbers := Renaming.blocks m.methodCount a b }

theorem exchange_fixes {m : Model β} (hroom : m.recordCount + 2 ≤ placeLimit) (both : Bool)
    (a b : Nat) : (m.exchange both a b).Fixes m where
  model_eq := rfl
  places i hi := by
    have hnext : ∀ k, m.recordCount ≤ k → k < m.recordCount + 2 → i ≠ UInt32.ofNat k := by
      intro k hk hk' h
      have hlt : k < UInt32.size := by
        have hlimit : placeLimit < UInt32.size := by decide
        omega
      rw [h, UInt32.toNat_ofNat', Nat.mod_eq_of_lt hlt] at hi
      omega
    have hfirst := hnext m.recordCount (Nat.le_refl _) (by omega)
    have hsecond := hnext (m.recordCount + 1) (Nat.le_succ _) (by omega)
    cases both with
    | false => rfl
    | true => exact Equiv.swap_apply_of_ne_of_ne hfirst hsecond
  numbers k hk := Renaming.blocks_of_lt hk

theorem recordId_exchange (m : Model β) (both : Bool) (a b place : Nat) :
    (m.exchange both a b).recordId (m.handle place) =
      .ofParts ((m.exchange both a b).places (UInt32.ofNat place)) m.nonce := by
  rw [handle, Renaming.recordId, RecordId.model_ofParts, RecordId.index_ofParts]
  exact if_pos rfl

theorem exchange_first (m : Model β) (both : Bool) (a b : Nat) :
    (m.exchange both a b).recordId (m.handle m.recordCount) =
      m.handle (m.recordCount + if both then 1 else 0) := by
  rw [recordId_exchange]
  cases both with
  | false => rfl
  | true =>
    have hswap := Equiv.swap_apply_left (UInt32.ofNat m.recordCount) (UInt32.ofNat (m.recordCount + 1))
    exact congrArg (RecordId.ofParts · m.nonce) hswap

theorem exchange_second (m : Model β) (a b : Nat) :
    (m.exchange true a b).recordId (m.handle (m.recordCount + 1)) = m.handle m.recordCount := by
  rw [recordId_exchange]
  have hswap := Equiv.swap_apply_right (UInt32.ofNat m.recordCount) (UInt32.ofNat (m.recordCount + 1))
  exact congrArg (RecordId.ofParts · m.nonce) hswap

/-- The two orders in any sound state whose slots hold nothing made up. -/
theorem orders_renamed {m : Model β} (hm : m.Sound) (hknows : m.KnowsSlots)
    (hlimit : m.recordCount + 2 ≤ m.limits.maxRecords) (hplace : m.recordCount + 2 ≤ placeLimit)
    {tag tag' : String} (hne : tag ≠ tag') {p q : TagCall β}
    (hp : ∀ v, (p.on tag).Passes v → m.Knows v) (hq : ∀ v, (q.on tag').Passes v → m.Knows v) :
    let o := (p.on tag).action.run m
    let o' := (q.on tag').action.run o.model
    let u := (q.on tag').action.run m
    let u' := (p.on tag).action.run u.model
    ∃ ρ : Renaming, ρ.Fixes m ∧ u'.answer = o.answer.map ρ.product ∧
      u.answer = o'.answer.map ρ.product ∧ Renamed ρ o'.model u'.model := by
  intro o o' u u'
  have hn : m.nextRecordId = .ok (m.handle m.recordCount) :=
    nextRecordId_of_room (by omega) (by omega)
  let bodies := p.bodies (m.tagRecord? tag)
  let bodies' := q.bodies (m.tagRecord? tag')
  -- the effects in the first order
  let e := p.effect tag (m.handle m.recordCount) (m.nextMethods bodies) (m.tagRecord? tag)
  have ho : Effected m tag (m.handle m.recordCount) e bodies.length o := effected hm hn p tag
  have hn₁ := ho.nextRecordId hlimit hplace
  let n₁ := m.handle (m.recordCount + if e.stored.isSome then 1 else 0)
  let f := q.effect tag' n₁ (o.model.nextMethods bodies') (m.tagRecord? tag')
  have ho' : Effected o.model tag' n₁ f bodies'.length o' :=
    ho.followed hm hn (Ne.symm hne) (hm.afterOne (p.on tag)) hn₁ q
  let ρ := m.exchange (e.stored.isSome && f.stored.isSome) bodies.length bodies'.length
  have hfix : ρ.Fixes m := exchange_fixes hplace _ _ _
  -- the same effects, renamed, in the second order
  have hf : f.stored.isSome → ρ.recordId n₁ = m.handle m.recordCount := by
    intro h
    simp only [ρ, n₁, h, Bool.and_true]
    cases e.stored.isSome with
    | true => exact exchange_second ..
    | false => exact exchange_first ..
  have hnamed' : ρ.named (o.model.nextMethods bodies') = m.nextMethods bodies' := by
    apply ρ.named_nextMethods ho.nonce_eq.symm ho.nonce_eq.symm
    intro k hk
    rw [ho.methodCount_eq]
    exact Renaming.blocks_second _ _ hk
  have hu : Effected m tag' (m.handle m.recordCount) (ρ.effect f) bodies'.length u := by
    rw [← effect_of_fixes hm hknows hfix hq hnamed' hf]
    exact effected hm hn q tag'
  have hn₂ := hu.nextRecordId hlimit hplace
  let n₂ := m.handle (m.recordCount + if (ρ.effect f).stored.isSome then 1 else 0)
  have he : e.stored.isSome → ρ.recordId (m.handle m.recordCount) = n₂ := by
    intro h
    simp only [ρ, n₂, h, Bool.true_and, Renaming.effect, Option.isSome_map]
    exact exchange_first ..
  have hnamed : ρ.named (m.nextMethods bodies) = u.model.nextMethods bodies := by
    apply ρ.named_nextMethods rfl hu.nonce_eq
    intro k hk
    rw [hu.methodCount_eq]
    exact Renaming.blocks_first _ _ hk
  have hu' : Effected u.model tag n₂ (ρ.effect e) bodies.length u' := by
    rw [← effect_of_fixes hm hknows hfix hp hnamed he]
    exact hu.followed hm hn hne (hm.afterOne (q.on tag')) hn₂ p
  have hnew : e.stored.isSome → n₁ ≠ m.handle m.recordCount := by
    intro h hsame
    have hnone := record?_of_nextRecordId hn₁
    rw [ho.record?, if_pos ⟨h, hsame⟩] at hnone
    rw [hnone] at h
    cases h
  refine ⟨ρ, hfix, ?_, ?_, ?_⟩
  · rw [hu'.answer_eq, ho.answer_eq]
    rfl
  · rw [hu.answer_eq, ho'.answer_eq]
    rfl
  · exact renamed_of_effected hm hknows hfix hne hn ho ho' hu hu' (fun h => ⟨he h, hnew h⟩) hf

/-! ## Honest histories

A method that is made up, under a number that is still to be given out, would be renamed along with the
method that gets the number. Programs cannot make up methods: what they pass was allocated before. -/

/-- The states that lead from a new model by calls that are passed known values. -/
inductive HonestlyReachable : Model β → Prop where
  | new (nonce : UInt32) (limits : Limits) : HonestlyReachable (.new nonce limits)
  | step {m : Model β} (h : HonestlyReachable m) (op : Operation β)
      (hop : ∀ v, op.Passes v → m.Knows v) : HonestlyReachable (m.afterOne op)

theorem HonestlyReachable.reachable {m : Model β} (h : m.HonestlyReachable) : m.Reachable := by
  induction h with
  | new nonce limits => exact .new nonce limits
  | step _ op _ ih => exact ih.step op

/-- What is known stays known. -/
theorem Knows.afterOne {m : Model β} {v : Value (Method β)} (h : m.Knows v) (op : Operation β) :
    (m.afterOne op).Knows v := by
  intro f hf hmodel
  have hlt := h f hf (hmodel.trans (extends_afterOne m op).nonce_eq)
  rw [methodCount_afterOne]
  omega

/-- What a call allocates is known after it. -/
theorem knows_allocated {m : Model β} {op : Operation β} {f : Method β} (hf : f ∈ op.allocated m) :
    (m.afterOne op).Knows (.method f) := by
  rintro g ⟨⟩ -
  have hseq : f.id.seq ∈ (Act.allocated m (.operate op)).map (·.id.seq) :=
    List.mem_map.2 ⟨f, hf, rfl⟩
  rw [Act.seqs_allocated] at hseq
  rw [methodCount_afterOne]
  exact (List.mem_range'_1.1 hseq).2

/-- In honest histories no slot holds a method that is made up. -/
theorem HonestlyReachable.knowsSlots {m : Model β} (h : m.HonestlyReachable) : m.KnowsSlots := by
  induction h with
  | new nonce limits =>
    intro id r hr
    simp [record?, Model.new] at hr
  | @step m h op hop ih =>
    intro id r hr name v hslot
    have hslot : (m.afterOne op).slot? id name = some v := by
      rw [slot?, hr]
      exact hslot
    rcases brings_of_slot h.reachable.sound hslot with (hpasses | ⟨f, hf, rfl⟩) | hold
    · exact (hop v hpasses).afterOne op
    · exact knows_allocated hf
    · obtain ⟨r', hr', hslot'⟩ := Option.bind_eq_some_iff.1 hold
      exact (ih id r' hr' name v hslot').afterOne op

/-- **Calls on different tags commute**, up to the names that they give out. From any state that has
room for two records, the two orders end with as many records and methods; each call is answered alike,
or refused with the same fault; and one renaming, of nothing that was there before, takes the answers,
the records and the bindings of one order to those of the other. -/
theorem tag_calls_commute {m : Model β} (hm : m.HonestlyReachable)
    (hlimit : m.recordCount + 2 ≤ m.limits.maxRecords) (hplace : m.recordCount + 2 ≤ placeLimit)
    {tag tag' : String} (hne : tag ≠ tag') (p q : TagCall β)
    (hp : ∀ v, (p.on tag).Passes v → m.Knows v) (hq : ∀ v, (q.on tag').Passes v → m.Knows v) :
    let o := (p.on tag).action.run m
    let o' := (q.on tag').action.run o.model
    let u := (q.on tag').action.run m
    let u' := (p.on tag).action.run u.model
    ∃ ρ : Renaming, ρ.Fixes m ∧ u'.answer = o.answer.map ρ.product ∧
      u.answer = o'.answer.map ρ.product ∧ Renamed ρ o'.model u'.model :=
  orders_renamed hm.reachable.sound hm.knowsSlots hlimit hplace hne hp hq

/-- A model with a record of the tag U, and none of the tag T. -/
def owned : Model Unit := (Model.new 0 {}).afterOne (.createRecord "U")

def filling : TagCall Unit := .construct .dynamicPrototype ∅ (.ofList [("f", ()), ("g", ())])

def replacing : TagCall Unit := .replace (.ofList [("h", ())])

/-- A construction and a replacement that both allocate methods and store a record. What the first order
has at place 1, with the methods 0 and 1, the second has at place 2, with the methods 1 and 2. -/
theorem tag_calls_commute_owned :
    let o := (filling.on "T").action.run owned
    let o' := (replacing.on "U").action.run o.model
    let u := (replacing.on "U").action.run owned
    let u' := (filling.on "T").action.run u.model
    o.answer = .ok (.object ⟨∅, some (.ofParts 1 0)⟩) ∧
      u'.answer = .ok (.object ⟨∅, some (.ofParts 2 0)⟩) ∧
      o'.model.get ⟨∅, some (.ofParts 1 0)⟩ "g" = .ok (.method ⟨⟨0, 1⟩, "g", ()⟩) ∧
      u'.model.get ⟨∅, some (.ofParts 2 0)⟩ "g" = .ok (.method ⟨⟨0, 2⟩, "g", ()⟩) ∧
      ∃ ρ : Renaming, ρ.Fixes owned ∧ ρ.recordId (.ofParts 1 0) = .ofParts 2 0 ∧
        ρ.recordId (.ofParts 2 0) = .ofParts 1 0 ∧ Renamed ρ o'.model u'.model := by
  have howned : owned.HonestlyReachable := .step (.new 0 {}) _ fun v h => h.elim
  have hfilling : ∀ v, (filling.on "T").Passes v → owned.Knows v := fun v ⟨name, h⟩ => by cases h
  obtain ⟨ρ, hfix, hanswer, hanswer', hrenamed⟩ := tag_calls_commute howned (by decide) (by decide)
    (show "T" ≠ "U" by decide) filling replacing hfilling fun v h => h.elim
  -- the answers of either order are closed terms, and the renaming is known from them
  have hobject : .ok (.object ⟨∅, some (.ofParts 2 0)⟩) =
      Except.map ρ.product (.ok (.object ⟨∅, some (.ofParts 1 0)⟩)) := hanswer
  have hrecord : .ok (.record (.ofParts 1 0)) =
      Except.map ρ.product (.ok (.record (.ofParts 2 0))) := hanswer'
  refine ⟨rfl, rfl, rfl, rfl, ρ, hfix, ?_, ?_, hrenamed⟩
  · injection Except.ok.inj hobject with hinstance
    exact (Option.some.inj (congrArg Instance.prototype hinstance)).symm
  · injection Except.ok.inj hrecord with hid
    exact hid.symm

end Model

theorem Program.Ledger.knows {p : Program β} {log : List (Method β)} (h : p.Ledger log) {k : Nat}
    {m : Model β} (hm : p.models[k]? = some m) {v : Value (Method β)}
    (hv : ∀ f, v.Holds f → f ∈ log) : m.Knows v := by
  intro f hf hmodel
  have hseq : f.id.seq ∈ (log.filter fun f => f.id.model = m.nonce).map (·.id.seq) :=
    List.mem_map.2 ⟨f, List.mem_filter.2 ⟨hv f hf, decide_eq_true hmodel⟩, rfl⟩
  rw [h.counted k m hm] at hseq
  exact List.mem_range.1 hseq

/-- The models of honest programs are what honest histories lead to. -/
theorem Program.honestlyReachable_of_models {past : List (Deed β)} (hhonest : start.Honest past)
    (hsize : (start.after past).models.size ≤ UInt32.size) {k : Nat} {m : Model β}
    (hm : (start.after past).models[k]? = some m) : m.HonestlyReachable := by
  induction past generalizing k m with
  | nil => simp [after, start] at hm
  | cons d past ih =>
    have hbefore := Nat.le_trans (size_le_step (start.after past) d) hsize
    have hledger := ledger_after hhonest.2 hbefore
    have ih := fun {k} {m} => @ih hhonest.2 hbefore k m
    cases d with
    | hold value => exact ih hm
    | found limits =>
      simp only [after, step, Array.getElem?_push] at hm
      split at hm
      · obtain rfl := Option.some.inj hm
        exact .new _ limits
      · exact ih hm
    | act place a =>
      cases hplace : (start.after past).models[place]? with
      | none =>
        simp only [after, step, hplace] at hm
        exact ih hm
      | some m₀ =>
        rcases models_step_act hplace a hm with ⟨-, rfl⟩ | ⟨-, hold⟩
        · rcases World.model_step { model := m₀, objects := (start.after past).objects } a with
            hsame | ⟨op, rfl, hop⟩
          · rw [hsame]
            exact ih hplace
          · rw [hop]
            refine (ih hplace).step op fun v hpasses => ?_
            exact hledger.knows hplace fun f hf => hledger.circulating f (hhonest.1 v f hpasses hf)
        · exact ih hold

end Delegation
