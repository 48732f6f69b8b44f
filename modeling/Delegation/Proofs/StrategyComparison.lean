import Delegation.Proofs.Construction
import Delegation.Routine

/-!
# Strategies compared

Strategies differ in where they put things, and this module says how much of that can be noticed. On
a tag without a record, each of them builds an instance that shows every field and every method under
its name, the methods with the same numbers, so lookups tell the strategies apart only under a name
that is both: copies of methods hide the fields, and fields hide the slots of a record
(`firstLookup`). A method that learns about its receiver by looking names up cannot tell them apart
at all if no name is both.

Two strategies that copy are one and the same. Two that delegate come apart over one kind of state
only, a tag whose record has no slots while there are methods to fill it with.
-/

namespace Delegation

variable {β : Type}

/-! ## Bodies that look names up -/

/-- A body that learns about a call from the properties of the receiver and from the arguments alone. -/
def LooksUpOnly [Code β] (body : β) : Prop :=
  ∀ c c' : Call β, (∀ name, c.get name = c'.get name) → c.args = c'.args →
    Code.run body c = Code.run body c'

/-- Whether an instruction neither calls a method of the receiver nor lists its own properties. -/
def Routine.looksUpOnly {ν : Type} : Routine ν → Bool
  | .call _ | .callWith _ _ | .ownKeys => false
  | _ => true

theorem Routine.run_congr {code : Routine (Value (Method β))} (h : code.looksUpOnly = true)
    {c c' : Call β} (hget : ∀ name, c.get name = c'.get name) (hargs : c.args = c'.args)
    (invoke invoke' : String → List (Value (Method β)) → Except Fault (Value (Method β))) :
    code.run invoke c = code.run invoke' c' := by
  have harg : ∀ place, c.arg place = c'.arg place := fun place => by rw [Call.arg, hargs, Call.arg]
  cases code with
  | get name => exact hget name
  | getOr name fallback => simp only [Routine.run, hget]
  | const value => rfl
  | arg place => simp only [Routine.run, harg]
  | args => simp only [Routine.run, hargs]
  | argCount => simp only [Routine.run, hargs]
  | concat name place => simp only [Routine.run, hget, harg]
  | has name =>
    have hhas : c.model.hasProperty c.this name = c'.model.hasProperty c'.this name :=
      congrArg Except.isOk (hget name)
    simp only [Routine.run, hhas]
  | typeName name => simp only [Routine.run, hget]
  | greet => simp only [Routine.run, hget, harg]
  | fail fault => rfl
  | call | callWith | ownKeys => cases h

/-- **Routines.** A routine whose one instruction only looks names up does no more than that. -/
theorem Closure.looksUpOnly_of_code {body : Closure} (h : body.code.looksUpOnly = true) :
    LooksUpOnly body := by
  intro c c' hget hargs
  show body.runWithin _ c = body.runWithin _ c'
  exact Routine.run_congr h hget hargs _ _

namespace Model

variable {m : Model β} {b : Blueprint β}

theorem callMethod_of_get [Code β] {i : Instance β} {name : String} {f : Method β}
    (h : m.get i name = .ok (.method f)) (args : List (Value (Method β))) :
    m.callMethod i name args = Code.run f.body { model := m, this := i, args } := by
  rw [callMethod, h]
  rfl

/-- A call comes out alike wherever the receiver shows the same properties, if the method does no more
than look them up. -/
theorem callMethod_congr [Code β] {m m' : Model β} {i i' : Instance β}
    (hget : ∀ name, m.get i name = m'.get i' name) {name : String}
    (hbody : ∀ f, m.get i name = .ok (.method f) → LooksUpOnly f.body)
    (args : List (Value (Method β))) :
    m.callMethod i name args = m'.callMethod i' name args := by
  rw [callMethod, callMethod, ← hget name]
  cases hfound : m.get i name with
  | error f => rfl
  | ok v =>
    cases v with
    | method f => exact hbody f hfound _ _ hget rfl
    | _ => rfl

/-! ## The first instance of a tag -/

/-- What a name leads to on an instance built now, if its tag has no record yet. The strategy decides
which of a field and a method comes first. -/
def firstLookup (m : Model β) (b : Blueprint β) (name : String) : Option (Value (Method β)) :=
  if b.strategy.delegates then (b.fields.get? name).or (m.freshMethod b.methods name)
  else (m.freshMethod b.methods name).or (b.fields.get? name)

/-- An outcome with an instance that shows under each name what the name leads to. -/
def ShowsFirst (m : Model β) (b : Blueprint β) (o : Outcome β (Instance β)) : Prop :=
  ∃ i, o.answer = .ok i ∧ ∀ name, o.model.get i name =
    match m.firstLookup b name with
    | some v => .ok v
    | none => .error (.propertyNotFound name)

theorem showsFirst_of_buildsApart (hs : b.strategy.delegates = false) {o : Outcome β (Instance β)}
    (h : m.BuildsApart b o) : m.ShowsFirst b o := by
  obtain ⟨own, hanswer, hown⟩ := h.answer
  refine ⟨_, hanswer, fun name => ?_⟩
  have hlookup : own.get? name = m.firstLookup b name := by
    rw [hown, firstLookup, hs, if_neg Bool.false_ne_true]
  -- there is no prototype to turn to
  have hproto : ∀ id, ({ own, prototype := none } : Instance β).prototype = some id →
      ∃ r, o.model.record? id = some r := fun id hid => nomatch hid
  rw [get_eq hproto, ← hlookup]
  show (match (own.get? name).or none with
    | some v => Except.ok v
    | none => Except.error (Fault.propertyNotFound name)) = _
  rw [Option.or_none]

theorem showsFirst_of_buildsOnto (hs : b.strategy.delegates = true) {o : Outcome β (Instance β)}
    (hcur : m.currentRecord b.tag = none) {id : RecordId} {r : Record β}
    (h : m.BuildsOnto b id r o) : m.ShowsFirst b o := by
  -- the record was made just now, so its slots are the methods
  obtain ⟨⟨slots, hstored, hslots⟩, -⟩ := h.filled (.inl hcur)
  have hr := record_eq_ok_iff.1 hstored
  have hslot : ∀ name, o.model.slot? id name = m.freshMethod b.methods name := by
    intro name
    rw [slot?, hr, ← hslots]
    rfl
  refine ⟨_, h.answer, fun name => ?_⟩
  have hlookup : (b.fields.get? name).or (o.model.slot? id name) = m.firstLookup b name := by
    rw [hslot, firstLookup, if_pos hs]
  rw [get_eq (fun id' hid => ⟨_, Option.some.inj hid ▸ hr⟩), ← hlookup]
  rfl

/-- **First instances.** Whatever the strategy, an instance is built, and under each name it shows the
field or the method of that name. -/
theorem showsFirst_of_fresh (hroom : m.hasRoom = true) (hcur : m.currentRecord b.tag = none) :
    m.ShowsFirst b ((build b).run m) := by
  cases hs : b.strategy.delegates with
  | false => exact showsFirst_of_buildsApart hs (buildsApart hs)
  | true =>
    have hid : m.nextRecordId = .ok _ := if_pos hroom
    obtain ⟨r, -, honto⟩ := buildsOnto_of_unbound hs hcur hid
    exact showsFirst_of_buildsOnto hs hcur honto

/-- A name that is not both a field and a method leads to the same under all strategies. -/
theorem firstLookup_congr (s s' : Strategy) {fields : PropertyMap β} {methods : MethodTable β}
    {tag name : String} (h : ¬ (fields.contains name = true ∧ methods.contains name = true)) :
    m.firstLookup { strategy := s, fields, methods, tag } name =
      m.firstLookup { strategy := s', fields, methods, tag } name := by
  rw [firstLookup, firstLookup]
  cases hfield : fields.get? name with
  | none => split <;> split <;> simp
  | some v =>
    -- the name is a field, so it is no method
    have hnone : methods.get? name = none := by
      simpa [NameMap.contains, hfield] using h
    have hfresh : m.freshMethod methods name = none := by rw [freshMethod, hnone, Option.map_none]
    rw [hfresh]
    split <;> split <;> simp

/-- Whether a name leads anywhere does not depend on the strategy. -/
theorem isSome_firstLookup (name : String) :
    (m.firstLookup b name).isSome = (b.fields.contains name || b.methods.contains name) := by
  rw [firstLookup, NameMap.contains, NameMap.contains, freshMethod]
  split
  · rw [Option.isSome_or, Option.isSome_map]
  · rw [Option.isSome_or, Option.isSome_map, Bool.or_comm]

/-- **First instances of all strategies.** On a tag without a record, with room for one, every strategy
builds an instance, and these show the same. A name of a field alone leads to the field, a name of a
method alone to the method, with the same number under all strategies, and any other name is not
found. Only a name of both can be told apart: strategies that copy show the method, strategies that
delegate the field. If there is no such name, calls of methods that only look names up come out alike
as well. -/
theorem strategies_agree_on_fresh_tag [Code β] {m : Model β} {tag : String}
    (hroom : m.hasRoom = true) (hfresh : m.currentRecord tag = none) (fields : PropertyMap β)
    (methods : MethodTable β) :
    ∃ i : Strategy → Instance β,
      let after := fun s => ((construct s fields methods tag).run m).model
      let get := fun s => (after s).get (i s)
      let isBoth := fun name => fields.contains name = true ∧ methods.contains name = true
      (∀ s, ((construct s fields methods tag).run m).answer = .ok (i s)) ∧
      (∀ s name, get s name =
        match fields.get? name, m.freshMethod methods name with
        | some v, some f => .ok (if s.delegates then v else f)
        | some v, none => .ok v
        | none, some f => .ok f
        | none, none => .error (.propertyNotFound name)) ∧
      (∀ s s' name, (after s).hasProperty (i s) name = (after s').hasProperty (i s') name) ∧
      (∀ s s' name, get s name ≠ get s' name → isBoth name) ∧
      ((∀ name, ¬ isBoth name) → ∀ s s' name, get s name = get s' name ∧
        ∀ args, (∀ f, get s name = .ok (.method f) → LooksUpOnly f.body) →
          (after s).callMethod (i s) name args = (after s').callMethod (i s') name args) := by
  have hfirst : ∀ strategy, m.ShowsFirst { strategy, fields, methods, tag } _ :=
    fun strategy => showsFirst_of_fresh hroom hfresh
  obtain ⟨i, hi⟩ := Classical.skolem.1 hfirst
  have hget := fun s => (hi s).2
  refine ⟨i, ?_⟩
  intro after get isBoth
  have hsame : ∀ s s' name, ¬ isBoth name → get s name = get s' name := by
    intro s s' name hnot
    refine (hget s name).trans ?_
    rw [firstLookup_congr s s' hnot]
    exact (hget s' name).symm
  refine ⟨fun s => (hi s).1, ?_, ?_, ?_, ?_⟩
  · intro s name
    refine (hget s name).trans ?_
    rw [firstLookup]
    cases hs : s.delegates <;> cases fields.get? name <;> cases m.freshMethod methods name <;> rfl
  · intro s s' name
    have hhas : ∀ s, (after s).hasProperty (i s) name =
        (fields.contains name || methods.contains name) := by
      intro s
      rw [← isSome_firstLookup (b := { strategy := s, fields, methods, tag }), hasProperty]
      refine (congrArg Except.isOk (hget s name)).trans ?_
      cases m.firstLookup { strategy := s, fields, methods, tag } name <;> rfl
    rw [hhas, hhas]
  · intro s s' name hne
    exact Classical.byContradiction fun hnot => hne (hsame s s' name hnot)
  · intro hnone s s' name
    refine ⟨hsame s s' name (hnone name), fun args hbody => ?_⟩
    exact callMethod_congr (fun name => hsame s s' name (hnone name)) hbody args

/-- A field, and a method that reads it. Whichever strategy builds the instance, the method is found and
answers with the field. -/
theorem strategies_agree_on_fresh_tag_reader :
    let m : Model Closure := .new 0 ⟨1⟩
    let fields : PropertyMap Closure := .ofList [("name", .string "n")]
    let methods : MethodTable Closure := .ofList [("f", .mk (.get "name"))]
    m.hasRoom = true ∧ m.currentRecord "T" = none ∧
    ∀ s args, ∃ i, ((construct s fields methods "T").run m).answer = .ok i ∧
      ((construct s fields methods "T").run m).model.callMethod i "f" args = .ok (.string "n") := by
  intro m fields methods
  have hroom : m.hasRoom = true := rfl
  have hfresh : m.currentRecord "T" = none := rfl
  refine ⟨hroom, hfresh, fun s args => ?_⟩
  obtain ⟨i, hanswer, hget, -, -, hsame⟩ :=
    strategies_agree_on_fresh_tag hroom hfresh fields methods
  have hnone : ∀ name, ¬ (fields.contains name = true ∧ methods.contains name = true) := by
    rintro name ⟨hfield, hmethod⟩
    obtain rfl : name = "name" := List.mem_singleton.1 ((NameMap.mem_keys_iff fields name).2 hfield)
    exact Bool.false_ne_true hmethod
  let f : Method Closure := { id := ⟨0, 0⟩, name := "f", body := .mk (.get "name") }
  have hfound : ∀ s, ((construct s fields methods "T").run m).model.get (i s) "f" =
      .ok (.method f) := fun s => hget s "f"
  -- on to a factory's instance, where the method is run
  have hcall := (hsame hnone s .factory "f").2 args fun f' hf => by
    obtain rfl : f = f' := Value.method.inj (Except.ok.inj ((hfound s).symm.trans hf))
    exact Closure.looksUpOnly_of_code rfl
  refine ⟨i s, hanswer s, hcall.trans ?_⟩
  exact (callMethod_of_get (hfound .factory) args).trans (hget .factory "name")

/-! ## Strategies that coincide -/

/-- Building with one strategy and with another leaves the same answer and the same state. What is
reported on the way may differ. -/
def Coincide (m : Model β) (fields : PropertyMap β) (methods : MethodTable β) (tag : String)
    (s s' : Strategy) : Prop :=
  let outcome := fun s => (construct s fields methods tag).run m
  (outcome s).answer = (outcome s').answer ∧ (outcome s).model = (outcome s').model

section Coinciding

variable {fields : PropertyMap β} {methods : MethodTable β} {tag : String} {s s' : Strategy}

theorem coincide_of_copies (hs : s.delegates = false) (hs' : s'.delegates = false) :
    m.Coincide fields methods tag s s' := by
  have h := run_build_of_copies (b := { strategy := s, fields, methods, tag }) hs m
  have h' := run_build_of_copies (b := { strategy := s', fields, methods, tag }) hs' m
  rw [build] at h h'
  have hown : m.ownAtBirth { strategy := s, fields, methods, tag } =
      m.ownAtBirth { strategy := s', fields, methods, tag } := by
    simp only [ownAtBirth, hs, hs']
  simp only [Coincide, h, h', hown, and_self]

/-- The first construction of a tag makes the record or finds no room for it, whichever way the
strategy would have treated a record that was there. -/
theorem coincide_of_unbound (hm : m.Sound) (hs : s.delegates = true) (hs' : s'.delegates = true)
    (hcur : m.currentRecord tag = none) : m.Coincide fields methods tag s s' := by
  by_cases hfull : m.IsFull
  · -- both are refused, and a refusal leaves no trace
    have hrefused : ∀ s, s.delegates = true →
        ((construct s fields methods tag).run m).answer =
            .error (.recordLimitExceeded m.limits.maxRecords) ∧
          ((construct s fields methods tag).run m).model = m := by
      intro s hs
      have hf := (build_refused_iff (b := { strategy := s, fields, methods, tag }) hm _).2
        ⟨hs, hcur, hfull, rfl⟩
      exact ⟨hf, model_of_refused_build hf⟩
    obtain ⟨hanswer, hmodel⟩ := hrefused s hs
    obtain ⟨hanswer', hmodel'⟩ := hrefused s' hs'
    exact ⟨hanswer.trans hanswer'.symm, hmodel.trans hmodel'.symm⟩
  · -- both push the same record; neither has yet asked how a record that is there is treated
    obtain ⟨id, hid⟩ := exists_nextRecordId hm hfull
    obtain ⟨hanswer, hmodel⟩ :=
      build_of_unbound (b := { strategy := s, fields, methods, tag }) hs hcur hid
    obtain ⟨hanswer', hmodel'⟩ :=
      build_of_unbound (b := { strategy := s', fields, methods, tag }) hs' hcur hid
    exact ⟨hanswer.trans hanswer'.symm, hmodel.trans hmodel'.symm⟩

/-- A record that has slots, or that there is nothing to fill with, is left as it is. -/
theorem coincide_of_settled {id : RecordId} {r : Record β} (hs : s.delegates = true)
    (hs' : s'.delegates = true) (hcur : m.currentRecord tag = some id)
    (hr : m.record? id = some r) (hsettled : r.slots = ∅ → methods = ∅) :
    m.Coincide fields methods tag s s' := by
  have hleft : r.isPopulated = false → methods = ∅ :=
    fun hempty => hsettled (Record.slots_of_not_populated hempty)
  obtain ⟨hanswer, hmodel⟩ :=
    build_of_settled (b := { strategy := s, fields, methods, tag }) hs hcur hr fun _ => hleft
  obtain ⟨hanswer', hmodel'⟩ :=
    build_of_settled (b := { strategy := s', fields, methods, tag }) hs' hcur hr fun _ => hleft
  exact ⟨hanswer.trans hanswer'.symm, hmodel.trans hmodel'.symm⟩

/-- Over a record without slots one strategy allocates the methods and the other does not, so the next
method is numbered differently. -/
theorem eq_empty_of_coincide {id : RecordId} {r : Record β} (hcur : m.currentRecord tag = some id)
    (hr : m.record? id = some r) (hempty : r.slots = ∅)
    (h : m.Coincide fields methods tag .constructorWithPrototype .dynamicPrototype) :
    methods = ∅ := by
  have hp : r.isPopulated = false := Record.isPopulated_eq_false_iff.2 hempty
  obtain ⟨-, hleft⟩ := build_of_settled
    (b := { strategy := .constructorWithPrototype, fields, methods, tag }) rfl hcur hr nofun
  obtain ⟨-, hfilled⟩ := build_of_empty
    (b := { strategy := .dynamicPrototype, fields, methods, tag }) rfl hcur hr hp
  -- what one has left alone, the other has counted
  have hcount : m.methodCount = m.methodCount + methods.size := by
    have hmodels := congrArg Model.methodCount (hleft.symm.trans (h.2.trans hfilled))
    exact hmodels.trans (congrArg (· + methods.size) (methodCount_modifyRecord ..))
  have hsize : methods.toList.length = 0 := by
    show methods.size = 0
    omega
  exact NameMap.ext_toList (List.length_eq_zero_iff.1 hsize)

/-- **When strategies coincide.** The strategies that delegate leave the same answer and the same state
behind exactly if there is no record without slots for the tag, or nothing to fill it with. The
strategies that copy always do. -/
theorem strategies_coincide_iff {m : Model β} (hm : m.Reachable) (fields : PropertyMap β)
    (methods : MethodTable β) (tag : String) :
    (m.Coincide fields methods tag .constructorWithPrototype .dynamicPrototype ↔
      ¬ ((∃ id r, m.currentRecord tag = some id ∧ m.record id = .ok r ∧ r.slots = ∅) ∧
        methods ≠ ∅)) ∧
    m.Coincide fields methods tag .factory .constructorOnly := by
  refine ⟨⟨?_, ?_⟩, coincide_of_copies rfl rfl⟩
  · rintro h ⟨⟨id, r, hcur, hr, hempty⟩, hne⟩
    exact hne (eq_empty_of_coincide hcur (record_eq_ok_iff.1 hr) hempty h)
  · intro hnot
    cases hcur : m.currentRecord tag with
    | none => exact coincide_of_unbound hm.sound rfl rfl hcur
    | some id =>
      obtain ⟨r, hr, -⟩ := hm.sound.bound tag id hcur
      refine coincide_of_settled rfl rfl hcur hr fun hempty => ?_
      exact Classical.byContradiction fun hne =>
        hnot ⟨⟨id, r, hcur, record_eq_ok_iff.2 hr, hempty⟩, hne⟩

/-- Over a record that has just been created the strategies that delegate come apart, unless the table is
empty. For another tag they coincide, though there is no room for its record. -/
theorem strategies_coincide_iff_created :
    let m : Model Nat := (Model.new 0 ⟨1⟩).after [.createRecord "T"]
    let table : MethodTable Nat := .ofList [("f", 10)]
    m.Reachable ∧
    ¬ m.Coincide ∅ table "T" .constructorWithPrototype .dynamicPrototype ∧
    m.Coincide ∅ ∅ "T" .constructorWithPrototype .dynamicPrototype ∧
    m.Coincide ∅ table "U" .constructorWithPrototype .dynamicPrototype := by
  intro m table
  have hm : m.Reachable := Reachable.after (.new 0 ⟨1⟩) _
  have hcoincide := fun methods tag => (strategies_coincide_iff hm ∅ methods tag).1
  refine ⟨hm, ?_, (hcoincide ∅ "T").2 ?_, (hcoincide table "U").2 ?_⟩
  · intro h
    have hne : table ≠ ∅ := fun e => nomatch (congrArg NameMap.size e : 1 = 0)
    exact (hcoincide table "T").1 h ⟨⟨.ofParts 0 0, _, rfl, rfl, rfl⟩, hne⟩
  · exact fun h => h.2 rfl
  · rintro ⟨⟨id, _, hcur, _⟩, -⟩
    exact nomatch (hcur : none = some id)

end Coinciding

end Model

end Delegation
