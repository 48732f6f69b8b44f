import Delegation.Proofs.ConstructionLoop
import Delegation.Proofs.Sharing

/-!
# The form of a report

A configuration whose strategy is known, whose fields all have an equals sign and whose replacement
comes before the last construction is answered as long as there is room for its instances, and what the
answer says about the instance at a place depends on nothing but the plan and that place: `copyLine` for
the strategies that copy methods, `sharerLine` for those that share records.
-/

namespace Delegation

variable {β : Type}

/-! ## Comparing two instances -/

/-- Whether two values are one and the same method. -/
def Value.sameMethod : Value (Method β) → Value (Method β) → Bool
  | .method f, .method g => f.same g
  | _, _ => false

theorem Value.sameMethod_of_not_method {v : Value (Method β)} (h : v.asMethod = none)
    (w : Value (Method β)) : v.sameMethod w = false := by
  cases v with
  | method f => cases h
  | _ => rfl

namespace Model

theorem toOption_sameMethodReference (m : Model β) (a b : Instance β) (name : String) :
    (m.sameMethodReference a b name).toOption =
      (m.get a name).toOption.bind fun v => (m.get b name).toOption.map v.sameMethod := by
  unfold sameMethodReference
  cases m.get a name with
  | error e => rfl
  | ok v =>
    cases m.get b name with
    | error e => rfl
    | ok w => cases v <;> cases w <;> rfl

theorem toOption_get {m : Model β} {i : Instance β}
    (hproto : ∀ id, i.prototype = some id → ∃ r, m.record? id = some r) (name : String) :
    (m.get i name).toOption = (i.getOwn name).or (i.prototype.bind fun id => m.slot? id name) := by
  rw [get_eq hproto]
  cases (i.getOwn name).or (i.prototype.bind fun id => m.slot? id name) <;> rfl

end Model

namespace CommandLine

open Model

/-! ## Reading a configuration -/

/-- The name that a field is for: what stands before its first equals sign. -/
def fieldName (field : String) : String := String.ofList (field.toList.takeWhile (· ≠ '='))

/-- What a field gives to its name: all that stands after its first equals sign. -/
def fieldText (field : String) : List Char := (field.toList.dropWhile (· ≠ '=')).tail

/-- A text with an equals sign is cut at the first one. -/
theorem splitAssignment_eq {cs : List Char} (h : '=' ∈ cs) :
    Argument.splitAssignment cs =
      (cs.takeWhile (· ≠ '='), some (cs.dropWhile (· ≠ '=')).tail) := by
  induction cs with
  | nil => cases h
  | cons c cs ih =>
    rw [Argument.splitAssignment]
    by_cases hc : c = '='
    · simp [hc]
    · have hrest := ih ((List.mem_cons.1 h).resolve_left (Ne.symm hc))
      rw [if_neg hc, hrest]
      simp [hc]

/-- No literal is a method. -/
theorem asMethod_readLiteral (raw : List Char) :
    (readLiteral raw : Value (Method β)).asMethod = none := by
  cases h : unbracket? (Text.trim raw) with
  | some inner =>
    rw [readLiteral_bracketed h]
    split <;> rfl
  | none =>
    rw [readLiteral_plain h, readPlain]
    repeat' split
    all_goals rfl

theorem readField_eq_ok {field : String} (h : '=' ∈ field.toList) :
    (readField field : Except Complaint (String × Value (Method β))) =
      .ok (fieldName field, readLiteral (fieldText field)) := by
  rw [readField, splitAssignment_eq h]
  rfl

theorem mapM_map_of_forall {α γ δ ε : Type} {g : γ → Except ε δ} {f : α → γ} {h : α → δ}
    {l : List α} (hl : ∀ a ∈ l, g (f a) = .ok (h a)) : (l.map f).mapM g = .ok (l.map h) := by
  induction l with
  | nil => rfl
  | cons a l ih =>
    have hrest := ih fun a' ha' => hl a' (List.mem_cons_of_mem _ ha')
    rw [List.map_cons, List.mapM_cons, hl a List.mem_cons_self, hrest]
    rfl

theorem lookup_map_pairs {α γ : Type} (k : α → String) (x : α → γ) (l : List α) (name : String) :
    (l.map fun a => (k a, x a)).lookup name = (l.find? fun a => k a = name).map x := by
  induction l with
  | nil => rfl
  | cons a l ih =>
    rw [List.map_cons, NameMap.lookup_pair_cons, List.find?_cons, ih]
    by_cases h : k a = name
    · simp [h]
    · simp [h, Ne.symm h]

/-- **Fields.** Well-formed fields are read, and a name has the value of the last field for it. -/
theorem readFields_eq_ok {fields : List String} (h : ∀ f ∈ fields, '=' ∈ f.toList) :
    ∃ F : PropertyMap β, readFields fields = .ok F ∧
      ∀ name, F.get? name =
        (fields.reverse.find? fun f => fieldName f = name).map fun f => readLiteral (fieldText f) := by
  have hread : fields.mapM readField =
      .ok (fields.map fun f => (fieldName f, (readLiteral (fieldText f) : Value (Method β)))) := by
    have hmap := mapM_map_of_forall (f := id) (l := fields)
      fun f hf => readField_eq_ok (β := β) (h f hf)
    rwa [List.map_id] at hmap
  refine ⟨_, by rw [readFields, hread]; rfl, fun name => ?_⟩
  rw [NameMap.ofList, NameMap.get?_insertAll, NameMap.get?_empty, Option.or_none, ← List.map_reverse,
    lookup_map_pairs]

/-- A map of what was read of fields has no method. -/
theorem asMethod_of_fields {fields : List String} {F : PropertyMap β}
    (hF : ∀ name, F.get? name =
      (fields.reverse.find? fun f => fieldName f = name).map fun f => readLiteral (fieldText f))
    (name : String) (v : Value (Method β)) (hv : F.get? name = some v) : v.asMethod = none := by
  rw [hF] at hv
  obtain ⟨f, -, rfl⟩ := Option.map_eq_some_iff.1 hv
  exact asMethod_readLiteral _

theorem readFields_of_wellFormed {fields : List String} (h : ∀ field ∈ fields, '=' ∈ field.toList) :
    ∃ F : PropertyMap β, readFields fields = .ok F ∧
      ∀ name v, F.get? name = some v → v.asMethod = none := by
  obtain ⟨F, hF, hget⟩ := readFields_eq_ok (β := β) h
  exact ⟨F, hF, asMethod_of_fields hget⟩

theorem contains_methodTable (names : List String) (name : String) :
    (methodTable names).contains name = true ↔ name ∈ names := by
  rw [methodTable, NameMap.ofList, NameMap.contains,
    NameMap.get?_insertAll_map ∅ (fun _ => nameReader)]
  by_cases h : name ∈ names <;> simp [h]

/-- What a configuration asks for, once its strategy and its fields have been read. -/
def Configuration.planWith (c : Configuration) (s : Strategy) (F : PropertyMap Closure) :
    Plan Closure :=
  { strategy := s
    tag := c.tag
    fields := F
    methods := methodTable c.methods
    replaceAfter := c.replaceAfter
    replacement := methodTable c.replaceMethods }

/-- A well-formed configuration is accepted. -/
theorem plan_of_wellFormed {c : Configuration} {s : Strategy} {F : PropertyMap Closure}
    (hs : c.strategy = s.name) (hfields : readFields c.fields = .ok F)
    (hk : ∀ k, c.replaceAfter = some k → k < c.count) : c.plan = .ok (c.planWith s F) := by
  have hname : Strategy.ofName c.strategy = .ok s := by
    rw [hs, Strategy.ofName, Strategy.ofName?_name]
  rw [Configuration.plan, hname, hfields, Configuration.planWith]
  cases hafter : c.replaceAfter with
  | none => rfl
  | some k =>
    have hle : ¬ c.count ≤ k := Nat.not_le_of_lt (hk k hafter)
    show (if c.count ≤ k then _ else _) = _
    rw [if_neg hle]
    rfl

theorem mem_methodNames (p : Plan β) (name : String) :
    name ∈ p.methodNames ↔ p.methods.contains name = true ∨ p.replacement.contains name = true := by
  rw [Plan.methodNames, NameMap.mem_keys_iff, NameMap.contains, NameMap.get?_overwrite,
    Option.isSome_or, Bool.or_eq_true, or_comm]
  rfl

/-! ## The lists of a report -/

/-- The checks of instances that are a function of their places. -/
theorem checks_map (m : Model β) (tag : String) (names : List String) (f : Nat → Instance β)
    {n : Nat} (hn : 0 < n) :
    checks m tag names ((List.range n).map f) =
      { sharesRecord := (List.range n).map fun i => m.sharesRecordWith (f 0) (f i)
        sameMethodReference := .ofList (names.map fun name =>
          (name, (List.range n).map fun i => (m.sameMethodReference (f 0) (f i) name).toOption))
        producedBy := (List.range n).map fun i => m.producedBy (f i) tag
        isInstanceOf := (List.range n).map fun i => m.isInstanceOf (f i) tag } := by
  obtain ⟨n, rfl⟩ := Nat.exists_eq_add_one_of_ne_zero (Nat.ne_of_gt hn)
  rw [List.range_succ_eq_map, List.map_cons, checks]
  simp only [List.map_cons, List.map_map, Function.comp_def]

/-- All that a report says about one instance. -/
structure Line (β : Type) where
  snapshot : Snapshot β
  sharesRecord : Bool
  producedBy : Bool
  isInstanceOf : Bool
  /-- By method. -/
  sameMethod : String → Option Bool

/-- Whether a report says this about the instance at a place. -/
structure Report.Shows (r : Report β) (i : Nat) (line : Line β) : Prop where
  snapshot : r.instances[i]? = some line.snapshot
  sharesRecord : r.checks.sharesRecord[i]? = some line.sharesRecord
  producedBy : r.checks.producedBy[i]? = some line.producedBy
  isInstanceOf : r.checks.isInstanceOf[i]? = some line.isInstanceOf
  sameMethod : ∀ name flags, r.checks.sameMethodReference.get? name = some flags →
    flags[i]? = some (line.sameMethod name)

/-- Whether all lists of a report have this many entries. -/
structure Report.Sized (r : Report β) (n : Nat) : Prop where
  instances : r.instances.length = n
  sharesRecord : r.checks.sharesRecord.length = n
  producedBy : r.checks.producedBy.length = n
  isInstanceOf : r.checks.isInstanceOf.length = n
  sameMethodReference : ∀ name flags, r.checks.sameMethodReference.get? name = some flags →
    flags.length = n

/-- Whether a plan for `n` instances is answered with a report that shows these lines. -/
def Plan.Reports (p : Plan β) (n : Nat) (line : Nat → Line β) : Prop :=
  ∃ r, (p.carryOut n).answer = .ok r ∧ r.strategy = p.strategy ∧ r.tag = p.tag ∧ r.Sized n ∧
    (∀ name, r.checks.sameMethodReference.contains name = true ↔ 0 < n ∧ name ∈ p.methodNames) ∧
    ∀ i < n, r.Shows i (line i)

theorem get?_checks (m : Model β) (tag : String) (names : List String) (f : Nat → Instance β)
    (n : Nat) (name : String) :
    (checks m tag names ((List.range n).map f)).sameMethodReference.get? name =
      if 0 < n ∧ name ∈ names then
        some ((List.range n).map fun i => (m.sameMethodReference (f 0) (f i) name).toOption)
      else none := by
  cases n with
  | zero => rfl
  | succ n =>
    have hn := Nat.succ_pos n
    simp only [checks_map m tag names f hn, NameMap.ofList, hn, true_and]
    rw [NameMap.get?_insertAll_map ∅ _ names name, NameMap.get?_empty]

theorem lengths_checks (m : Model β) (tag : String) (names : List String) (f : Nat → Instance β)
    (n : Nat) :
    (checks m tag names ((List.range n).map f)).sharesRecord.length = n ∧
      (checks m tag names ((List.range n).map f)).producedBy.length = n ∧
      (checks m tag names ((List.range n).map f)).isInstanceOf.length = n := by
  cases n with
  | zero => exact ⟨rfl, rfl, rfl⟩
  | succ n => simp [checks_map m tag names f (Nat.succ_pos n)]

/-- **Reports.** What a plan reports on instances that are a function of their places. -/
theorem run_of_loop {p : Plan β} {n : Nat} {f : Nat → Instance β} {line : Nat → Line β} {m : Model β}
    (hloop : ((p.buildFrom 0 n).run (.new 0 {})).answer = .ok ((List.range n).map f))
    (hm : ((p.buildFrom 0 n).run (.new 0 {})).model = m)
    (hsnapshot : ∀ i < n, m.snapshot (f i) = .ok (line i).snapshot)
    (hshares : ∀ i < n, m.sharesRecordWith (f 0) (f i) = (line i).sharesRecord)
    (hproduced : ∀ i < n, m.producedBy (f i) p.tag = (line i).producedBy)
    (hinstance : ∀ i < n, m.isInstanceOf (f i) p.tag = (line i).isInstanceOf)
    (hsame : ∀ i < n, ∀ name ∈ p.methodNames,
      (m.sameMethodReference (f 0) (f i) name).toOption = (line i).sameMethod name) :
    p.Reports n line := by
  have hreport : (p.carryOut n).answer = p.report m ((List.range n).map f) := by
    rw [Plan.carryOut, Action.run_bind, (Outcome.andThen_of_answer hloop _).1, hm, Action.run_consult]
  have hsnapshots : ((List.range n).map f).mapM m.snapshot =
      .ok ((List.range n).map fun i => (line i).snapshot) :=
    mapM_map_of_forall fun i hi => hsnapshot i (List.mem_range.1 hi)
  rw [Plan.report, hsnapshots] at hreport
  obtain ⟨hshared, hmade, hof⟩ := lengths_checks m p.tag p.methodNames f n
  refine ⟨_, hreport, rfl, rfl, ?_, fun name => ?_, fun i hi => ?_⟩
  · refine ⟨by simp, hshared, hmade, hof, fun name flags hflags => ?_⟩
    rw [get?_checks] at hflags
    split at hflags
    · obtain rfl := Option.some.inj hflags
      simp
    · cases hflags
  · rw [NameMap.contains, get?_checks]
    split
    next h => simp [h]
    next h => simp [h]
  · have hchecks := checks_map m p.tag p.methodNames f (Nat.zero_lt_of_lt hi)
    have hrange : (List.range n)[i]? = some i := List.getElem?_range hi
    constructor
    case snapshot => simp [hrange]
    case sharesRecord => simp [hchecks, hrange, hshares i hi]
    case producedBy => simp [hchecks, hrange, hproduced i hi]
    case isInstanceOf => simp [hchecks, hrange, hinstance i hi]
    case sameMethod =>
      intro name flags hflags
      rw [get?_checks] at hflags
      split at hflags
      next h =>
        obtain rfl := Option.some.inj hflags
        simp [hrange, hsame i hi name h.2]
      next => cases hflags

/-! ## Strategies that copy -/

/-- What is said about the copy at a place. -/
def copyLine (p : Plan β) (i : Nat) : Line β :=
  { snapshot := {
      own := p.fields.overwrite (p.methods.numbered 0 (p.firstCopy i))
      prototype := none }
    sharesRecord := false
    producedBy := false
    isInstanceOf := false
    sameMethod := fun name =>
      if p.methods.contains name then some (decide (i = 0))
      else if p.fields.contains name then some false
      else none }

/-- Later copies have later methods. -/
theorem firstCopy_eq_iff {p : Plan β} (h : 0 < p.methods.size) (i : Nat) :
    p.firstCopy 0 = p.firstCopy i ↔ i = 0 := by
  constructor
  · intro heq
    rcases Nat.eq_zero_or_pos i with hi | hi
    · exact hi
    -- a later copy begins at least one table later, and the replacement only adds to that
    have hsize : p.methods.size ≤ i * p.methods.size := Nat.le_mul_of_pos_left _ hi
    have hnever : p.firstCopy 0 < p.firstCopy i := by
      unfold Plan.firstCopy
      split
      next h0 => rw [if_pos (Plan.isLate_mono (Nat.zero_le i) h0)]; omega
      next => omega
    omega
  · rintro rfl
    rfl

theorem sameMethodReference_copyAt {p : Plan β}
    (hfields : ∀ name v, p.fields.get? name = some v → v.asMethod = none) (m : Model β) (i : Nat)
    (name : String) :
    (m.sameMethodReference (p.copyAt 0) (p.copyAt i) name).toOption =
      (copyLine p i).sameMethod name := by
  have hget : ∀ j, (m.get (p.copyAt j) name).toOption =
      ((p.methods.get? name).map fun body => Value.method
        { id := ⟨0, p.firstCopy j + p.methods.keys.idxOf name⟩, name, body }).or
        (p.fields.get? name) := by
    intro j
    have hproto : ∀ id, (p.copyAt j).prototype = some id → ∃ r, m.record? id = some r := by
      intro id hid
      cases hid
    rw [toOption_get hproto]
    show ((p.fields.overwrite (p.methods.numbered 0 (p.firstCopy j))).get? name).or none = _
    rw [Option.or_none, NameMap.get?_overwrite, MethodTable.get?_numbered]
  rw [toOption_sameMethodReference, hget, hget]
  show _ = if p.methods.contains name then _ else _
  cases hM : p.methods.get? name with
  | some body =>
    have hcontains : p.methods.contains name = true := by rw [NameMap.contains, hM]; rfl
    have hsize : 0 < p.methods.size :=
      Nat.lt_of_le_of_lt (Nat.zero_le _) (MethodTable.idxOf_keys_lt hcontains)
    rw [if_pos hcontains]
    show some (decide (MethodId.mk _ _ = MethodId.mk _ _)) = _
    rw [Option.some.injEq, decide_eq_decide, ← firstCopy_eq_iff hsize i]
    simp only [MethodId.mk.injEq, true_and, Nat.add_right_cancel_iff]
  | none =>
    have hcontains : p.methods.contains name = false := by rw [NameMap.contains, hM]; rfl
    rw [hcontains, if_neg Bool.false_ne_true, Option.map_none, Option.none_or, NameMap.contains]
    cases hF : p.fields.get? name with
    | none => rfl
    | some v =>
      show some (v.sameMethod v) = _
      rw [Value.sameMethod_of_not_method (hfields name v hF)]
      rfl

/-- **Copies.** What a plan reports when its strategy copies. -/
theorem run_of_copies {p : Plan β} (hs : p.strategy.delegates = false)
    (hfields : ∀ name v, p.fields.get? name = some v → v.asMethod = none) (n : Nat) :
    p.Reports n (copyLine p) :=
  run_of_loop (Plan.run_buildFrom_of_copies hs n) rfl (fun _ _ => rfl) (fun _ _ => rfl)
    (fun _ _ => rfl) (fun _ _ => rfl) (fun i _ name _ => sameMethodReference_copyAt hfields _ i name)

/-! ## Strategies that share records -/

/-- What is said about the instance at a place that shares its record. -/
def sharerLine (p : Plan β) (i : Nat) : Line β :=
  { snapshot := { own := p.fields, prototype := some (p.recordAt i).snapshot }
    sharesRecord := p.isLate i == p.isLate 0
    producedBy := true
    isInstanceOf := p.isLate i || p.replaceAfter.isNone
    sameMethod := fun name =>
      if p.fields.contains name then some false
      else if (p.recordAt 0).slots.contains name && (p.recordAt i).slots.contains name then
        some (p.isLate i == p.isLate 0)
      else none }

/-- The slots of a record are one table, numbered at one go. -/
theorem slots_recordAt (p : Plan β) (i : Nat) :
    ∃ (table : MethodTable β) (start : Nat), (p.recordAt i).slots = table.numbered 0 start := by
  unfold Plan.recordAt
  split
  · exact ⟨_, _, rfl⟩
  · exact ⟨_, _, rfl⟩

/-- Two instances have the same method in a slot if they have the same record: those of the first
record were all numbered before those of the other. -/
theorem sameMethod_slots {p : Plan β} {i : Nat} {name : String} {v w : Value (Method β)}
    (hv : (p.recordAt 0).slots.get? name = some v) (hw : (p.recordAt i).slots.get? name = some w) :
    v.sameMethod w = (p.isLate i == p.isLate 0) := by
  by_cases hsame : p.isLate i = p.isLate 0
  · have hrecord : p.recordAt i = p.recordAt 0 := by rw [Plan.recordAt, hsame, Plan.recordAt]
    obtain ⟨table, start, hslots⟩ := slots_recordAt p 0
    rw [hrecord, hv] at hw
    obtain rfl := Option.some.inj hw
    rw [hslots, MethodTable.get?_numbered] at hv
    obtain ⟨body, -, rfl⟩ := Option.map_eq_some_iff.1 hv
    simp [Value.sameMethod, Method.same, hsame]
  · obtain ⟨h0, hi⟩ : p.isLate 0 = false ∧ p.isLate i = true := by
      cases h0 : p.isLate 0 with
      | true => exact absurd (Plan.isLate_mono (Nat.zero_le i) h0) (h0 ▸ hsame)
      | false => exact ⟨rfl, by simpa [h0] using hsame⟩
    rw [Plan.recordAt, h0, if_neg Bool.false_ne_true, Plan.early, MethodTable.get?_numbered] at hv
    rw [Plan.recordAt, hi, if_pos rfl, Plan.late, if_neg (Plan.replaceAfter_ne_zero h0),
      MethodTable.get?_numbered] at hw
    obtain ⟨body, hbody, rfl⟩ := Option.map_eq_some_iff.1 hv
    obtain ⟨body', -, rfl⟩ := Option.map_eq_some_iff.1 hw
    -- numbers of the first record are below the size of its table, those of the other are not
    have hlt : p.methods.keys.idxOf name < p.methods.size :=
      MethodTable.idxOf_keys_lt (by rw [NameMap.contains, hbody]; rfl)
    rw [h0, hi]
    show decide (MethodId.mk _ _ = MethodId.mk _ _) = false
    rw [decide_eq_false_iff_not, MethodId.mk.injEq]
    omega

theorem id_recordAt (p : Plan β) (i : Nat) : (p.recordAt i).id = p.handleAt i := by
  unfold Plan.recordAt Plan.handleAt
  split <;> rfl

theorem creatorTag_recordAt (p : Plan β) (i : Nat) : (p.recordAt i).creatorTag = p.tag := by
  unfold Plan.recordAt
  split <;> rfl

/-! ### In the last state -/

section

variable {p : Plan β} {n i : Nat} (hk : ∀ k, p.replaceAfter = some k → k < n) (hi : i < n)

include hk hi

theorem snapshot_sharerAt :
    (p.stateAt n).snapshot (p.sharerAt i) = .ok (sharerLine p i).snapshot := by
  have hr := record_eq_ok_iff.2 (Plan.record?_stateAt hk hi)
  show (do
    let prototype ← (p.stateAt n).recordSnapshot (p.handleAt i)
    return { own := p.fields, prototype := some prototype } : Except Fault (Snapshot β)) = _
  rw [recordSnapshot, hr, ← id_recordAt]
  rfl

theorem sharesRecordWith_sharerAt :
    (p.stateAt n).sharesRecordWith (p.sharerAt 0) (p.sharerAt i) =
      (sharerLine p i).sharesRecord := by
  have hr := Plan.record?_stateAt hk (Nat.zero_lt_of_lt hi)
  have hiff := sharesRecordWith_iff (a := p.sharerAt 0) (b := p.sharerAt i) rfl rfl hr
  rw [Plan.handleAt_eq_iff] at hiff
  rw [Bool.eq_iff_iff, hiff]
  exact beq_iff_eq.symm

theorem producedBy_sharerAt : (p.stateAt n).producedBy (p.sharerAt i) p.tag = true := by
  have hr : (p.stateAt n).prototypeRecord? (p.sharerAt i) = some (p.recordAt i) :=
    Plan.record?_stateAt hk hi
  rw [producedBy, hr]
  show ((p.recordAt i).creatorTag == p.tag) = true
  rw [creatorTag_recordAt, beq_self_eq_true]

theorem isInstanceOf_sharerAt :
    (p.stateAt n).isInstanceOf (p.sharerAt i) p.tag = (sharerLine p i).isInstanceOf := by
  rw [isInstanceOf, Plan.currentRecord_stateAt hk (Nat.zero_lt_of_lt hi)]
  show (p.handleAt i == if p.replaceAfter.isSome then p.lateId else .ofParts 0 0) =
    (p.isLate i || p.replaceAfter.isNone)
  unfold Plan.handleAt
  cases hafter : p.replaceAfter with
  | none => simp [Plan.isLate, hafter]
  | some k =>
    cases hlate : p.isLate i with
    | true => simp
    | false => simpa using (Plan.lateId_ne (Plan.replaceAfter_ne_zero hlate)).symm

theorem sameMethodReference_sharerAt
    (hfields : ∀ name v, p.fields.get? name = some v → v.asMethod = none) (name : String) :
    ((p.stateAt n).sameMethodReference (p.sharerAt 0) (p.sharerAt i) name).toOption =
      (sharerLine p i).sameMethod name := by
  have hget : ∀ j < n, ((p.stateAt n).get (p.sharerAt j) name).toOption =
      (p.fields.get? name).or ((p.recordAt j).slots.get? name) := by
    intro j hj
    have hr := Plan.record?_stateAt hk hj
    have hproto : ∀ id, (p.sharerAt j).prototype = some id →
        ∃ r, (p.stateAt n).record? id = some r := by
      intro id hid
      cases hid
      exact ⟨_, hr⟩
    rw [toOption_get hproto]
    show (p.fields.get? name).or ((p.stateAt n).slot? (p.handleAt j) name) = _
    rw [slot?, hr, Option.bind_some]
  rw [toOption_sameMethodReference, hget 0 (Nat.zero_lt_of_lt hi), hget i hi]
  show _ = if p.fields.contains name then _ else _
  cases hF : p.fields.get? name with
  | some v =>
    have hcontains : p.fields.contains name = true := by rw [NameMap.contains, hF]; rfl
    rw [if_pos hcontains]
    show some (v.sameMethod v) = _
    rw [Value.sameMethod_of_not_method (hfields name v hF)]
  | none =>
    have hcontains : p.fields.contains name = false := by rw [NameMap.contains, hF]; rfl
    rw [hcontains, if_neg Bool.false_ne_true, Option.none_or, Option.none_or, NameMap.contains,
      NameMap.contains]
    cases hv : (p.recordAt 0).slots.get? name with
    | none => rfl
    | some v =>
      cases hw : (p.recordAt i).slots.get? name with
      | none => rfl
      | some w =>
        show some (v.sameMethod w) = _
        rw [sameMethod_slots hv hw]
        rfl

end

/-- **Sharers.** What a plan reports when its strategy delegates. -/
theorem run_of_delegates {p : Plan β} (hs : p.strategy.delegates = true)
    (hfields : ∀ name v, p.fields.get? name = some v → v.asMethod = none) {n : Nat}
    (hk : ∀ k, p.replaceAfter = some k → k < n) :
    p.Reports n (sharerLine p) := by
  obtain ⟨hloop, hm⟩ := Plan.run_buildFrom_of_delegates hs n
  exact run_of_loop hloop hm (fun _ => snapshot_sharerAt hk) (fun _ => sharesRecordWith_sharerAt hk)
    (fun _ => producedBy_sharerAt hk) (fun _ => isInstanceOf_sharerAt hk)
    (fun _ hi name _ => sameMethodReference_sharerAt hk hi hfields name)

/-! ## Configurations -/

/-- A plan is carried out if there is room for its instances, and a run without room breaks off before
anything happens. -/
theorem run_of_plan {c : Configuration} {p : Plan Closure} (hplan : c.plan = .ok p) :
    (capacityLimit < c.count → c.run = (.error .capacityOverflow, [])) ∧
    (c.count ≤ capacityLimit →
      c.run = ((p.carryOut c.count).answer.mapError fun f => .complaint (.fault f),
        (p.carryOut c.count).journal)) := by
  rw [Configuration.run, hplan]
  exact ⟨fun hover => if_pos hover, fun hroom => if_neg (Nat.not_lt.2 hroom)⟩

/-- What a plan reports, however its strategy treats methods. -/
theorem reports_planWith {c : Configuration} {s : Strategy} {F : PropertyMap Closure}
    (hplain : ∀ name v, F.get? name = some v → v.asMethod = none)
    (hk : ∀ k, c.replaceAfter = some k → k < c.count) :
    (c.planWith s F).Reports c.count fun i =>
      if s.delegates then sharerLine (c.planWith s F) i else copyLine (c.planWith s F) i := by
  cases hdelegates : s.delegates with
  | true => exact run_of_delegates hdelegates hplain hk
  | false => exact run_of_copies hdelegates hplain c.count

/-- **Closed form.** Take a configuration that names a strategy, whose fields all have an equals sign and
whose replacement comes before the last construction. If there is room for its instances, it is answered
with a report: its lists have one entry for each instance, its table of methods has the names of both
method lists if there are any instances, and each instance is shown as its place in the plan has it. If
there is no room, the run breaks off without an answer. -/
theorem run_of_wellFormed (c : Configuration) {s : Strategy} (hs : c.strategy = s.name)
    (hfields : ∀ field ∈ c.fields, '=' ∈ field.toList)
    (hk : ∀ k, c.replaceAfter = some k → k < c.count) :
    ∃ F : PropertyMap Closure, readFields c.fields = .ok F ∧
      (c.count ≤ capacityLimit → ∃ r : Report Closure, c.run.1 = .ok r ∧ r.strategy = s ∧ r.tag = c.tag ∧
        r.Sized c.count ∧
        (∀ name, r.checks.sameMethodReference.contains name = true ↔
          0 < c.count ∧ (name ∈ c.methods ∨ name ∈ c.replaceMethods)) ∧
        ∀ i < c.count, r.Shows i
          (if s.delegates then sharerLine (c.planWith s F) i else copyLine (c.planWith s F) i)) ∧
      (capacityLimit < c.count → c.run = (.error .capacityOverflow, [])) := by
  obtain ⟨F, hF, hplain⟩ := readFields_of_wellFormed hfields
  obtain ⟨hover, hcarried⟩ := run_of_plan (plan_of_wellFormed hs hF hk)
  have hnames : ∀ name, name ∈ (c.planWith s F).methodNames ↔
      name ∈ c.methods ∨ name ∈ c.replaceMethods := by
    intro name
    rw [mem_methodNames, ← contains_methodTable, ← contains_methodTable]
    rfl
  refine ⟨F, hF, fun hroom => ?_, hover⟩
  obtain ⟨r, hanswer, hstrategy, htag, hsized, hkeys, hshows⟩ := reports_planWith (s := s) hplain hk
  simp only [hnames] at hkeys
  refine ⟨r, ?_, hstrategy, htag, hsized, hkeys, hshows⟩
  rw [hcarried hroom, hanswer]
  rfl

/-- Three instances, the last two of which have the record of the replacement. They are compared
with the first one, whose record has the method `g` too, but not the same one. -/
theorem run_of_wellFormed_replaced :
    let c : Configuration := {
      strategy := "dynamicPrototype", tag := "Person", fields := ["f=1"], methods := ["f", "g"]
      count := 3, replaceAfter := some 1, replaceMethods := ["g"], trace := false }
    ∃ r, c.run.1 = .ok r ∧ r.instances.length = 3 ∧
      r.checks.sharesRecord[2]? = some false ∧ r.checks.isInstanceOf[2]? = some true ∧
      ∃ flags, r.checks.sameMethodReference.get? "g" = some flags ∧ flags[2]? = some (some false) := by
  intro c
  obtain ⟨F, hF, hroom, -⟩ :=
    run_of_wellFormed c (s := .dynamicPrototype) rfl (by decide) (by simp [c])
  obtain ⟨r, hrun, -, -, hsized, hkeys, hshows⟩ := hroom (by decide)
  have hline := hshows 2 (by decide)
  obtain ⟨flags, hflags⟩ := Option.isSome_iff_exists.1 ((hkeys "g").2 (by decide))
  refine ⟨r, hrun, hsized.instances, hline.sharesRecord, hline.isInstanceOf, flags, hflags, ?_⟩
  rw [hline.sameMethod "g" flags hflags]
  show some (if F.contains "g" then some false else if _ then _ else _) = _
  split <;> rfl

/-- There is no room for as many instances as a signed word can count, though nothing is wrong with the
configuration. -/
theorem run_without_room :
    let c : Configuration := {
      strategy := "factory", tag := "Person", fields := [], methods := [], count := 9223372036854775807
      replaceAfter := none, replaceMethods := [], trace := false }
    c.strategy = Strategy.factory.name ∧ (∀ field ∈ c.fields, '=' ∈ field.toList) ∧
      (∀ k, c.replaceAfter = some k → k < c.count) ∧ ¬ ∃ r, c.run.1 = .ok r := by
  intro c
  have hrun : c.run = (.error .capacityOverflow, []) := rfl
  refine ⟨rfl, by decide, by simp [c], ?_⟩
  rw [hrun]
  rintro ⟨r, ⟨⟩⟩

end CommandLine

end Delegation
