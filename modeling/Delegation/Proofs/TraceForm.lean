import Delegation.CommandLine.Program
import Delegation.Proofs.Acceptance
import Delegation.Proofs.Replay

/-!
# The form of a trace

A trace consists of blocks: the events of one span in their order, and the line of its end. There is one
block for every construction, and one for the replacement, right before the construction that follows it.

What a construction reports depends on two questions to the state that it finds: whether its tag is bound
to a record, and whether the record has slots (`journal_build_of_unbound`, `journal_build_of_bound`). The
construction loop has at most three states besides those in which the replacement has just been made, so
both questions are settled by the plan (`finds`), and with them the whole trace (`trace_form`).
-/

namespace Delegation

variable {β : Type}

/-! ## Blocks -/

/-- Events in a span of their own. -/
structure Block where
  span : Span
  events : List Event

namespace Block

/-- The reports of a block. -/
def journal (b : Block) : Journal := .opened b.span :: b.events.map .logged ++ [.closed b.span]

/-- The lines of a block: each event in the span, and at last the end of the span. -/
def lines (b : Block) : List Document :=
  b.events.map (fun e =>
    CommandLine.lineDocument e.level e.message e.fields (some b.span) [b.span]) ++
  [CommandLine.lineDocument .debug "close" [] (some b.span) []]

/-- A record for the tag is stored and bound in place of `old`, if there was one. -/
def replacement (tag : String) (old : Option Nat) (new : Nat) : Block where
  span := .replaceSlots tag old new
  events := [.allocated new tag true, .severed]

/-- An instance is built: its record is stored if that is `made` for it, and filled if it was made or
found `empty`. -/
def construction (b : Blueprint β) (record : Nat) (made empty : Bool) (own : Nat) : Block where
  span := .construct b.strategy b.tag
  events :=
    (if made then [.allocated record b.tag true] else []) ++
    (if empty then [.populating record] else []) ++
    (if made || empty then b.methods.keys.map (.slotSet record) else []) ++
    [.constructed own]

theorem events_map_logged (events : List Event) : Journal.events (events.map .logged) = events := by
  induction events with
  | nil => rfl
  | cons event events ih => exact congrArg (event :: ·) ih

/-- The events of a block happen in its span alone, and its end happens in none. -/
theorem traceDocuments_cons (b : Block) (rest : Journal) :
    CommandLine.traceDocuments (b.journal ++ rest) = b.lines ++ CommandLine.traceDocuments rest := by
  have hlogged : ∀ entry ∈ b.events.map Entry.logged, ∃ event, entry = .logged event := by
    intro entry hentry
    obtain ⟨event, -, rfl⟩ := List.mem_map.1 hentry
    exact ⟨event, rfl⟩
  have hwithin : (b.journal ++ rest).occurrences =
      (b.events.map fun event => ⟨.inl event, [b.span]⟩) ++
        ⟨.inr b.span, []⟩ :: rest.occurrences := by
    rw [Journal.occurrences, journal, List.append_assoc, List.cons_append,
      Journal.occurrencesWithin, Journal.occurrencesWithin_logged hlogged, events_map_logged]
    rfl
  rw [CommandLine.traceDocuments, hwithin, List.map_append, List.map_map, List.map_cons, lines,
    List.append_assoc]
  rfl

theorem traceDocuments_flatMap (blocks : List Block) :
    CommandLine.traceDocuments (blocks.flatMap journal) = blocks.flatMap lines := by
  induction blocks with
  | nil => rfl
  | cons b blocks ih => rw [List.flatMap_cons, traceDocuments_cons, ih, List.flatMap_cons]

end Block

namespace Model

/-! ## What calls report -/

theorem writeJournal_eq (id : RecordId) (methods : MethodTable β) :
    writeJournal id methods = (methods.keys.map (Event.slotSet id.index.toNat)).map .logged := by
  simp [writeJournal, NameMap.keys, Function.comp_def]

theorem journal_build_of_copies {b : Blueprint β} (hs : b.strategy.delegates = false) (m : Model β)
    (record : Nat) :
    ((build b).run m).journal =
      (Block.construction b record false false (m.ownAtBirth b).size).journal := by
  rw [run_build_of_copies hs]
  rfl

/-- Without a record for the tag, one is made, and the methods are written into it. -/
theorem journal_build_of_unbound {m : Model β} {b : Blueprint β} {id : RecordId}
    (hs : b.strategy.delegates = true) (hcur : m.currentRecord b.tag = none)
    (hid : m.nextRecordId = .ok id) :
    ((build b).run m).journal = (Block.construction b id.index.toNat true
      (decide (b.strategy = .dynamicPrototype)) b.fields.size).journal := by
  have hattach := attached b.strategy b.methods b.tag m
  rw [run_build_of_delegates hs]
  generalize (attach b.strategy b.methods b.tag).run m = o at hattach ⊢
  cases hattach with
  | copying hs' => simp [hs] at hs'
  | found _ _ hcur' | populated _ _ _ hcur' | dangling _ _ _ hcur' => simp [hcur] at hcur'
  | full f _ _ hid' => simp [hid] at hid'
  | made id' _ _ hid' =>
    obtain rfl : id = id' := Except.ok.inj (hid.symm.trans hid')
    by_cases hdyn : b.strategy = .dynamicPrototype <;>
      simp [hdyn, Outcome.wrap, Block.journal, Block.construction, writeJournal_eq]

/-- A record that is found is filled only if it has no slots, and only by the strategy that looks. -/
theorem journal_build_of_bound {m : Model β} {b : Blueprint β} {id : RecordId} {r : Record β}
    (hs : b.strategy.delegates = true) (hcur : m.currentRecord b.tag = some id)
    (hr : m.record? id = some r) (hid : r.id = id) :
    ((build b).run m).journal = (Block.construction b id.index.toNat false
      (decide (b.strategy = .dynamicPrototype) && !r.isPopulated) b.fields.size).journal := by
  have hattach := attached b.strategy b.methods b.tag m
  rw [run_build_of_delegates hs]
  generalize (attach b.strategy b.methods b.tag).run m = o at hattach ⊢
  cases hattach with
  | copying hs' => simp [hs] at hs'
  | found id' _ hcur' hleft =>
    obtain rfl : id = id' := Option.some.inj (hcur.symm.trans hcur')
    have hnot : (decide (b.strategy = .dynamicPrototype) && !r.isPopulated) = false := by
      rcases hleft with hproto | ⟨r', hr', hpopulated⟩
      · simp [hproto]
      · obtain rfl : r = r' := Option.some.inj (hr.symm.trans hr')
        simp [hpopulated]
    rw [hnot]
    rfl
  | populated id' r' hdyn hcur' hr' hempty =>
    obtain rfl : id = id' := Option.some.inj (hcur.symm.trans hcur')
    obtain rfl : r = r' := Option.some.inj (hr.symm.trans hr')
    simp [hdyn, hempty, hid, Outcome.wrap, Block.journal, Block.construction, writeJournal_eq]
  | made id' _ hnone => simp [hcur] at hnone
  | full f _ hnone => simp [hcur] at hnone
  | dangling id' f _ hcur' hr' =>
    obtain rfl : id = id' := Option.some.inj (hcur.symm.trans hcur')
    simp [record_eq_ok_iff.2 hr] at hr'

theorem journal_replacePrototype {m : Model β} (hm : m.Sound) {id : RecordId}
    (hid : m.nextRecordId = .ok id) (tag : String) (methods : MethodTable β) :
    ((replacePrototype tag methods).run m).journal = (Block.replacement tag
      ((m.currentRecord tag).map (·.index.toNat)) id.index.toNat).journal := by
  rw [run_replacePrototype, run_replacePrototypeSlots_of_sound (hm.countMethods _),
    nextRecordId_countMethods, hid]
  rfl

/-- A model without records has bound no tag. -/
theorem Sound.currentRecord_of_empty {m : Model β} (hm : m.Sound)
    (hid : m.nextRecordId = .ok (.ofParts 0 0)) (tag : String) : m.currentRecord tag = none := by
  cases hcur : m.currentRecord tag with
  | none => rfl
  | some id =>
    obtain ⟨r, hr, -⟩ := hm.bound tag id hcur
    have hplace := place_of_record? hr
    have hsize : (0 : UInt32).toNat = m.records.size := (nextRecordId_eq_ok hid).2
    simp only [UInt32.toNat_zero] at hsize
    omega

end Model

namespace CommandLine.Plan

open Model

variable {p : Plan β}

/-! ## The blocks of a plan -/

/-- Whether the tag's record is made for the instance at a place. -/
def makesRecord (p : Plan β) (place : Nat) : Bool :=
  p.strategy.delegates && decide (place = 0) && decide (p.replaceAfter ≠ some 0)

/-- Whether the instance at a place is built by the strategy that fills empty records, and its record is
empty. -/
def findsEmpty (p : Plan β) (place : Nat) : Bool :=
  decide (p.strategy = .dynamicPrototype) &&
    if p.isLate place then
      p.replacement.isEmpty && (decide (p.replaceAfter = some place) || p.methods.isEmpty)
    else decide (place = 0) || p.methods.isEmpty

/-- How many own properties every instance has: all fields, and copied methods of other names. -/
def ownCount (p : Plan β) : Nat :=
  p.fields.size + if p.strategy.delegates then 0
    else p.methods.keys.countP fun name => !p.fields.contains name

/-- The block of the construction at a place. -/
def constructionBlock (p : Plan β) (place : Nat) : Block :=
  .construction p.blueprint (p.handleAt place).index.toNat (p.makesRecord place) (p.findsEmpty place)
    p.ownCount

/-- The block of the replacement: a record is replaced if some construction has made one. -/
def replacementBlock (p : Plan β) : Block :=
  if p.strategy.delegates = true ∧ p.replaceAfter ≠ some 0 then .replacement p.tag (some 0) 1
  else .replacement p.tag none 0

/-- All blocks for a number of instances, in order. -/
def blocks (p : Plan β) (n : Nat) : List Block :=
  match p.replaceAfter with
  | none => (List.range n).map p.constructionBlock
  | some k =>
    (List.range k).map p.constructionBlock ++
      p.replacementBlock :: (List.range' k (n - k)).map p.constructionBlock

/-- The blocks that building the instance at a place adds. -/
def blocksAt (p : Plan β) (place : Nat) : List Block :=
  (if p.replaceAfter = some place then [p.replacementBlock] else []) ++ [p.constructionBlock place]

/-- The state that the construction at a place finds. -/
def stateBefore (p : Plan β) (place : Nat) : Model β :=
  let m := ((p.buildFrom 0 place).run (.new 0 {})).model
  if p.replaceAfter = some place then ((replacePrototype p.tag p.replacement).run m).model else m

theorem flatMap_blocksAt_of_ne {places : List Nat} (h : ∀ place ∈ places, p.replaceAfter ≠ some place) :
    places.flatMap p.blocksAt = places.map p.constructionBlock := by
  induction places with
  | nil => rfl
  | cons place places ih =>
    rw [List.flatMap_cons, ih fun place hplace => h place (List.mem_cons_of_mem _ hplace), blocksAt,
      if_neg (h place List.mem_cons_self)]
    rfl

/-- Place by place, these are the blocks of the plan. -/
theorem flatMap_blocksAt {n : Nat} (hk : ∀ k, p.replaceAfter = some k → k < n) :
    (List.range' 0 n).flatMap p.blocksAt = p.blocks n := by
  rw [blocks]
  cases hafter : p.replaceAfter with
  | none =>
    rw [flatMap_blocksAt_of_ne (by simp [hafter]), List.range_eq_range']
  | some k =>
    -- the places before the replacement, its own, and those behind it
    obtain ⟨later, rfl⟩ : ∃ later, n = k + (later + 1) := ⟨n - k - 1, by have := hk k hafter; omega⟩
    have hbefore : ∀ place ∈ List.range' 0 k, p.replaceAfter ≠ some place := by
      intro place hplace e
      obtain rfl : k = place := Option.some.inj (hafter.symm.trans e)
      simp at hplace
    have hbehind : ∀ place ∈ List.range' (k + 1) later, p.replaceAfter ≠ some place := by
      intro place hplace e
      obtain rfl : k = place := Option.some.inj (hafter.symm.trans e)
      have := (List.mem_range'_1.1 hplace).1
      omega
    have hsplit : List.range' 0 (k + (later + 1)) =
        List.range' 0 k ++ k :: List.range' (k + 1) later := by
      rw [← List.range'_append_1, Nat.zero_add, List.range'_succ]
    rw [hsplit, List.flatMap_append, List.flatMap_cons, flatMap_blocksAt_of_ne hbefore,
      flatMap_blocksAt_of_ne hbehind, blocksAt, if_pos hafter]
    simp only [Nat.add_sub_cancel_left, List.range'_succ, List.range_eq_range', List.map_cons]
    rfl

/-! ## Journals of the loop -/

/-- The reports of a replacement stand before those of the construction that follows it. -/
theorem journal_buildAt_of_eq {place : Nat} (h : p.replaceAfter = some place) {m : Model β}
    {id : RecordId} (hid : ((replacePrototype p.tag p.replacement).run m).answer = .ok id) :
    ((p.buildAt place).run m).journal = ((replacePrototype p.tag p.replacement).run m).journal ++
      ((build p.blueprint).run ((replacePrototype p.tag p.replacement).run m).model).journal := by
  rw [run_buildAt_replaced h]
  exact Outcome.journal_andThen_of_answer hid _

/-- **The journal of the loop.** If building at each place reports the blocks of that place, the loop
reports the blocks of all its places. -/
theorem journal_buildFrom {At : Nat → Model β → Prop} {instanceAt : Nat → Instance β}
    (hstep : ∀ place m, At place m →
      ((p.buildAt place).run m).answer = .ok (instanceAt place) ∧
        At (place + 1) ((p.buildAt place).run m).model)
    (hjournal : ∀ place m, At place m →
      ((p.buildAt place).run m).journal = (p.blocksAt place).flatMap Block.journal)
    (n : Nat) {place : Nat} {m : Model β} (hm : At place m) :
    ((p.buildFrom place n).run m).journal =
      ((List.range' place n).flatMap p.blocksAt).flatMap Block.journal := by
  -- on the places that are left: what comes later is reported later
  induction n generalizing place m with
  | zero => rfl
  | succ n ih =>
    obtain ⟨hanswer, hnext⟩ := hstep place m hm
    rw [buildFrom, Action.run_bind, Outcome.journal_andThen_of_answer hanswer, hjournal place m hm,
      List.range'_succ, List.flatMap_cons, List.flatMap_append, ← ih hnext]
    rfl

/-! ### Copying strategies -/

theorem constructionBlock_of_copies (hs : p.strategy.delegates = false) {place : Nat} {m : Model β}
    (record : Nat) :
    Block.construction p.blueprint record false false (m.ownAtBirth p.blueprint).size =
      p.constructionBlock place := by
  have hmade : p.makesRecord place = false := by simp [makesRecord, hs]
  have hempty : p.findsEmpty place = false := by
    have hdyn : p.strategy ≠ .dynamicPrototype := fun e => by simp [e, Strategy.delegates] at hs
    simp [findsEmpty, hdyn]
  have hown : (m.ownAtBirth p.blueprint).size = p.ownCount := by
    have hs' : p.blueprint.strategy.delegates = false := hs
    have hnames : (m.nextMethods p.blueprint.methods.toList).map (·.1) = p.methods.keys := by
      rw [nextMethods_eq_numberedEntries, map_fst_numberedEntries]
      rfl
    rw [ownAtBirth, hs', if_neg Bool.false_ne_true,
      NameMap.size_insertAll _ (hnames ▸ p.methods.nodup_keys), hnames, ownCount, hs,
      if_neg Bool.false_ne_true]
    rfl
  rw [constructionBlock, hmade, hempty, hown]
  rfl

theorem journal_buildAt_of_copies (hs : p.strategy.delegates = false) (place : Nat) (m : Model β)
    (h : p.Copied place m) :
    ((p.buildAt place).run m).journal = (p.blocksAt place).flatMap Block.journal := by
  have hbuild : ∀ m : Model β, ((build p.blueprint).run m).journal =
      (p.constructionBlock place).journal := fun m => by
    rw [journal_build_of_copies hs m 0, constructionBlock_of_copies hs]
  by_cases hk : p.replaceAfter = some place
  · -- copies make no record, so there is none to be replaced
    have hid := h.room (isReplaced_of_eq hk).1
    have hblock : p.replacementBlock = .replacement p.tag none 0 := by simp [replacementBlock, hs]
    rw [journal_buildAt_of_eq hk (replacePrototype_of_room h.sound hid p.tag p.replacement).1, hbuild,
      journal_replacePrototype h.sound hid, h.sound.currentRecord_of_empty hid, blocksAt, if_pos hk,
      hblock]
    simp
  · rw [run_buildAt_of_ne hk, hbuild, blocksAt, if_neg hk]
    simp

/-! ### Delegating strategies -/

/-- What the construction at a place finds in a state, as the plan has it. -/
inductive Finds (p : Plan β) (place : Nat) (m : Model β) : Prop
  | unbound (hmade : p.makesRecord place = true) (hcur : m.currentRecord p.tag = none)
      (hid : m.nextRecordId = .ok (p.handleAt place))
      (hempty : p.findsEmpty place = decide (p.strategy = .dynamicPrototype))
  | bound (hmade : p.makesRecord place = false) (r : Record β)
      (hcur : m.currentRecord p.tag = some (p.handleAt place))
      (hr : m.record? (p.handleAt place) = some r) (hid : r.id = p.handleAt place)
      (hempty : p.findsEmpty place = (decide (p.strategy = .dynamicPrototype) && !r.isPopulated))

theorem Finds.journal_build (hs : p.strategy.delegates = true) {place : Nat} {m : Model β}
    (h : p.Finds place m) :
    ((build p.blueprint).run m).journal = (p.constructionBlock place).journal := by
  have hown : p.ownCount = p.fields.size := by simp [ownCount, hs]
  cases h with
  | unbound hmade hcur hid hempty =>
    rw [journal_build_of_unbound (b := p.blueprint) hs hcur hid, constructionBlock, hmade, hempty, hown]
    rfl
  | bound hmade r hcur hr hid hempty =>
    rw [journal_build_of_bound (b := p.blueprint) hs hcur hr hid, constructionBlock, hmade, hempty, hown]
    rfl

theorem not_isPopulated (r : Record β) : (!r.isPopulated) = r.slots.isEmpty := by
  rw [Record.isPopulated, Bool.not_not]

theorem finds_replaced {place : Nat} (hk : p.replaceAfter = some place) :
    p.Finds place ((replacePrototype p.tag p.replacement).run p.baseState).model := by
  have hlate := (isReplaced_of_eq hk).2
  have hid : p.baseState.nextRecordId = .ok (Record.withSlots p.lateId p.tag
      (p.replacement.numbered 0 (if p.replaceAfter = some 0 then 0 else p.methods.size)) :
        Record β).id := p.nextRecordId_baseState
  rw [p.replace_baseState.2]
  refine .bound ?_ (.withSlots p.lateId p.tag (p.replacement.numbered 0
    (if p.replaceAfter = some 0 then 0 else p.methods.size))) ?_ ?_ ?_ ?_
  · -- at the first place the replacement has made the record
    cases place with
    | zero => simp [makesRecord, hk]
    | succ place => simp [makesRecord]
  · show (p.baseState.push _ true).currentRecord p.tag = _
    rw [currentRecord_push, if_pos ⟨rfl, rfl⟩, handleAt, hlate]
    rfl
  · rw [record?_countMethods, handleAt, hlate, record?_push hid]
    exact if_pos rfl
  · rw [handleAt, hlate]
    rfl
  · rw [not_isPopulated, findsEmpty, hlate, if_pos rfl]
    show _ = (_ && (p.replacement.numbered 0 _).isEmpty)
    rw [MethodTable.isEmpty_numbered]
    simp [hk]

theorem finds_stateAt (hs : p.strategy.delegates = true) {place : Nat}
    (hk : p.replaceAfter ≠ some place) : p.Finds place (p.stateAt place) := by
  have hlate := isLate_of_ne hk
  rw [stateAt]
  cases hreplaced : p.isReplaced place with
  | true =>
    rw [hreplaced] at hlate
    have hzero : place ≠ 0 := by
      rintro rfl
      simp [isReplaced_zero] at hreplaced
    refine .bound (by simp [makesRecord, hzero]) p.late ?_ ?_ ?_ ?_
    · rw [if_pos rfl, p.currentRecord_lastState, handleAt, hlate, if_pos rfl]
    · rw [if_pos rfl, handleAt, hlate, if_pos rfl, p.record?_lastState]
    · rw [handleAt, hlate, if_pos rfl]
      rfl
    · rw [not_isPopulated, findsEmpty, hlate, if_pos rfl, late, MethodTable.isEmpty_numbered]
      -- an empty replacement has been filled with the methods, which may be none
      by_cases hdyn : p.strategy = .dynamicPrototype
      · cases hR : p.replacement.isEmpty <;> simp [refills, hdyn, hR, hk]
      · simp [hdyn]
  | false =>
    rw [hreplaced] at hlate
    simp only [Bool.false_eq_true, if_false]
    by_cases hzero : place = 0
    · subst hzero
      rw [if_pos rfl]
      refine .unbound (by simp [makesRecord, hs, hk]) rfl ?_ (by simp [findsEmpty, hlate])
      rw [nextRecordId_new, handleAt, hlate, if_neg Bool.false_ne_true]
    · rw [if_neg hzero]
      refine .bound (by simp [makesRecord, hzero]) p.early ?_ ?_ ?_ ?_
      · rw [p.currentRecord_firstState, handleAt, hlate, if_neg Bool.false_ne_true]
      · rw [handleAt, hlate, if_neg Bool.false_ne_true, p.record?_firstState]
      · rw [handleAt, hlate, if_neg Bool.false_ne_true]
        rfl
      · rw [not_isPopulated, findsEmpty, hlate, early, MethodTable.isEmpty_numbered]
        simp [hzero]

theorem journal_replacement (hs : p.strategy.delegates = true) :
    ((replacePrototype p.tag p.replacement).run p.baseState).journal = p.replacementBlock.journal := by
  rw [journal_replacePrototype p.sound_baseState p.nextRecordId_baseState, replacementBlock, lateId,
    baseState]
  by_cases hzero : p.replaceAfter = some 0
  · simp only [hzero, if_pos, ne_eq, not_true_eq_false, and_false, if_false]
    rfl
  · rw [if_neg hzero, if_neg hzero, if_pos ⟨hs, hzero⟩, p.currentRecord_firstState]
    rfl

theorem journal_buildAt_of_delegates (hs : p.strategy.delegates = true) (place : Nat) (m : Model β)
    (h : m = p.stateAt place) :
    ((p.buildAt place).run m).journal = (p.blocksAt place).flatMap Block.journal := by
  by_cases hk : p.replaceAfter = some place
  · rw [h, stateAt_of_eq hk, journal_buildAt_of_eq hk p.replace_baseState.1,
      (finds_replaced hk).journal_build hs, journal_replacement hs, blocksAt, if_pos hk]
    simp
  · rw [run_buildAt_of_ne hk, h, (finds_stateAt hs hk).journal_build hs, blocksAt, if_neg hk]
    simp

/-- **Questions.** What a construction finds, in the state that the run has led to. -/
theorem finds (hs : p.strategy.delegates = true) (place : Nat) :
    p.Finds place (p.stateBefore place) := by
  rw [stateBefore, (run_buildFrom_of_delegates hs place).2]
  by_cases hk : p.replaceAfter = some place
  · rw [if_pos hk, stateAt_of_eq hk]
    exact finds_replaced hk
  · rw [if_neg hk]
    exact finds_stateAt hs hk

/-! ## Runs -/

/-- **Journals.** Carrying a plan out reports its blocks. -/
theorem journal_carryOut {n : Nat} (hk : ∀ k, p.replaceAfter = some k → k < n) :
    (p.carryOut n).journal = (p.blocks n).flatMap Block.journal := by
  have hloop : ((p.buildFrom 0 n).run (.new 0 {})).journal = (p.blocks n).flatMap Block.journal := by
    rw [← flatMap_blocksAt hk]
    cases hs : p.strategy.delegates with
    | false =>
      exact journal_buildFrom (step_of_copies hs) (journal_buildAt_of_copies hs) n p.copied_new
    | true =>
      exact journal_buildFrom (step_of_delegates hs) (journal_buildAt_of_delegates hs) n
        p.stateAt_zero.symm
  rw [carryOut, Action.run_bind, ← hloop]
  -- the report itself is silent
  rcases (p.buildFrom 0 n).run (.new 0 {}) with ⟨_ | built, m, j⟩
  · rfl
  · exact List.append_nil j

/-- What a construction finds, as questions to the state. -/
theorem Finds.iff {place : Nat} {m : Model β} (h : p.Finds place m) :
    (p.makesRecord place = true ↔ m.currentRecord p.tag = none) ∧
    (p.findsEmpty place = true ↔ p.strategy = .dynamicPrototype ∧
      ∀ id r, m.currentRecord p.tag = some id → m.record? id = some r → r.slots = ∅) := by
  cases h with
  | unbound hmade hcur hid hempty => simp [hmade, hcur, hempty]
  | bound hmade r hcur hr _ hempty =>
    refine ⟨by simp [hmade, hcur], ?_⟩
    rw [hempty, not_isPopulated, Bool.and_eq_true, decide_eq_true_eq, NameMap.isEmpty_iff]
    refine and_congr_right fun _ => ⟨fun hslots id r' hcur' hr' => ?_, fun hall => hall _ r hcur hr⟩
    obtain rfl : p.handleAt place = id := Option.some.inj (hcur.symm.trans hcur')
    obtain rfl : r = r' := Option.some.inj (hr.symm.trans hr')
    exact hslots

end CommandLine.Plan

namespace CommandLine

/-- What is answered was accepted, and there was room. -/
theorem exists_plan_of_answer {c : Configuration} {r : Report Closure} (hrun : c.run.1 = .ok r) :
    ∃ (s : Strategy) (F : PropertyMap Closure), c.strategy = s.name ∧ readFields c.fields = .ok F ∧
      (∀ k, c.replaceAfter = some k → k < c.count) ∧
      c.run.2 = ((c.planWith s F).blocks c.count).flatMap Block.journal := by
  rcases objection_or_accepted c with ⟨text, hobjection⟩ | ⟨hs, hfields, hk⟩
  · obtain ⟨complaint, hplan, -⟩ := plan_of_objection hobjection
    rw [Configuration.run, hplan] at hrun
    cases hrun
  · have hroom : c.count ≤ capacityLimit := by
      refine Nat.le_of_not_lt fun hover => ?_
      rw [run_of_overflow hs hfields hk hover] at hrun
      cases hrun
    obtain ⟨s, hs⟩ := mem_strategyNames.1 hs
    obtain ⟨F, hF, -⟩ := readFields_eq_ok (β := Closure) hfields
    refine ⟨s, F, hs, hF, hk, ?_⟩
    rw [(run_of_plan (plan_of_wellFormed hs hF hk)).2 hroom]
    exact Plan.journal_carryOut hk

/-- What decides about the events of a construction, asked of the plan and of the state. -/
theorem Plan.questions (p : Plan β) (place : Nat) :
    let found := p.stateBefore place
    (p.makesRecord place = true ↔ p.strategy.delegates = true ∧ found.currentRecord p.tag = none) ∧
      (p.findsEmpty place = true ↔ p.strategy = .dynamicPrototype ∧
        ∀ id r, found.currentRecord p.tag = some id → found.record? id = some r → r.slots = ∅) := by
  intro found
  cases hdelegates : p.strategy.delegates with
  | true =>
    obtain ⟨hmade, hempty⟩ := (p.finds hdelegates place).iff
    exact ⟨hmade.trans ⟨fun h => ⟨rfl, h⟩, And.right⟩, hempty⟩
  | false =>
    -- a copying strategy asks neither question
    have hdyn : p.strategy ≠ .dynamicPrototype := fun e => by simp [e, Strategy.delegates] at hdelegates
    simp [Plan.makesRecord, Plan.findsEmpty, hdelegates, hdyn]

/-- **The form of a trace.** A run that ends with a report has reported its blocks: one for each instance,
and one for the replacement behind as many constructions as come before it. So its trace consists of the
lines of these blocks. `Block.construction` says which events a construction reports in which order,
depending on whether it makes the record of its tag and whether it finds the record empty; both are
answered alike by the plan and by the state that the construction finds. -/
theorem trace_form {c : Configuration} {r : Report Closure} (hrun : c.run.1 = .ok r) :
    ∃ (s : Strategy) (F : PropertyMap Closure),
      c.strategy = s.name ∧ readFields c.fields = .ok F ∧
      (∀ k, c.replaceAfter = some k → k < c.count) ∧
      (c.planWith s F).methods.keys.Pairwise (· < ·) ∧
      (∀ name, name ∈ (c.planWith s F).methods.keys ↔ name ∈ c.methods) ∧
      c.run.2 = ((c.planWith s F).blocks c.count).flatMap Block.journal ∧
      traceDocuments c.run.2 = ((c.planWith s F).blocks c.count).flatMap Block.lines ∧
      ∀ place,
        let found := (c.planWith s F).stateBefore place
        ((c.planWith s F).makesRecord place = true ↔
          s.delegates = true ∧ found.currentRecord c.tag = none) ∧
        ((c.planWith s F).findsEmpty place = true ↔ s = .dynamicPrototype ∧
          ∀ id r, found.currentRecord c.tag = some id → found.record? id = some r → r.slots = ∅) := by
  obtain ⟨s, F, hs, hF, hk, hjournal⟩ := exists_plan_of_answer hrun
  refine ⟨s, F, hs, hF, hk, NameMap.keys_sorted _, fun name => ?_, hjournal, ?_,
    (c.planWith s F).questions⟩
  · exact ((c.planWith s F).methods.mem_keys_iff name).trans (contains_methodTable c.methods name)
  · rw [hjournal, Block.traceDocuments_flatMap]

/-- The empty record of a replacement is filled by the construction that follows. -/
theorem trace_form_refilled :
    let c : Configuration := {
      strategy := "dynamicPrototype", tag := "Person", fields := [], methods := ["m"], count := 2
      replaceAfter := some 1, replaceMethods := [], trace := true }
    let blocks : List Block := [
      ⟨.construct .dynamicPrototype "Person",
        [.allocated 0 "Person" true, .populating 0, .slotSet 0 "m", .constructed 0]⟩,
      ⟨.replaceSlots "Person" (some 0) 1, [.allocated 1 "Person" true, .severed]⟩,
      ⟨.construct .dynamicPrototype "Person", [.populating 1, .slotSet 1 "m", .constructed 0]⟩]
    (∃ r, c.run.1 = .ok r) ∧ c.run.2 = blocks.flatMap Block.journal ∧
      traceDocuments c.run.2 = blocks.flatMap Block.lines := by
  intro c blocks
  obtain ⟨_, r, hanswer, -⟩ := run_of_accepted (c := c) (by decide) (by simp [c]) (by simp [c]) (by decide)
  obtain ⟨s, F, hs, hF, -, -, -, hjournal, hlines, -⟩ := trace_form hanswer
  obtain rfl : s = .dynamicPrototype := by
    cases s with
    | dynamicPrototype => rfl
    | _ => exact absurd hs (by decide)
  obtain rfl : ∅ = F := Except.ok.inj hF
  dsimp only [c, blocks] at hjournal hlines ⊢
  exact ⟨⟨r, hanswer⟩, hjournal, hlines⟩

/-- **Lines.** A program that ends with a report has written the lines of its blocks if it was to be
traced, and none otherwise. -/
theorem trace_of_reported {arguments : List String} {report : Document} {trace : List Document}
    (hrun : Ending.ofArguments arguments = .reported report trace) :
    ∃ (c : Configuration) (s : Strategy) (F : PropertyMap Closure),
      Configuration.ofArguments Command.read arguments = .ok c ∧ c.strategy = s.name ∧
      readFields c.fields = .ok F ∧
      trace = if c.trace then ((c.planWith s F).blocks c.count).flatMap Block.lines else [] := by
  unfold Ending.ofArguments at hrun
  cases hc : Configuration.ofArguments Command.read arguments with
  | error problem =>
    rw [hc] at hrun
    cases hrun
  | ok c =>
    rw [hc] at hrun
    cases hanswer : c.run.1 with
    | error failure =>
      simp only [hanswer] at hrun
      cases hrun
    | ok r =>
      simp only [hanswer, Ending.reported.injEq] at hrun
      obtain ⟨s, F, hs, hF, -, hjournal⟩ := exists_plan_of_answer hanswer
      refine ⟨c, s, F, rfl, hs, hF, ?_⟩
      rw [← hrun.2, hjournal, Block.traceDocuments_flatMap]

end CommandLine

end Delegation
