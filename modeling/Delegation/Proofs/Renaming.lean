import Mathlib.Logic.Equiv.Basic
import Delegation.Proofs.MethodIdentity

/-!
# Renamings

Records are known by their places and methods by their numbers, and both are given out in the order in
which calls are made. `Renaming` exchanges places and numbers of one model for others, wherever they
occur: in handles, in methods at any depth of a value, in records, instances and answers. It changes
nothing else, so renaming goes through everything that is done to a record.

`Renamed` relates two models of which one is the other under different names. `Renaming.Fixes` says
that nothing a model has is renamed; since the methods in its records are its own or of other models,
such a renaming relates the model to itself (`Fixes.record?_recordId`).
-/

namespace Delegation

variable {β : Type}

theorem Value.map_eq_self {μ : Type} {g : μ → μ} {v : Value μ} (h : ∀ f, v.Holds f → g f = f) :
    v.map g = v := by
  induction v using Value.induct with
  | array items ih =>
    have hitems : items.map (Value.map g) = items := by
      conv_rhs => rw [← List.map_id items]
      apply List.map_congr_left
      intro v hv
      exact ih v hv fun f hf => h f (.item hv hf)
    rw [Value.map, Value.mapAll_eq, hitems]
  | method f => exact congrArg Value.method (h f (.method f))
  | undefined | null | bool | number | string => rfl

theorem NameMap.map_eq_self {α : Type} {g : α → α} {m : NameMap α}
    (h : ∀ k x, m.get? k = some x → g x = x) : m.map g = m := by
  apply NameMap.ext_get?
  intro k
  rw [NameMap.get?_map]
  cases hx : m.get? k with
  | none => rfl
  | some x => exact congrArg some (h k x hx)

/-- An exchange of the places and the numbers that a model gives out. -/
structure Renaming where
  /-- The number of the model whose handles are renamed. -/
  model : UInt32
  /-- Places of records. -/
  places : Equiv.Perm UInt32
  /-- Numbers of methods. -/
  numbers : Equiv.Perm Nat

namespace Renaming

variable (ρ : Renaming)

def recordId (id : RecordId) : RecordId :=
  if id.model = ρ.model then .ofParts (ρ.places id.index) id.model else id

def methodId (id : MethodId) : MethodId :=
  if id.model = ρ.model then ⟨id.model, ρ.numbers id.seq⟩ else id

def method (f : Method β) : Method β := { f with id := ρ.methodId f.id }

def value (v : Value (Method β)) : Value (Method β) := v.map ρ.method

def properties (ps : PropertyMap β) : PropertyMap β := ps.map ρ.value

def named (ps : List (String × Value (Method β))) : List (String × Value (Method β)) :=
  ps.map fun p => (p.1, ρ.value p.2)

def record (r : Record β) : Record β :=
  { r with id := ρ.recordId r.id, slots := ρ.properties r.slots }

def object (i : Instance β) : Instance β :=
  { own := ρ.properties i.own, prototype := i.prototype.map ρ.recordId }

def product : Product β → Product β
  | .nothing => .nothing
  | .record id => .record (ρ.recordId id)
  | .object i => .object (ρ.object i)
  | .method f => .method (ρ.method f)

/-! ## Handles -/

@[simp] theorem model_recordId (id : RecordId) : (ρ.recordId id).model = id.model := by
  rw [recordId]
  split
  · exact RecordId.model_ofParts ..
  · rfl

theorem recordId_injective : Function.Injective ρ.recordId := by
  intro id id' h
  have hmodel : id.model = id'.model := by
    rw [← ρ.model_recordId id, h, ρ.model_recordId]
  by_cases hρ : id.model = ρ.model
  · rw [recordId, if_pos hρ, recordId, if_pos (hmodel ▸ hρ)] at h
    have hindex := congrArg RecordId.index h
    rw [RecordId.index_ofParts, RecordId.index_ofParts] at hindex
    exact RecordId.eq_of_parts (ρ.places.injective hindex) hmodel
  · rwa [recordId, if_neg hρ, recordId, if_neg (hmodel ▸ hρ)] at h

/-! ## Records -/

theorem properties_insertAll (m : PropertyMap β) (ps : List (String × Value (Method β))) :
    ρ.properties (m.insertAll ps) = (ρ.properties m).insertAll (ρ.named ps) :=
  NameMap.map_insertAll m ps ρ.value

theorem properties_ofList (ps : List (String × Value (Method β))) :
    ρ.properties (.ofList ps) = .ofList (ρ.named ps) := ρ.properties_insertAll ∅ ps

@[simp] theorem id_record (r : Record β) : (ρ.record r).id = ρ.recordId r.id := rfl

@[simp] theorem record_new (id : RecordId) (tag : String) :
    ρ.record (.new id tag : Record β) = .new (ρ.recordId id) tag := rfl

@[simp] theorem record_withSlots (id : RecordId) (tag : String) (slots : PropertyMap β) :
    ρ.record (.withSlots id tag slots) = .withSlots (ρ.recordId id) tag (ρ.properties slots) := rfl

@[simp] theorem record_setSlot (r : Record β) (name : String) (v : Value (Method β)) :
    ρ.record (r.setSlot name v) = (ρ.record r).setSlot name (ρ.value v) := by
  have hslots : ρ.properties (r.slots.insert name v) =
      (ρ.properties r.slots).insert name (ρ.value v) := NameMap.map_insert ..
  rw [record, Record.setSlot, hslots]
  rfl

@[simp] theorem record_setSlots (r : Record β) (ps : List (String × Value (Method β))) :
    ρ.record (r.setSlots ps) = (ρ.record r).setSlots (ρ.named ps) := by
  induction ps generalizing r with
  | nil => rfl
  | cons p ps ih =>
    rw [Record.setSlots_cons, ih, record_setSlot]
    rfl

@[simp] theorem record_relink (r : Record β) : ρ.record r.relink = (ρ.record r).relink := rfl

/-! ## New methods -/

/-- Methods that are allocated later are the same up to their numbers. -/
theorem named_nextMethods {m l : Model β} (hmodel : ρ.model = m.nonce) (hnonce : l.nonce = m.nonce)
    (bodies : List (String × β))
    (h : ∀ k < bodies.length, ρ.numbers (m.methodCount + k) = l.methodCount + k) :
    ρ.named (m.nextMethods bodies) = l.nextMethods bodies := by
  induction bodies generalizing m l with
  | nil => rfl
  | cons p bodies ih =>
    have hfirst : ρ.method (m.nextMethod p.1 p.2) = l.nextMethod p.1 p.2 := by
      have hnumber := h 0 (Nat.zero_lt_succ _)
      rw [method, Model.nextMethod, methodId, if_pos hmodel.symm, Model.nextMethod, hnonce]
      simp only [Nat.add_zero] at hnumber
      rw [hnumber]
    have hrest : ρ.named (m.countMethod.nextMethods bodies) = l.countMethod.nextMethods bodies := by
      apply ih (m := m.countMethod) (l := l.countMethod) hmodel hnonce
      intro k hk
      have hnumber := h (k + 1) (Nat.succ_lt_succ hk)
      show ρ.numbers (m.methodCount + 1 + k) = l.methodCount + 1 + k
      rw [Nat.add_assoc, Nat.add_comm 1, hnumber]
      omega
    show (p.1, Value.method (ρ.method (m.nextMethod p.1 p.2))) :: ρ.named _ = _
    rw [hfirst, hrest]
    rfl

end Renaming

/-! ## Models under different names -/

/-- One model is the other renamed. -/
structure Model.Renamed (ρ : Renaming) (m m' : Model β) : Prop where
  nonce_eq : m'.nonce = m.nonce
  limits_eq : m'.limits = m.limits
  recordCount_eq : m'.recordCount = m.recordCount
  methodCount_eq : m'.methodCount = m.methodCount
  record? : ∀ id, m'.record? (ρ.recordId id) = (m.record? id).map ρ.record
  currentRecord : ∀ tag, m'.currentRecord tag = (m.currentRecord tag).map ρ.recordId

/-- Every method in the value that is the model's own was allocated before. -/
def Model.Knows (m : Model β) (v : Value (Method β)) : Prop :=
  ∀ f, v.Holds f → f.id.model = m.nonce → f.id.seq < m.methodCount

/-- The slots of all records are known. -/
def Model.KnowsSlots (m : Model β) : Prop :=
  ∀ id r, m.record? id = some r → ∀ name v, r.slots.get? name = some v → m.Knows v

/-- The renaming is one of the model, and leaves all that was given out as it is. -/
structure Renaming.Fixes (ρ : Renaming) (m : Model β) : Prop where
  model_eq : ρ.model = m.nonce
  places : ∀ i : UInt32, i.toNat < m.recordCount → ρ.places i = i
  numbers : ∀ k < m.methodCount, ρ.numbers k = k

namespace Renaming.Fixes

variable {ρ : Renaming} {m : Model β}

theorem recordId_eq (h : ρ.Fixes m) {id : RecordId} {r : Record β} (hr : m.record? id = some r) :
    ρ.recordId id = id := by
  have hmodel : id.model = ρ.model := (Model.model_of_record? hr).trans h.model_eq.symm
  rw [recordId, if_pos hmodel, h.places _ (Model.place_of_record? hr)]
  exact RecordId.eq_of_parts (RecordId.index_ofParts ..) (RecordId.model_ofParts ..)

theorem value_eq (h : ρ.Fixes m) {v : Value (Method β)} (hv : m.Knows v) : ρ.value v = v := by
  apply Value.map_eq_self
  intro f hf
  rw [method, methodId]
  split
  next hmodel => rw [h.numbers _ (hv f hf (hmodel.trans h.model_eq))]
  next => rfl

theorem properties_eq (h : ρ.Fixes m) {ps : PropertyMap β}
    (hps : ∀ name v, ps.get? name = some v → m.Knows v) : ρ.properties ps = ps :=
  NameMap.map_eq_self fun name v hv => h.value_eq (hps name v hv)

theorem record_eq (h : ρ.Fixes m) (hm : m.Sound) (hknows : m.KnowsSlots) {id : RecordId}
    {r : Record β} (hr : m.record? id = some r) : ρ.record r = r := by
  have hid : ρ.recordId r.id = r.id := h.recordId_eq ((hm.id_eq hr).symm ▸ hr)
  rw [record, hid, h.properties_eq (hknows id r hr)]

/-- A renaming of nothing that a model has relates the model to itself. -/
theorem record?_recordId (h : ρ.Fixes m) (hm : m.Sound) (hknows : m.KnowsSlots) (id : RecordId) :
    m.record? (ρ.recordId id) = (m.record? id).map ρ.record := by
  cases hr : m.record? id with
  | some r => rw [h.recordId_eq hr, hr, Option.map_some, h.record_eq hm hknows hr]
  | none =>
    cases hr' : m.record? (ρ.recordId id) with
    | none => rfl
    | some r' =>
      -- the new name would be fixed, and so the old one
      have hfixed := ρ.recordId_injective (h.recordId_eq hr')
      rw [hfixed, hr] at hr'
      cases hr'

end Renaming.Fixes

/-! ## Exchanging two blocks of numbers -/

/-- Puts a block of `a` numbers from `start` on behind the `b` numbers that follow it. -/
def Renaming.shift (start a b k : Nat) : Nat :=
  if k < start then k
  else if k < start + a then k + b
  else if k < start + a + b then k - a
  else k

theorem Renaming.shift_shift (start a b k : Nat) : shift start b a (shift start a b k) = k := by
  unfold shift
  split <;> (repeat' split) <;> omega

/-- The exchange of two blocks that follow each other. -/
def Renaming.blocks (start a b : Nat) : Equiv.Perm Nat where
  toFun := shift start a b
  invFun := shift start b a
  left_inv := shift_shift start a b
  right_inv := shift_shift start b a

theorem Renaming.blocks_of_lt {start a b k : Nat} (h : k < start) : blocks start a b k = k :=
  if_pos h

theorem Renaming.blocks_first {a k : Nat} (start b : Nat) (h : k < a) :
    blocks start a b (start + k) = start + b + k := by
  show shift start a b (start + k) = _
  unfold shift
  rw [if_neg (by omega), if_pos (by omega)]
  omega

theorem Renaming.blocks_second {b k : Nat} (start a : Nat) (h : k < b) :
    blocks start a b (start + a + k) = start + k := by
  show shift start a b (start + a + k) = _
  unfold shift
  rw [if_neg (by omega), if_neg (by omega), if_pos (by omega)]
  omega

end Delegation
