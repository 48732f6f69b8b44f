/-!
# Handles

What identifies a record and a method. Both name the model that issued them, so a handle of one
model is never taken for one of another.

A `RecordId` is a packed word: the record's place in its model's table in the low half, the model
in the high half. `ofParts`, `index` and `model` convert between the word and its two halves without
loss, and the order of the words is the order of models first and places second, that is, the order
of creation. A `MethodId` keeps its two parts side by side.
-/

namespace Delegation

/-! ## Records -/

/-- The identity of a record: its place and its model, packed into one word. -/
structure RecordId where
  packed : UInt64
  deriving DecidableEq

namespace RecordId

/-- The handle of the record at place `index` of the model numbered `model`. -/
def ofParts (index model : UInt32) : RecordId :=
  ⟨index.toUInt64 ||| (model.toUInt64 <<< 32)⟩

/-- The record's place in its model's table. -/
def index (r : RecordId) : UInt32 := r.packed.toUInt32

/-- The number of the model that issued the handle. -/
def model (r : RecordId) : UInt32 := (r.packed >>> 32).toUInt32

/-- Handles are ordered as their words are. -/
instance : Ord RecordId := ⟨fun a b => compare a.packed b.packed⟩

/-! ### The word as a number

The halves do not overlap, so packing is arithmetic: the model counts in units of 4294967296, which is
the number of half words. -/

theorem toNat_packed_ofParts (index model : UInt32) :
    (ofParts index model).packed.toNat = 4294967296 * model.toNat + index.toNat := by
  show _ = 2 ^ 32 * model.toNat + index.toNat
  have hi := index.toNat_lt
  have hm := model.toNat_lt
  have hs : (model.toUInt64 <<< 32).toNat = 2 ^ 32 * model.toNat := by
    rw [UInt64.toNat_shiftLeft]
    simp only [UInt32.toNat_toUInt64, Nat.shiftLeft_eq]
    show model.toNat * 2 ^ 32 % 2 ^ 64 = _
    omega
  rw [ofParts, UInt64.toNat_or, hs, UInt32.toNat_toUInt64, Nat.or_comm,
    Nat.two_pow_add_eq_or_of_lt hi]

theorem toNat_index (r : RecordId) : r.index.toNat = r.packed.toNat % 4294967296 := by
  exact UInt64.toNat_toUInt32 r.packed

theorem toNat_model (r : RecordId) : r.model.toNat = r.packed.toNat / 4294967296 := by
  have := r.packed.toNat_lt
  rw [model, UInt64.toNat_toUInt32, UInt64.toNat_shiftRight, Nat.shiftRight_eq_div_pow]
  show _ / 2 ^ 32 % 2 ^ 32 = _
  omega

@[simp] theorem index_ofParts (index model : UInt32) : (ofParts index model).index = index := by
  have := index.toNat_lt
  apply UInt32.toNat_inj.1
  rw [toNat_index, toNat_packed_ofParts]
  omega

@[simp] theorem model_ofParts (index model : UInt32) : (ofParts index model).model = model := by
  have := index.toNat_lt
  apply UInt32.toNat_inj.1
  rw [toNat_model, toNat_packed_ofParts]
  omega

/-- A handle is determined by its place and its model. -/
theorem eq_of_parts {a b : RecordId} (hi : a.index = b.index) (hm : a.model = b.model) : a = b := by
  have hi := congrArg UInt32.toNat hi
  have hm := congrArg UInt32.toNat hm
  rw [toNat_index, toNat_index] at hi
  rw [toNat_model, toNat_model] at hm
  have h : a.packed.toNat = b.packed.toNat := by omega
  cases a; cases b
  exact congrArg _ (UInt64.toNat_inj.1 h)

end RecordId

/-! ## Methods -/

/-- The identity of a method: the model that allocated it, and how many that model had allocated
before. -/
structure MethodId where
  model : UInt32
  seq : Nat
  deriving DecidableEq

/-- Method identities are ordered by model, and by age within a model. -/
instance : Ord MethodId := ⟨fun a b => (compare a.model b.model).then (compare a.seq b.seq)⟩

end Delegation
