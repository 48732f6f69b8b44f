import Delegation.Proofs.IssuedHandles

/-!
# The order of handles

A record's handle packs a place and the number of a model into one word, and handles are compared
as words. As a number the word counts models in units of half words and places within such a unit
(`toNat_packed`), so nothing is lost, and comparing two words compares the models first and the
places only within one model (`compare_eq_then`).

In a program, models are numbered as they are made and records are stored as they are allocated. So
sorting handles sorts records by the age of their models, and by their own age within a model.
-/

namespace Delegation

/-! ## Comparing words -/

/-- Words are compared as the numbers they are. -/
theorem compare_word (a b : UInt64) : compare a b = compare a.toNat b.toNat := by
  show compareOfLessAndEq a b = compareOfLessAndEq a.toNat b.toNat
  simp only [compareOfLessAndEq, UInt64.lt_iff_toNat_lt, UInt64.toNat_inj]

theorem compare_halfWord (a b : UInt32) : compare a b = compare a.toNat b.toNat := by
  show compareOfLessAndEq a b = compareOfLessAndEq a.toNat b.toNat
  simp only [compareOfLessAndEq, UInt32.lt_iff_toNat_lt, UInt32.toNat_inj]

/-- Two counts of units with a remainder each are compared by the units first. -/
theorem compare_units {unit i j : Nat} (hi : i < unit) (hj : j < unit) (m n : Nat) :
    compare (unit * m + i) (unit * n + j) = (compare m n).then (compare i j) := by
  rcases Nat.lt_trichotomy m n with hlt | rfl | hgt
  · -- the remainder stays within the unit by which the second count is ahead
    have hunit : unit * (m + 1) ≤ unit * n := Nat.mul_le_mul_left unit hlt
    have hcount : unit * m + i < unit * n + j := by
      rw [Nat.mul_succ] at hunit
      omega
    rw [Nat.compare_eq_lt.2 hcount, Nat.compare_eq_lt.2 hlt, Ordering.lt_then]
  · rw [Nat.compare_eq_eq.2 rfl, Ordering.eq_then]
    simp only [compare, compareOfLessAndEq, Nat.add_lt_add_iff_left, Nat.add_left_cancel_iff]
  · have hunit : unit * (n + 1) ≤ unit * m := Nat.mul_le_mul_left unit hgt
    have hcount : unit * n + j < unit * m + i := by
      rw [Nat.mul_succ] at hunit
      omega
    rw [Nat.compare_eq_gt.2 hcount, Nat.compare_eq_gt.2 hgt, Ordering.gt_then]

namespace RecordId

/-! ## The parts of a handle -/

/-- The word of any handle, by its parts. -/
theorem toNat_packed (r : RecordId) :
    r.packed.toNat = 4294967296 * r.model.toNat + r.index.toNat := by
  rw [toNat_model, toNat_index, Nat.div_add_mod]

theorem ofParts_parts (r : RecordId) : ofParts r.index r.model = r :=
  eq_of_parts (index_ofParts r.index r.model) (model_ofParts r.index r.model)

/-- **Lexicographic order.** The model decides, and within one model the place. -/
theorem compare_eq_then (r s : RecordId) :
    compare r s = (compare r.model s.model).then (compare r.index s.index) := by
  show compare r.packed s.packed = _
  rw [compare_word, compare_halfWord, compare_halfWord, toNat_packed, toNat_packed]
  exact compare_units r.index.toNat_lt s.index.toNat_lt r.model.toNat s.model.toNat

end RecordId

/-! ## The age of a record -/

namespace Program

variable {β : Type}

/-- A model's number, as far as a half word can number models, is its place among the models. -/
theorem compare_number {j k : Nat} (hj : j < UInt32.size) (hk : k < UInt32.size) :
    compare (UInt32.ofNat j) (UInt32.ofNat k) = compare j k := by
  rw [compare_halfWord, UInt32.toNat_ofNat_of_lt' hj, UInt32.toNat_ofNat_of_lt' hk]

/-- Of two records of a program's models, the one of the older model has the lesser handle, and of
two of one model the one that was stored first. -/
theorem compare_id {past : List (Deed β)} (hsize : (start.after past).models.size ≤ UInt32.size)
    {j k : Nat} {m n : Model β} (hm : (start.after past).models[j]? = some m)
    (hn : (start.after past).models[k]? = some n) {a b : Nat} {r s : Record β}
    (hr : m.records[a]? = some r) (hs : n.records[b]? = some s) :
    compare r.id s.id = (compare j k).then (compare a b) := by
  have hj := (Array.getElem?_eq_some_iff.1 hm).1
  have hk := (Array.getElem?_eq_some_iff.1 hn).1
  obtain ⟨hmreach, hmnonce⟩ := reachable_of_models hm
  obtain ⟨hnreach, hnnonce⟩ := reachable_of_models hn
  obtain ⟨hrindex, hrmodel⟩ := hmreach.sound.handles a r hr
  obtain ⟨hsindex, hsmodel⟩ := hnreach.sound.handles b s hs
  rw [RecordId.compare_eq_then, hrmodel, hsmodel, hmnonce, hnnonce,
    compare_number (by omega) (by omega), compare_halfWord, hrindex, hsindex]

/-- **Packing.** A place and a model are read back from the handle that packs them, every word is the
handle of its own two parts, and handles are equal exactly if both parts are. Handles are ordered by
the model first and by the place second, and so, in every program of no more models than a half word
can number, by the order in which the models were made first, and by the order in which the records
of a model were stored second. -/
theorem packing_keeps_parts_and_order :
    (∀ index model : UInt32, (RecordId.ofParts index model).index = index ∧
      (RecordId.ofParts index model).model = model) ∧
    (∀ word : UInt64, RecordId.ofParts (RecordId.mk word).index (RecordId.mk word).model =
      RecordId.mk word) ∧
    (∀ r s : RecordId, r = s ↔ r.index = s.index ∧ r.model = s.model) ∧
    (∀ r s : RecordId, compare r s = compare r.packed s.packed ∧
      compare r s = (compare r.model s.model).then (compare r.index s.index)) ∧
    ∀ past : List (Deed β), (start.after past).models.size ≤ UInt32.size →
      ∀ (j k : Nat) (m n : Model β), (start.after past).models[j]? = some m →
        (start.after past).models[k]? = some n →
        ∀ (a b : Nat) (r s : Record β), m.records[a]? = some r → n.records[b]? = some s →
          compare r.id s.id = (compare j k).then (compare a b) := by
  refine ⟨fun index model => ⟨RecordId.index_ofParts index model, RecordId.model_ofParts index model⟩,
    fun word => RecordId.ofParts_parts ⟨word⟩, fun r s => ⟨?_, ?_⟩,
    fun r s => ⟨rfl, RecordId.compare_eq_then r s⟩, ?_⟩
  · rintro rfl
    exact ⟨rfl, rfl⟩
  · rintro ⟨hindex, hmodel⟩
    exact RecordId.eq_of_parts hindex hmodel
  · intro past hsize j k m n hm hn a b r s hr hs
    exact compare_id hsize hm hn hr hs

/-- A past in which the first model stores its second record after the second model stored its
first. -/
def overtaken : List (Deed Unit) := [
  .act 0 (.operate (.replacePrototypeSlots "T" ∅)),
  .act 1 (.operate (.createRecord "T")),
  .act 0 (.operate (.createRecord "T")),
  .found {},
  .found {}]

/-- The record at the higher place, though it was stored last, has the lesser handle, for its model
is the older one. -/
theorem packing_keeps_parts_and_order_overtaken :
    ∃ m n r s, (start.after overtaken).models.size ≤ UInt32.size ∧
      (start.after overtaken).models[0]? = some m ∧ (start.after overtaken).models[1]? = some n ∧
      m.records[1]? = some r ∧ n.records[0]? = some s ∧ compare r.id s.id = .lt := by
  have hsize : (start.after overtaken).models.size ≤ UInt32.size := by decide
  obtain ⟨-, -, -, -, hage⟩ := packing_keeps_parts_and_order (β := Unit)
  exact ⟨_, _, _, _, hsize, rfl, rfl, rfl, rfl,
    hage overtaken hsize 0 1 _ _ rfl rfl 1 0 _ _ rfl rfl⟩

end Program

end Delegation
