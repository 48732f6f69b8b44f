/-!
# Name maps

Properties, method tables and the bindings of tags are all finite maps from names. A map is shown
in one order only, ascending by code point, so it is kept in that order: a list of pairs whose
names strictly increase. Two maps that answer every question alike are then equal
(`NameMap.ext_get?`), and equality of whole states is plain equality.

`NameMap.insertInto` does the one-pass insertion on lists; that it keeps the order
(`sorted_insertInto`) is what lets the type carry the order as a field.
-/

namespace Delegation

/-! ## Insertion into an ordered list -/

/-- Puts `k ↦ x` at its place in a list ordered by name, replacing an entry of that name. -/
def NameMap.insertInto {α : Type} (k : String) (x : α) : List (String × α) → List (String × α)
  | [] => [(k, x)]
  | (k', x') :: rest =>
    if k < k' then (k, x) :: (k', x') :: rest
    else if k = k' then (k, x) :: rest
    else (k', x') :: NameMap.insertInto k x rest

/-- **Names of an insertion.** The inserted name, and those that were there. -/
theorem NameMap.mem_insertInto {α : Type} {k : String} {x : α} {p : String × α}
    {l : List (String × α)} (h : p ∈ NameMap.insertInto k x l) : p = (k, x) ∨ p ∈ l := by
  induction l with
  | nil => simpa [insertInto] using h
  | cons q rest ih =>
    obtain ⟨k', x'⟩ := q
    rw [insertInto] at h
    split at h
    · simpa using h
    · split at h <;> grind

/-- The order of a list with strictly increasing names survives an insertion. -/
theorem NameMap.sorted_insertInto {α : Type} (k : String) (x : α) {l : List (String × α)}
    (h : l.Pairwise (fun a b => a.1 < b.1)) :
    (NameMap.insertInto k x l).Pairwise (fun a b => a.1 < b.1) := by
  induction l with
  | nil => simp [insertInto]
  | cons q rest ih =>
    obtain ⟨k', x'⟩ := q
    obtain ⟨hq, hrest⟩ := List.pairwise_cons.1 h
    rw [insertInto]
    split
    next hlt =>
      refine List.pairwise_cons.2 ⟨fun p hp => ?_, h⟩
      rcases List.mem_cons.1 hp with rfl | hp
      · exact hlt
      · exact String.lt_trans hlt (hq p hp)
    next hnlt =>
      split
      next heq => subst heq; exact List.pairwise_cons.2 ⟨fun p hp => hq p hp, hrest⟩
      next hne =>
        refine List.pairwise_cons.2 ⟨fun p hp => ?_, ih hrest⟩
        rcases mem_insertInto hp with rfl | hp
        · exact Std.lt_of_le_of_ne (Std.not_lt.1 hnlt) (Ne.symm hne)
        · exact hq p hp

/-! ## The type -/

/-- A finite map from names, listed in ascending order of the names. -/
structure NameMap (α : Type) where
  /-- The entries, in ascending order of their names. -/
  toList : List (String × α)
  /-- Names strictly increase, so no name occurs twice. -/
  sorted : toList.Pairwise (fun a b => a.1 < b.1)

namespace NameMap

variable {α β : Type}

/-- The map without entries. -/
def empty : NameMap α := ⟨[], .nil⟩

instance : EmptyCollection (NameMap α) := ⟨empty⟩
instance : Inhabited (NameMap α) := ⟨empty⟩

instance [DecidableEq α] : DecidableEq (NameMap α) := fun a b =>
  decidable_of_iff (a.toList = b.toList) ⟨fun h => by cases a; cases b; simp_all, fun h => h ▸ rfl⟩

/-- The value under a name. -/
def get? (m : NameMap α) (k : String) : Option α := m.toList.lookup k

/-- Whether a name has a value. -/
def contains (m : NameMap α) (k : String) : Bool := (m.get? k).isSome

/-- Gives a name a value, in place of the one it had. -/
def insert (m : NameMap α) (k : String) (x : α) : NameMap α :=
  ⟨insertInto k x m.toList, sorted_insertInto k x m.sorted⟩

/-- Takes a name away. -/
def erase (m : NameMap α) (k : String) : NameMap α :=
  ⟨m.toList.filter (fun p => p.1 != k), m.sorted.filter _⟩

/-- The number of names. -/
def size (m : NameMap α) : Nat := m.toList.length

/-- Whether there is no name at all. -/
def isEmpty (m : NameMap α) : Bool := m.toList.isEmpty

/-- The names, ascending. -/
def keys (m : NameMap α) : List String := m.toList.map (·.1)

/-- The values, in ascending order of their names. -/
def values (m : NameMap α) : List α := m.toList.map (·.2)

/-- Applies a function to every value. -/
def map (f : α → β) (m : NameMap α) : NameMap β :=
  ⟨m.toList.map (fun p => (p.1, f p.2)), m.sorted.map _ (fun _ _ h => h)⟩

/-- Enters pairs one after another, so that of two with one name the later counts. -/
def insertAll (m : NameMap α) (ps : List (String × α)) : NameMap α :=
  ps.foldl (fun m p => m.insert p.1 p.2) m

/-- The map of a list of pairs; of two with one name the later counts. -/
def ofList (ps : List (String × α)) : NameMap α := insertAll ∅ ps

/-- `base` with every entry of `top` written over it. -/
def overwrite (base top : NameMap α) : NameMap α := base.insertAll top.toList

end NameMap

end Delegation
