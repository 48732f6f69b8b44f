import Delegation.NameMap.Basic
/-!
# Lookup in name maps

`get?` is the view through which every operation is described: one equation each for `insert`,
`erase`, `map`, `insertAll` and `overwrite`. The argument for all of them is one induction on an
ordered list (`lookup_insertInto`, `lookup_filter_ne`). Maps with equal lookups are equal
(`ext_get?`), because two strictly ordered lists with the same members are the same list.
-/

namespace Delegation.NameMap

variable {α β : Type}

/-! ## Lists of pairs -/

/-- The first entry answers for its own name and leaves every other name to the rest. -/
theorem lookup_pair_cons (k j : String) (y : α) (rest : List (String × α)) :
    ((j, y) :: rest).lookup k = if k = j then some y else rest.lookup k := by
  rw [List.lookup_cons]
  by_cases e : k = j
  · simp [e]
  · have : (k == j) = false := by simpa using e
    simp [e, this]

/-- Looking up after an insertion finds the new value under its name, and the old ones elsewhere. -/
theorem lookup_insertInto (k k' : String) (x : α) (l : List (String × α)) :
    (insertInto k x l).lookup k' = if k' = k then some x else l.lookup k' := by
  induction l with
  | nil => simp [insertInto, lookup_pair_cons]
  | cons q rest ih => grind [insertInto, lookup_pair_cons]

/-- Dropping the entries of one name leaves the others where they were. -/
theorem lookup_filter_ne (k k' : String) (l : List (String × α)) :
    (l.filter (fun p => p.1 != k)).lookup k' = if k' = k then none else l.lookup k' := by
  induction l with
  | nil => simp
  | cons q rest ih => grind [lookup_pair_cons]

/-- In an ordered list an entry is found under its name exactly when it is a member. -/
theorem lookup_eq_some_iff {l : List (String × α)} (h : l.Pairwise (fun a b => a.1 < b.1))
    (k : String) (x : α) : l.lookup k = some x ↔ (k, x) ∈ l := by
  induction l with
  | nil => simp
  | cons q rest ih =>
    obtain ⟨j, y⟩ := q
    obtain ⟨hq, hrest⟩ := List.pairwise_cons.1 h
    rw [lookup_pair_cons]
    by_cases e : k = j
    · subst e
      have hnot : (k, x) ∉ rest := fun hm => String.lt_irrefl k (hq _ hm)
      simp [hnot, eq_comm]
    · simp [e, ih hrest]

/-- A name below every name of the list is not found in it. -/
theorem lookup_eq_none_of_lt {l : List (String × α)} {k : String} (h : ∀ p ∈ l, k < p.1) :
    l.lookup k = none := by
  induction l with
  | nil => rfl
  | cons q rest ih =>
    obtain ⟨j, y⟩ := q
    have hkj : k ≠ j := fun e => String.lt_irrefl j (e ▸ h _ List.mem_cons_self)
    simp [lookup_pair_cons, hkj, ih fun p hp => h p (List.mem_cons_of_mem _ hp)]

/-- Two ordered lists with the same members are the same list. -/
theorem eq_of_mem_iff {l₁ l₂ : List (String × α)} (h₁ : l₁.Pairwise (fun a b => a.1 < b.1))
    (h₂ : l₂.Pairwise (fun a b => a.1 < b.1)) (h : ∀ p, p ∈ l₁ ↔ p ∈ l₂) : l₁ = l₂ := by
  induction l₁ generalizing l₂ with
  | nil =>
    cases l₂ with
    | nil => rfl
    | cons q _ => exact absurd ((h q).2 (by simp)) (by simp)
  | cons p rest ih =>
    cases l₂ with
    | nil => exact absurd ((h p).1 (by simp)) (by simp)
    | cons q rest' =>
      obtain ⟨hp, hr⟩ := List.pairwise_cons.1 h₁
      obtain ⟨hq, hr'⟩ := List.pairwise_cons.1 h₂
      have hpq : p = q := by
        rcases List.mem_cons.1 ((h p).1 (by simp)) with e | hm
        · exact e
        · rcases List.mem_cons.1 ((h q).2 (by simp)) with e | hm'
          · exact e.symm
          · exact absurd (hq p hm) (String.lt_asymm (hp q hm'))
      subst hpq
      congr 1
      refine ih hr hr' fun r => ⟨fun hm => ?_, fun hm => ?_⟩
      · rcases List.mem_cons.1 ((h r).1 (List.mem_cons_of_mem _ hm)) with e | hm'
        · exact absurd (hp r hm) (e ▸ String.lt_irrefl _)
        · exact hm'
      · rcases List.mem_cons.1 ((h r).2 (List.mem_cons_of_mem _ hm)) with e | hm'
        · exact absurd (hq r hm) (e ▸ String.lt_irrefl _)
        · exact hm'

/-! ## The view -/

@[simp] theorem get?_empty (k : String) : (∅ : NameMap α).get? k = none := rfl

/-- **Insertion.** The new value stands under its name, and every other name keeps its own. -/
theorem get?_insert (m : NameMap α) (k k' : String) (x : α) :
    (m.insert k x).get? k' = if k' = k then some x else m.get? k' :=
  lookup_insertInto k k' x m.toList

@[simp] theorem get?_insert_self (m : NameMap α) (k : String) (x : α) :
    (m.insert k x).get? k = some x := by simp [get?_insert]

theorem get?_insert_of_ne (m : NameMap α) {k k' : String} (x : α) (h : k' ≠ k) :
    (m.insert k x).get? k' = m.get? k' := by simp [get?_insert, h]

/-- **Removal.** The name is gone, and every other name keeps its value. -/
theorem get?_erase (m : NameMap α) (k k' : String) :
    (m.erase k).get? k' = if k' = k then none else m.get? k' :=
  lookup_filter_ne k k' m.toList

/-- A name has a value exactly when the pair is an entry. -/
theorem get?_eq_some_iff (m : NameMap α) (k : String) (x : α) :
    m.get? k = some x ↔ (k, x) ∈ m.toList :=
  lookup_eq_some_iff m.sorted k x

/-- A map is determined by its entries. -/
theorem ext_toList {m₁ m₂ : NameMap α} (h : m₁.toList = m₂.toList) : m₁ = m₂ := by
  cases m₁; cases m₂; simp_all

/-- **Extensionality.** Maps that answer every lookup alike are equal. -/
theorem ext_get? {m₁ m₂ : NameMap α} (h : ∀ k, m₁.get? k = m₂.get? k) : m₁ = m₂ := by
  refine ext_toList (eq_of_mem_iff m₁.sorted m₂.sorted fun p => ?_)
  rw [← get?_eq_some_iff, ← get?_eq_some_iff, h]

theorem get?_map (f : α → β) (m : NameMap α) (k : String) :
    (m.map f).get? k = (m.get? k).map f := by
  obtain ⟨l, hl⟩ := m
  simp only [get?, map]
  clear hl
  induction l with
  | nil => rfl
  | cons q rest ih =>
    rw [List.map_cons, lookup_pair_cons, lookup_pair_cons, ih]
    split <;> rfl

/-- A name that is given two values keeps the second. -/
theorem insert_insert (m : NameMap α) (k : String) (x y : α) :
    (m.insert k x).insert k y = m.insert k y := by
  apply ext_get?
  intro k'
  rw [get?_insert, get?_insert, get?_insert]
  split <;> rfl

/-! ## Names and sizes -/

theorem map_insert (m : NameMap α) (k : String) (x : α) (f : α → β) :
    (m.insert k x).map f = (m.map f).insert k (f x) := by
  apply ext_get?
  intro k'
  rw [get?_map, get?_insert, get?_insert, get?_map]
  split <;> rfl

theorem map_erase (m : NameMap α) (k : String) (f : α → β) :
    (m.erase k).map f = (m.map f).erase k := by
  apply ext_get?
  intro k'
  rw [get?_map, get?_erase, get?_erase, get?_map]
  split <;> rfl

@[simp] theorem size_map (m : NameMap α) (f : α → β) : (m.map f).size = m.size :=
  List.length_map _

@[simp] theorem keys_map (m : NameMap α) (f : α → β) : (m.map f).keys = m.keys := by
  rw [keys, map, List.map_map]
  rfl

@[simp] theorem contains_map (m : NameMap α) (f : α → β) (k : String) :
    (m.map f).contains k = m.contains k := by
  rw [contains, get?_map, Option.isSome_map, contains]

@[simp] theorem isEmpty_map (m : NameMap α) (f : α → β) : (m.map f).isEmpty = m.isEmpty := by
  rw [isEmpty, map, List.isEmpty_map, isEmpty]

theorem mem_keys_iff (m : NameMap α) (k : String) : k ∈ m.keys ↔ m.contains k = true := by
  simp only [keys, contains, List.mem_map, Option.isSome_iff_exists, get?_eq_some_iff]
  exact ⟨fun ⟨p, hp, e⟩ => ⟨p.2, e ▸ hp⟩, fun ⟨x, hx⟩ => ⟨(k, x), hx, rfl⟩⟩

theorem keys_sorted (m : NameMap α) : m.keys.Pairwise (· < ·) :=
  m.sorted.map _ (fun _ _ h => h)

theorem nodup_keys (m : NameMap α) : m.keys.Nodup := by
  refine List.Pairwise.imp (fun {a b} hlt => ?_) m.keys_sorted
  rintro rfl
  exact String.lt_irrefl a hlt

@[simp] theorem isEmpty_insert (m : NameMap α) (k : String) (x : α) :
    (m.insert k x).isEmpty = false := by
  obtain ⟨l, hl⟩ := m
  cases l with
  | nil => rfl
  | cons q rest =>
    simp only [insert, isEmpty, insertInto]
    split
    · rfl
    · split <;> rfl

/-- A new name makes the list longer by one; an old one leaves its length. -/
theorem length_insertInto {k : String} {x : α} {l : List (String × α)}
    (h : l.Pairwise (fun a b => a.1 < b.1)) :
    (insertInto k x l).length = if (l.lookup k).isSome then l.length else l.length + 1 := by
  induction l with
  | nil => simp [insertInto]
  | cons q rest ih =>
    obtain ⟨j, y⟩ := q
    obtain ⟨hj, hrest⟩ := List.pairwise_cons.1 h
    have ih := ih hrest
    rw [insertInto, lookup_pair_cons]
    split
    next hlt =>
      have hkj : k ≠ j := fun e => String.lt_irrefl j (e ▸ hlt)
      have hnone : List.lookup k rest = none :=
        lookup_eq_none_of_lt fun p hp => String.lt_trans hlt (hj p hp)
      simp [hkj, hnone]
    next =>
      split
      next => simp
      next =>
        simp only [List.length_cons, ih]
        split <;> rfl

/-- A new name makes the map larger by one; an old one leaves its size. -/
theorem size_insert (m : NameMap α) (k : String) (x : α) :
    (m.insert k x).size = if m.contains k then m.size else m.size + 1 :=
  length_insertInto m.sorted

theorem isEmpty_iff (m : NameMap α) : m.isEmpty = true ↔ m = ∅ := by
  obtain ⟨l, hl⟩ := m
  cases l with
  | nil => simp [isEmpty, EmptyCollection.emptyCollection, empty]
  | cons q rest => simp [isEmpty, EmptyCollection.emptyCollection, empty]

/-! ## Many insertions -/

@[simp] theorem insertAll_nil (m : NameMap α) : m.insertAll [] = m := rfl

@[simp] theorem insertAll_cons (m : NameMap α) (p : String × α) (ps : List (String × α)) :
    m.insertAll (p :: ps) = (m.insert p.1 p.2).insertAll ps := rfl

theorem insertAll_append (m : NameMap α) (ps qs : List (String × α)) :
    m.insertAll (ps ++ qs) = (m.insertAll ps).insertAll qs := by
  simp [insertAll, List.foldl_append]

theorem isEmpty_insertAll (m : NameMap α) (ps : List (String × α)) :
    (m.insertAll ps).isEmpty = (m.isEmpty && ps.isEmpty) := by
  induction ps generalizing m with
  | nil => simp
  | cons p ps ih => simp [ih]

/-- Each pair adds one name at most. -/
theorem size_insertAll_le (m : NameMap α) (ps : List (String × α)) :
    (m.insertAll ps).size ≤ m.size + ps.length := by
  induction ps generalizing m with
  | nil => simp
  | cons p ps ih =>
    have hfirst : (m.insert p.1 p.2).size ≤ m.size + 1 := by
      rw [size_insert]
      split <;> omega
    have hrest := ih (m.insert p.1 p.2)
    rw [insertAll_cons, List.length_cons]
    omega

/-- Pairs of different names add those names that were not there. -/
theorem size_insertAll (m : NameMap α) {ps : List (String × α)} (h : (ps.map (·.1)).Nodup) :
    (m.insertAll ps).size = m.size + (ps.map (·.1)).countP fun k => !m.contains k := by
  induction ps generalizing m with
  | nil => rfl
  | cons p ps ih =>
    obtain ⟨hp, hps⟩ := List.nodup_cons.1 h
    -- the names that follow are other names, so what was there is the same for them
    have hsame : ∀ k ∈ ps.map (·.1), (!(m.insert p.1 p.2).contains k) = !m.contains k := by
      intro k hk
      have hne : k ≠ p.1 := by
        rintro rfl
        exact hp hk
      rw [contains, get?_insert_of_ne m p.2 hne, contains]
    have hcount : (ps.map (·.1)).countP (fun k => !(m.insert p.1 p.2).contains k) =
        (ps.map (·.1)).countP fun k => !m.contains k :=
      List.countP_congr fun k hk => by rw [hsame k hk]
    rw [insertAll_cons, ih _ hps, hcount, size_insert, List.map_cons, List.countP_cons]
    cases m.contains p.1 with
    | true => simp
    | false => simp only [Bool.not_false, if_true, Bool.false_eq_true, if_false]; omega

theorem map_insertAll (m : NameMap α) (ps : List (String × α)) (f : α → β) :
    (m.insertAll ps).map f = (m.map f).insertAll (ps.map fun p => (p.1, f p.2)) := by
  induction ps generalizing m with
  | nil => rfl
  | cons p ps ih => rw [insertAll_cons, ih, map_insert, List.map_cons, insertAll_cons]

/-- Entering what a function gives for many names. -/
theorem get?_insertAll_map (m : NameMap α) (f : String → α) (names : List String) (k : String) :
    (m.insertAll (names.map fun name => (name, f name))).get? k =
      if k ∈ names then some (f k) else m.get? k := by
  induction names generalizing m with
  | nil => simp
  | cons name names ih =>
    rw [List.map_cons, insertAll_cons, ih, get?_insert]
    by_cases hk : k ∈ names
    · simp [hk]
    · by_cases e : k = name <;> simp [hk, e]

/-- Of many insertions the last one under a name counts. -/
theorem get?_insertAll (m : NameMap α) (ps : List (String × α)) (k : String) :
    (m.insertAll ps).get? k = (ps.reverse.lookup k).or (m.get? k) := by
  induction ps generalizing m with
  | nil => simp
  | cons p ps ih =>
    rw [insertAll_cons, ih, List.reverse_cons, List.lookup_append, lookup_pair_cons, get?_insert]
    cases List.lookup k ps.reverse <;> by_cases e : k = p.1 <;> simp [e]

/-- Entering the entries of an ordered list: its own names show its values. -/
theorem get?_insertAll_of_sorted (m : NameMap α) {ps : List (String × α)}
    (h : ps.Pairwise (fun a b => a.1 < b.1)) (k : String) :
    (m.insertAll ps).get? k = (ps.lookup k).or (m.get? k) := by
  induction ps generalizing m with
  | nil => simp
  | cons p ps ih =>
    obtain ⟨j, y⟩ := p
    obtain ⟨hj, hps⟩ := List.pairwise_cons.1 h
    rw [insertAll_cons, ih _ hps, get?_insert]
    rw [lookup_pair_cons]
    by_cases e : k = j
    · subst e
      simp [lookup_eq_none_of_lt hj]
    · simp [e]

/-- **Overwriting.** A name of `top` shows `top`'s value, any other name `base`'s. -/
theorem get?_overwrite (base top : NameMap α) (k : String) :
    (base.overwrite top).get? k = (top.get? k).or (base.get? k) :=
  get?_insertAll_of_sorted base top.sorted k

/-- A map is rebuilt from its entries. -/
theorem ofList_toList (m : NameMap α) : ofList m.toList = m :=
  ext_get? fun k => by
    rw [ofList, get?_insertAll_of_sorted _ m.sorted, get?_empty, Option.or_none, get?]

end Delegation.NameMap
