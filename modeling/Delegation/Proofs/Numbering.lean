import Delegation.Proofs.Population

/-!
# Numbered methods

A table of methods is allocated in the order of its names, so what its bodies become is known
beforehand: the method of a name has the number that comes as many places after the first one as
the name has names before it (`get?_numbered`). Tables that were numbered from different starts, far
enough apart, have no method in common.
-/

namespace Delegation

variable {β : Type}

/-- The entries of a list of bodies as methods of one model, numbered in order. -/
def numberedEntries (model : UInt32) (start : Nat) (bodies : List (String × β)) :
    List (String × Value (Method β)) :=
  (bodies.zipIdx start).map fun p => (p.1.1, .method { id := ⟨model, p.2⟩, name := p.1.1, body := p.1.2 })

theorem numberedEntries_cons (model : UInt32) (start : Nat) (name : String) (body : β)
    (rest : List (String × β)) :
    numberedEntries model start ((name, body) :: rest) =
      (name, .method { id := ⟨model, start⟩, name, body }) ::
        numberedEntries model (start + 1) rest := rfl

/-- Allocating bodies numbers them from the model's count. -/
theorem nextMethods_eq_numberedEntries (m : Model β) (bodies : List (String × β)) :
    m.nextMethods bodies = numberedEntries m.nonce m.methodCount bodies := by
  induction bodies generalizing m with
  | nil => rfl
  | cons p rest ih =>
    obtain ⟨name, body⟩ := p
    rw [Model.nextMethods, ih, numberedEntries_cons]
    rfl

theorem map_fst_numberedEntries (model : UInt32) (start : Nat) (bodies : List (String × β)) :
    (numberedEntries model start bodies).map (·.1) = bodies.map (·.1) := by
  induction bodies generalizing start with
  | nil => rfl
  | cons p rest ih =>
    obtain ⟨name, body⟩ := p
    rw [numberedEntries_cons, List.map_cons, List.map_cons, ih]

theorem lookup_numberedEntries (model : UInt32) (start : Nat) (bodies : List (String × β))
    (name : String) :
    (numberedEntries model start bodies).lookup name =
      (bodies.lookup name).map fun body =>
        .method { id := ⟨model, start + (bodies.map (·.1)).idxOf name⟩, name, body } := by
  induction bodies generalizing start with
  | nil => rfl
  | cons p rest ih =>
    obtain ⟨name', body'⟩ := p
    rw [numberedEntries_cons, NameMap.lookup_pair_cons, NameMap.lookup_pair_cons, List.map_cons]
    by_cases e : name = name'
    · subst e
      simp
    · have hne : (name' == name) = false := by simpa using Ne.symm e
      rw [if_neg e, if_neg e, ih, List.idxOf_cons, hne, cond_false]
      simp only [Nat.add_assoc, Nat.add_comm 1]

namespace MethodTable

/-- The methods of a table, numbered from `start` in ascending order of their names. -/
def numbered (table : MethodTable β) (model : UInt32) (start : Nat) : PropertyMap β where
  toList := numberedEntries model start table.toList
  sorted := by
    have h : ((numberedEntries model start table.toList).map (·.1)).Pairwise (· < ·) := by
      rw [map_fst_numberedEntries]
      exact table.keys_sorted
    exact List.pairwise_map.1 h

/-- **Numbers.** The method of a name follows the methods of the names before it. -/
theorem get?_numbered (table : MethodTable β) (model : UInt32) (start : Nat) (name : String) :
    (table.numbered model start).get? name =
      (table.get? name).map fun body =>
        .method { id := ⟨model, start + table.keys.idxOf name⟩, name, body } :=
  lookup_numberedEntries model start table.toList name

theorem isEmpty_numbered (table : MethodTable β) (model : UInt32) (start : Nat) :
    (table.numbered model start).isEmpty = table.isEmpty := by
  show (numberedEntries model start table.toList).isEmpty = table.toList.isEmpty
  cases table.toList <;> rfl

/-- A name of a table has fewer names before it than there are names. -/
theorem idxOf_keys_lt {table : MethodTable β} {name : String} (h : table.contains name = true) :
    table.keys.idxOf name < table.size := by
  have hmem := List.idxOf_lt_length_of_mem ((table.mem_keys_iff name).2 h)
  rwa [NameMap.keys, List.length_map] at hmem

end MethodTable

/-! ## Places of names -/

/-- A name of an ordered list stands behind as many names as are less than it. -/
theorem idxOf_eq_countP {names : List String} (h : names.Pairwise (· < ·)) {name : String}
    (hmem : name ∈ names) : names.idxOf name = names.countP (· < name) := by
  induction names with
  | nil => cases hmem
  | cons first rest ih =>
    obtain ⟨hfirst, hrest⟩ := List.pairwise_cons.1 h
    rw [List.idxOf_cons, List.countP_cons]
    by_cases e : first = name
    · -- nothing is less than the first name
      subst e
      have hnone : rest.countP (· < first) = 0 := by
        rw [List.countP_eq_zero]
        intro other hother
        simpa using String.lt_asymm (hfirst other hother)
      simp only [beq_self_eq_true, cond_true, hnone, String.lt_irrefl, decide_false,
        Bool.false_eq_true, if_false]
    · have hin : name ∈ rest := (List.mem_cons.1 hmem).resolve_left (Ne.symm e)
      have hlt : first < name := hfirst name hin
      have hne : (first == name) = false := by simpa using e
      simp [hne, hlt, ih hrest hin]

/-- How many names of the map come before a name. -/
def NameMap.rank {α : Type} (m : NameMap α) (name : String) : Nat := m.keys.countP (· < name)

theorem NameMap.idxOf_keys {α : Type} {m : NameMap α} {name : String}
    (h : m.contains name = true) : m.keys.idxOf name = m.rank name :=
  idxOf_eq_countP m.keys_sorted ((m.mem_keys_iff name).2 h)

/-! ## Methods of a model -/

/-- The method that a name's body becomes when the table is allocated next: it bears the name, and
its number follows those of the names before it. -/
def Model.freshMethod (m : Model β) (table : MethodTable β) (name : String) :
    Option (Value (Method β)) :=
  (table.get? name).map fun body =>
    .method { id := ⟨m.nonce, m.methodCount + table.rank name⟩, name, body }

theorem Model.get?_numbered_eq_freshMethod (m : Model β) (table : MethodTable β) (name : String) :
    (table.numbered m.nonce m.methodCount).get? name = m.freshMethod table name := by
  rw [MethodTable.get?_numbered, Model.freshMethod]
  cases hbody : table.get? name with
  | none => rfl
  | some body =>
    have hin : table.contains name = true := by simp [NameMap.contains, hbody]
    rw [NameMap.idxOf_keys hin]

/-- Methods that are allocated together are numbered from the model's count. -/
theorem Model.ofList_nextMethods (m : Model β) (table : MethodTable β) :
    NameMap.ofList (m.nextMethods table.toList) = table.numbered m.nonce m.methodCount := by
  rw [nextMethods_eq_numberedEntries]
  exact NameMap.ofList_toList (table.numbered m.nonce m.methodCount)

/-- Looking a name up among methods that are allocated together. -/
theorem Model.methodOf_eq_freshMethod (m : Model β) (table : MethodTable β) (name : String) :
    m.methodOf table name = m.freshMethod table name := by
  rw [← get?_ofList_nextMethods, ofList_nextMethods, get?_numbered_eq_freshMethod]

end Delegation
