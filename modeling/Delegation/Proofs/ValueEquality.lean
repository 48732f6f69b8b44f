import Mathlib.Data.List.Forall2
import Delegation.Proofs.Snapshots

/-!
# Equality of values

Programs compare values by content, except that methods are compared by identity and that a word which
is not a number agrees with nothing. So equality is symmetric and transitive, but a value need not be
equal to itself.

`Value.Pointwise R` lays two values side by side: arrays must have the same shape, and where there is
no array the relation `R` decides. The laws of `R` become laws of `Pointwise R`, by one induction
each. Equality is the case in which the relation is `Agree` (`seenEqual_iff`). What it overlooks is told
by another case: values are `Twin`s place by place if they differ in nothing but the signs of zeros and
what is around the identity of a method, and twins are equal unless they hold a word which is not a
number (`pointwise_agree_iff`).
-/

namespace Delegation

/-- Numbers agree if they are the same or both are zeros, and neither is a word which is not a
number. -/
theorem Number.equals_iff {x y : Number} :
    x.equals y = true ↔ (x = y ∨ x.isZero = true ∧ y.isZero = true) ∧ x.isNaN = false := by
  have hzero : y.isZero = true → y.isNaN = false := by
    simp only [isZero, isNaN, beq_iff_eq, decide_eq_false_iff_not]
    omega
  simp only [equals, Bool.and_eq_true, Bool.or_eq_true, beq_iff_eq, Bool.not_eq_true']
  constructor
  · rintro ⟨⟨hx, -⟩, h⟩
    exact ⟨h, hx⟩
  · rintro ⟨rfl | ⟨hx, hy⟩, hnumber⟩
    · exact ⟨⟨hnumber, hnumber⟩, .inl rfl⟩
    · exact ⟨⟨hnumber, hzero hy⟩, .inr ⟨hx, hy⟩⟩

namespace Value

/-! ## Values side by side -/

section Pointwise

variable {μ ν ξ : Type}

/-- Arrays of the same shape, and related values wherever there is no array. -/
inductive Pointwise (R : Value μ → Value ν → Prop) : Value μ → Value ν → Prop where
  | leaf {v : Value μ} {w : Value ν} (hv : v.asArray = none) (hw : w.asArray = none) (h : R v w) :
      Pointwise R v w
  | array {vs : List (Value μ)} {ws : List (Value ν)} (h : List.Forall₂ (Pointwise R) vs ws) :
      Pointwise R (.array vs) (.array ws)

variable {R : Value μ → Value ν → Prop}

theorem pointwise_leaf_iff {v : Value μ} {w : Value ν} (hv : v.asArray = none) :
    Pointwise R v w ↔ w.asArray = none ∧ R v w := by
  constructor
  · intro h
    cases h with
    | leaf _ hw h => exact ⟨hw, h⟩
    | array => cases hv
  · rintro ⟨hw, h⟩
    exact .leaf hv hw h

/-- An array is laid beside arrays only. -/
theorem pointwise_array_iff {vs : List (Value μ)} {w : Value ν} :
    Pointwise R (.array vs) w ↔ ∃ ws, w = .array ws ∧ List.Forall₂ (Pointwise R) vs ws := by
  constructor
  · intro h
    cases h with
    | leaf hv => cases hv
    | array h => exact ⟨_, rfl, h⟩
  · rintro ⟨ws, rfl, h⟩
    exact .array h

/-- Induction on values in which all that are no array are one case. -/
theorem induct_leaf {motive : Value μ → Prop} (leaf : ∀ v : Value μ, v.asArray = none → motive v)
    (array : ∀ items, (∀ v ∈ items, motive v) → motive (.array items)) (v : Value μ) : motive v := by
  induction v using Value.induct with
  | array items ih => exact array items ih
  | _ => exact leaf _ rfl

theorem pointwise_refl {R : Value μ → Value μ → Prop} (hR : ∀ v, R v v) (v : Value μ) :
    Pointwise R v v := by
  induction v using induct_leaf with
  | leaf v hv => exact .leaf hv hv (hR v)
  | array items ih => exact .array (List.forall₂_same.2 ih)

theorem Pointwise.symm {S : Value ν → Value μ → Prop} {v : Value μ} {w : Value ν}
    (h : Pointwise R v w) (hRS : ∀ v w, R v w → S w v) : Pointwise S w v := by
  induction v using induct_leaf generalizing w with
  | leaf v hv =>
    obtain ⟨hw, hvw⟩ := (pointwise_leaf_iff hv).1 h
    exact .leaf hw hv (hRS v w hvw)
  | array vs ih =>
    obtain ⟨ws, rfl, hitems⟩ := pointwise_array_iff.1 h
    have hboth := (List.forall₂_and_left vs ws).2 ⟨ih, hitems⟩
    exact .array (hboth.imp fun v w hvw => hvw.1 hvw.2).flip

theorem forall₂_congr {α α' : Type} {R S : α → α' → Prop} {vs : List α} {ws : List α'}
    (h : ∀ v ∈ vs, ∀ w, R v w ↔ S v w) : List.Forall₂ R vs ws ↔ List.Forall₂ S vs ws := by
  constructor
  · intro hitems
    have hboth := (List.forall₂_and_left vs ws).2 ⟨h, hitems⟩
    exact hboth.imp fun v w hvw => (hvw.1 w).1 hvw.2
  · intro hitems
    have hboth := (List.forall₂_and_left vs ws).2 ⟨h, hitems⟩
    exact hboth.imp fun v w hvw => (hvw.1 w).2 hvw.2

theorem forall₂_iff_getElem? {α α' : Type} {R : α → α' → Prop} {vs : List α} {ws : List α'} :
    List.Forall₂ R vs ws ↔ vs.length = ws.length ∧
      ∀ (k : Nat) (v : α) (w : α'), vs[k]? = some v → ws[k]? = some w → R v w := by
  rw [List.forall₂_iff_get]
  refine and_congr_right fun hlength => ⟨fun h k v w hv hw => ?_, fun h k hv hw => ?_⟩
  · obtain ⟨hk, rfl⟩ := List.getElem?_eq_some_iff.1 hv
    obtain ⟨hk', rfl⟩ := List.getElem?_eq_some_iff.1 hw
    exact h k hk hk'
  · exact h k _ _ (List.getElem?_eq_getElem hv) (List.getElem?_eq_getElem hw)

/-- Lists that are related item by item over a third one. -/
theorem forall₂_trans {α α' α'' : Type} {R : α → α' → Prop} {S : α' → α'' → Prop}
    {T : α → α'' → Prop} {us : List α} {vs : List α'} {ws : List α''} (huv : List.Forall₂ R us vs)
    (hvw : List.Forall₂ S vs ws) (hRST : ∀ u ∈ us, ∀ v w, R u v → S v w → T u w) :
    List.Forall₂ T us ws := by
  induction huv generalizing ws with
  | nil => cases hvw; exact .nil
  | cons huv _ ih =>
    cases hvw with
    | cons hvw hrest =>
      refine .cons (hRST _ List.mem_cons_self _ _ huv hvw) (ih hrest fun u hu => ?_)
      exact hRST u (List.mem_cons_of_mem _ hu)

theorem Pointwise.trans {S : Value ν → Value ξ → Prop} {T : Value μ → Value ξ → Prop} {u : Value μ}
    {v : Value ν} {w : Value ξ} (huv : Pointwise R u v) (hvw : Pointwise S v w)
    (hRST : ∀ u v w, R u v → S v w → T u w) : Pointwise T u w := by
  induction u using induct_leaf generalizing v w with
  | leaf u hu =>
    obtain ⟨hv, hfirst⟩ := (pointwise_leaf_iff hu).1 huv
    obtain ⟨hw, hsecond⟩ := (pointwise_leaf_iff hv).1 hvw
    exact .leaf hu hw (hRST u v w hfirst hsecond)
  | array us ih =>
    obtain ⟨vs, rfl, hfirst⟩ := pointwise_array_iff.1 huv
    obtain ⟨ws, rfl, hsecond⟩ := pointwise_array_iff.1 hvw
    exact .array (forall₂_trans hfirst hsecond fun u hu v w => ih u hu)

end Pointwise

/-! ## Numbers in values -/

/-- The numbers in a value, at whatever depth. -/
inductive HoldsNumber {μ : Type} : Value μ → Number → Prop where
  | number (x : Number) : HoldsNumber (.number x) x
  | item {items : List (Value μ)} {v : Value μ} {x : Number} (hv : v ∈ items)
      (h : HoldsNumber v x) : HoldsNumber (.array items) x

/-- No number at any depth is a word which is not a number. -/
def Numeric {μ : Type} (v : Value μ) : Prop := ∀ x, v.HoldsNumber x → x.isNaN = false

theorem numeric_array_iff {μ : Type} {items : List (Value μ)} :
    (array items).Numeric ↔ ∀ v ∈ items, v.Numeric := by
  constructor
  · intro h v hv x hx
    exact h x (.item hv hx)
  · intro h x hx
    cases hx with
    | item hv hx => exact h _ hv x hx

theorem numeric_number_iff {μ : Type} {x : Number} :
    (number x : Value μ).Numeric ↔ x.isNaN = false := by
  constructor
  · intro h
    exact h x (.number x)
  · intro h y hy
    cases hy
    exact h

/-- Of the values that are no array only numbers hold one. -/
theorem numeric_of_leaf {μ : Type} {v : Value μ} (hv : v.asArray = none) (hx : ∀ x, v ≠ .number x) :
    v.Numeric := by
  intro x h
  cases h with
  | number => exact absurd rfl (hx x)
  | item => cases hv

/-! ## What equality compares -/

variable {β : Type}

/-- Values without an array that programs take for equal. -/
inductive Agree : Value (Method β) → Value (Method β) → Prop where
  | undefined : Agree .undefined .undefined
  | null : Agree .null .null
  | bool (b : Bool) : Agree (.bool b) (.bool b)
  | number {x y : Number} (h : x.equals y = true) : Agree (.number x) (.number y)
  | string (s : String) : Agree (.string s) (.string s)
  | method {f g : Method β} (h : f.id = g.id) : Agree (.method f) (.method g)

theorem Agree.symm {v w : Value (Method β)} (h : Agree v w) : Agree w v := by
  cases h with
  | number h => exact .number (Number.equals_comm _ _ ▸ h)
  | method h => exact .method h.symm
  | _ => constructor

theorem Agree.trans {u v w : Value (Method β)} (huv : Agree u v) (hvw : Agree v w) : Agree u w := by
  cases huv with
  | number h => cases hvw with | number h' => exact .number (Number.equals_trans h h')
  | method h => cases hvw with | method h' => exact .method (h.trans h')
  | _ => exact hvw

theorem equalsAll_iff {same : Method β → Method β → Bool} {vs ws : List (Value (Method β))} :
    equalsAll same vs ws = true ↔ List.Forall₂ (fun v w => v.equals same w = true) vs ws := by
  induction vs generalizing ws with
  | nil => cases ws <;> simp [equalsAll]
  | cons v vs ih => cases ws <;> simp [equalsAll, ih]

theorem seenEqual_array_iff {vs : List (Value (Method β))} {w : Value (Method β)} :
    SeenEqual (.array vs) w ↔ ∃ ws, w = .array ws ∧ List.Forall₂ SeenEqual vs ws := by
  unfold SeenEqual
  constructor
  · intro h
    cases w with
    | array ws => exact ⟨ws, rfl, equalsAll_iff.1 h⟩
    | _ => cases h
  · rintro ⟨ws, rfl, h⟩
    exact equalsAll_iff.2 h

/-- Where there is no array, values that programs take for equal agree, and the other way round. -/
theorem seenEqual_leaf_iff {v w : Value (Method β)} (hv : v.asArray = none) :
    SeenEqual v w ↔ w.asArray = none ∧ Agree v w := by
  constructor
  · intro h
    unfold SeenEqual at h
    cases v with
    | array => cases hv
    | undefined => cases w <;> first | exact ⟨rfl, .undefined⟩ | cases h
    | null => cases w <;> first | exact ⟨rfl, .null⟩ | cases h
    | bool a =>
      cases w with
      | bool b => exact ⟨rfl, of_decide_eq_true h ▸ .bool a⟩
      | _ => cases h
    | number x =>
      cases w with
      | number y => exact ⟨rfl, .number h⟩
      | _ => cases h
    | string s =>
      cases w with
      | string t => exact ⟨rfl, of_decide_eq_true h ▸ .string s⟩
      | _ => cases h
    | method f =>
      cases w with
      | method g => exact ⟨rfl, .method (of_decide_eq_true h)⟩
      | _ => cases h
  · rintro ⟨-, h⟩
    cases h <;> simp_all [SeenEqual, equals, Method.same]

/-- **Equality, place by place.** -/
theorem seenEqual_iff {v w : Value (Method β)} : SeenEqual v w ↔ Pointwise Agree v w := by
  induction v using induct_leaf generalizing w with
  | leaf v hv => rw [seenEqual_leaf_iff hv, pointwise_leaf_iff hv]
  | array vs ih =>
    rw [seenEqual_array_iff, pointwise_array_iff]
    simp only [forall₂_congr fun v hv w => ih v hv (w := w)]

/-! ## What equality overlooks -/

/-- Values that differ in the sign of a zero at most, or in what is around the identity of a method. -/
inductive Twin : Value (Method β) → Value (Method β) → Prop where
  | same (v : Value (Method β)) : Twin v v
  | zero {x y : Number} (hx : x.isZero = true) (hy : y.isZero = true) :
      Twin (.number x) (.number y)
  | method {f g : Method β} (h : f.id = g.id) : Twin (.method f) (.method g)

theorem agree_iff_twin {v w : Value (Method β)} (hv : v.asArray = none) :
    Agree v w ↔ Twin v w ∧ v.Numeric := by
  constructor
  · intro h
    cases h with
    | @number x y h =>
      obtain ⟨hxy, hx⟩ := Number.equals_iff.1 h
      refine ⟨?_, numeric_number_iff.2 hx⟩
      rcases hxy with rfl | ⟨hx, hy⟩
      · exact .same _
      · exact .zero hx hy
    | method h => exact ⟨.method h, numeric_of_leaf rfl (by simp)⟩
    | _ => exact ⟨.same _, numeric_of_leaf rfl (by simp)⟩
  · rintro ⟨h, hnumeric⟩
    cases h with
    | same =>
      cases v with
      | array => cases hv
      | number x => exact .number (x.equals_self_iff.2 (numeric_number_iff.1 hnumeric))
      | method f => exact .method rfl
      | _ => constructor
    | zero hx hy => exact .number (Number.equals_iff.2 ⟨.inr ⟨hx, hy⟩, numeric_number_iff.1 hnumeric⟩)
    | method h => exact .method h

/-- **Twins.** Values agree place by place if they are twins place by place, and none of their numbers
is a word which is not a number. -/
theorem pointwise_agree_iff {v w : Value (Method β)} :
    Pointwise Agree v w ↔ Pointwise Twin v w ∧ v.Numeric := by
  induction v using induct_leaf generalizing w with
  | leaf v hv =>
    rw [pointwise_leaf_iff hv, pointwise_leaf_iff hv, agree_iff_twin hv, and_assoc]
  | array vs ih =>
    -- both conditions on the items are conditions on each of them
    have hitems : ∀ ws, List.Forall₂ (Pointwise Agree) vs ws ↔
        (∀ v ∈ vs, v.Numeric) ∧ List.Forall₂ (Pointwise Twin) vs ws := by
      intro ws
      rw [← List.forall₂_and_left]
      exact forall₂_congr fun v hv w => (ih v hv).trans and_comm
    simp only [pointwise_array_iff, numeric_array_iff, hitems]
    constructor
    · rintro ⟨ws, rfl, hnumeric, htwins⟩
      exact ⟨⟨ws, rfl, htwins⟩, hnumeric⟩
    · rintro ⟨⟨ws, rfl, htwins⟩, hnumeric⟩
      exact ⟨ws, rfl, hnumeric, htwins⟩

/-- **A partial equivalence.** Equality as programs see it is symmetric and transitive, and a value is
equal to itself exactly if no number in it, at whatever depth, is a word which is not a number. Two
values are equal exactly if, in addition to that, they differ at no place but in the sign of a zero and
in what is around the identity of a method. An array is equal to arrays only, to those of the same
length whose items are equal to its own, place by place; and methods are equal if their identities are
the same, whatever their names and bodies. -/
theorem equality_is_partial_equivalence :
    (∀ a b : Value (Method β), SeenEqual a b → SeenEqual b a) ∧
    (∀ a b c : Value (Method β), SeenEqual a b → SeenEqual b c → SeenEqual a c) ∧
    (∀ a : Value (Method β), SeenEqual a a ↔ ∀ x, a.HoldsNumber x → x.isNaN = false) ∧
    (∀ a b : Value (Method β), SeenEqual a b ↔
      Pointwise Twin a b ∧ ∀ x, a.HoldsNumber x → x.isNaN = false) ∧
    (∀ (vs : List (Value (Method β))) (b : Value (Method β)), SeenEqual (.array vs) b ↔
      ∃ ws, b = .array ws ∧ vs.length = ws.length ∧
        ∀ (k : Nat) (v w : Value (Method β)), vs[k]? = some v → ws[k]? = some w → SeenEqual v w) ∧
    ∀ f g : Method β, SeenEqual (.method f) (.method g) ↔ f.id = g.id := by
  have htwins : ∀ a b : Value (Method β), SeenEqual a b ↔ Pointwise Twin a b ∧ a.Numeric :=
    fun a b => seenEqual_iff.trans pointwise_agree_iff
  refine ⟨?_, ?_, ?_, htwins, ?_, ?_⟩
  · intro a b hab
    rw [seenEqual_iff] at hab ⊢
    exact hab.symm fun v w => Agree.symm
  · intro a b c hab hbc
    rw [seenEqual_iff] at hab hbc ⊢
    exact hab.trans hbc fun u v w => Agree.trans
  · intro a
    rw [htwins, and_iff_right (pointwise_refl Twin.same a), Numeric]
  · intro vs b
    rw [seenEqual_array_iff]
    simp only [forall₂_iff_getElem?]
  · intro f g
    rw [seenEqual_leaf_iff rfl]
    constructor
    · rintro ⟨-, ⟨⟩⟩
      assumption
    · intro h
      exact ⟨rfl, .method h⟩

/-- A zero deep inside an array. -/
def deepZero (negative : Bool) (name : String) : Value (Method Unit) :=
  .array [.null, .array [.number (.ofMagnitude negative 0), .method ⟨⟨0, 7⟩, name, ()⟩]]

/-- Over a value with the other zero and another name for its method, equality leads to a third value;
but with a word that is not a number instead of the zero, the value is not even equal to itself. -/
theorem equality_is_partial_equivalence_deepZero :
    SeenEqual (deepZero false "f") (deepZero true "g") ∧
    SeenEqual (deepZero true "g") (deepZero false "h") ∧
    SeenEqual (deepZero false "f") (deepZero false "h") ∧
    SeenEqual (deepZero true "g") (deepZero false "f") ∧
    ¬ SeenEqual (β := Unit) (.array [.array [.number .nan]]) (.array [.array [.number .nan]]) := by
  obtain ⟨hsymm, htrans, hself, -⟩ := equality_is_partial_equivalence (β := Unit)
  have hfirst : SeenEqual (deepZero false "f") (deepZero true "g") := rfl
  have hsecond : SeenEqual (deepZero true "g") (deepZero false "h") := rfl
  refine ⟨hfirst, hsecond, htrans _ _ _ hfirst hsecond, hsymm _ _ hfirst, ?_⟩
  intro h
  have hnumber := (hself _).1 h .nan (.item List.mem_cons_self (.item List.mem_cons_self (.number _)))
  exact absurd hnumber (by decide)

end Value
end Delegation
