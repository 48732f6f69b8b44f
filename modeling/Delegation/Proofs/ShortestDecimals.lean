import Mathlib.Algebra.Order.Field.Power
import Mathlib.Algebra.Order.Field.Rat
import Mathlib.Data.Rat.Cast.Order
import Mathlib.Order.Monotone.Basic
import Mathlib.Tactic.Linarith
import Mathlib.Tactic.Positivity
import Mathlib.Tactic.Ring
import Delegation.Number.Shortest

/-!
# The shortest decimal of a number

Every finite magnitude has an interval of rationals that round to it. The interval of one magnitude
ends where that of the next begins (`lower_succ`), also where the significand runs over and the last bit
doubles its weight. An end that two intervals share belongs to the even one of the two magnitudes, so
that no rational rounds to two magnitudes (`RoundsTo.unique`).

The digits that are written for a magnitude are a point of its interval (`roundsTo_shortestDecimal`):
what is chosen on a grid reads back, and the search reaches a grid so fine that there must be such a
point. `gridPoint?` compares naturals, in a unit of which both a quarter of the last bit and a step of
the grid are multiples; `mul_quarter_le_iff` and `mul_step_le_iff` lead from there to rationals.
-/

namespace Delegation.Number

/-! ## Significands -/

/-- Significand and weight of a magnitude. -/
def parts (a : Nat) : Nat × Int :=
  if a / 2 ^ 52 = 0 then (a % 2 ^ 52, -1074) else (2 ^ 52 + a % 2 ^ 52, (a / 2 ^ 52 : Nat) - 1075)

theorem significand_eq (x : Number) : x.significand = parts x.magnitude := rfl

/-- A magnitude below `2 ^ 52` is its own significand; any other one is a field and a fraction, and the
significand of the fraction gets a leading bit. -/
theorem parts_cases (a : Nat) : (a < 2 ^ 52 ∧ parts a = (a, -1074)) ∨
    ∃ f r, r < 2 ^ 52 ∧ a = (f + 1) * 2 ^ 52 + r ∧ parts a = (2 ^ 52 + r, (f : Int) - 1074) := by
  unfold parts
  split
  · exact .inl ⟨by omega, Prod.ext (by omega) rfl⟩
  · refine .inr ⟨a / 2 ^ 52 - 1, a % 2 ^ 52, by omega, by omega, Prod.ext rfl ?_⟩
    omega

/-- With field one the weight is still the smallest, and the magnitude still its own significand. -/
theorem parts_small {a : Nat} (h : a < 2 ^ 53) : parts a = (a, -1074) := by
  rcases parts_cases a with ⟨-, hparts⟩ | ⟨f, r, hr, rfl, hparts⟩
  · exact hparts
  · obtain rfl : f = 0 := by omega
    rw [hparts]
    exact Prod.ext (by omega) rfl

theorem parts_large {r : Nat} (f : Nat) (hr : r < 2 ^ 52) :
    parts ((f + 1) * 2 ^ 52 + r) = (2 ^ 52 + r, (f : Int) - 1074) := by
  unfold parts
  rw [if_neg (by omega)]
  exact Prod.ext (by omega) (by omega)

theorem parts_pos {a : Nat} (h : 0 < a) : 0 < (parts a).1 := by
  rcases parts_cases a with ⟨-, hparts⟩ | ⟨f, r, -, -, hparts⟩
  · rw [hparts]
    exact h
  · rw [hparts]
    exact Nat.add_pos_left (by decide) r

theorem parts_mod_two (a : Nat) : (parts a).1 % 2 = a % 2 := by
  rcases parts_cases a with ⟨-, hparts⟩ | ⟨f, r, -, rfl, hparts⟩
  · rw [hparts]
  · rw [hparts]
    omega

theorem parts_lt (a : Nat) : (parts a).1 < 2 ^ 53 := by
  rcases parts_cases a with ⟨hsmall, hparts⟩ | ⟨f, r, hr, -, hparts⟩
  · rw [hparts]
    omega
  · rw [hparts]
    omega

theorem parts_weight {a : Nat} (h : a < infiniteMagnitude) :
    -1074 ≤ (parts a).2 ∧ (parts a).2 ≤ 971 := by
  have hinfinite : infiniteMagnitude = 2047 * 2 ^ 52 := rfl
  rcases parts_cases a with ⟨-, hparts⟩ | ⟨f, r, -, rfl, hparts⟩
  · rw [hparts]
    exact ⟨le_rfl, by omega⟩
  · rw [hparts]
    exact ⟨by omega, by omega⟩

/-! ## The interval of a magnitude -/

/-- How far below its value the interval of a significand begins, in quarters of its last bit. -/
def below (m : Nat) (q : Int) : Nat := if m = 2 ^ 52 ∧ -1074 < q then 1 else 2

theorem below_pos (m : Nat) (q : Int) : 0 < below m q := by
  unfold below
  split <;> decide

/-- Where the interval of a magnitude begins. -/
def lower (a : Nat) : ℚ :=
  (4 * (parts a).1 - below (parts a).1 (parts a).2 : Nat) * 2 ^ ((parts a).2 - 2)

/-- Where the interval of a magnitude ends. -/
def upper (a : Nat) : ℚ := (4 * (parts a).1 + 2 : Nat) * 2 ^ ((parts a).2 - 2)

/-- **No gap, no overlap.** The interval of a magnitude ends where that of the next begins. -/
theorem lower_succ (a : Nat) : lower (a + 1) = upper a := by
  unfold lower upper
  rcases parts_cases a with ⟨hsmall, hparts⟩ | ⟨f, r, hr, rfl, hparts⟩
  · have hquarters : 4 * (a + 1) - 2 = 4 * a + 2 := by omega
    rw [hparts, parts_small (by omega), below, if_neg (by omega), hquarters]
  · rw [hparts]
    by_cases hcarry : r + 1 < 2 ^ 52
    · have hquarters : 4 * (2 ^ 52 + (r + 1)) - 2 = 4 * (2 ^ 52 + r) + 2 := by omega
      rw [Nat.add_assoc, parts_large f hcarry, below, if_neg (by omega), hquarters]
    · -- the significand runs over: half as much below the next one, in quarters of twice the weight
      have hnext : (f + 1) * 2 ^ 52 + r + 1 = (f + 1 + 1) * 2 ^ 52 + 0 := by omega
      have hquarters : 4 * (2 ^ 52 + r) + 2 = 2 * (4 * 2 ^ 52 - 1) := by omega
      have hweight : ((f + 1 : Nat) : Int) - 1074 - 2 = (f : Int) - 1074 - 2 + 1 := by omega
      rw [hnext, parts_large (f + 1) (by decide), below, if_pos ⟨rfl, by omega⟩, hquarters]
      simp only [hweight, zpow_add_one₀ (show (2 : ℚ) ≠ 0 by decide), Nat.cast_mul]
      ring

theorem lower_lt_upper (a : Nat) : lower a < upper a := by
  unfold lower upper
  refine mul_lt_mul_of_pos_right (Nat.cast_lt.2 ?_) (by positivity)
  omega

theorem upper_strictMono : StrictMono upper := by
  refine strictMono_nat_of_lt_succ fun a => ?_
  rw [← lower_succ]
  exact lower_lt_upper (a + 1)

theorem upper_le_lower {a b : Nat} (h : a < b) : upper a ≤ lower b := by
  obtain ⟨c, rfl⟩ : ∃ c, b = c + 1 := ⟨b - 1, by omega⟩
  rw [lower_succ]
  exact upper_strictMono.monotone (by omega)

/-- The rationals that round to a magnitude: those of its interval, with the ends if it is even. -/
structure RoundsTo (r : ℚ) (a : Nat) : Prop where
  lower_le : lower a ≤ r
  le_upper : r ≤ upper a
  inside : a % 2 = 1 → lower a < r ∧ r < upper a

theorem RoundsTo.not_lt {r : ℚ} {a b : Nat} (ha : RoundsTo r a) (hb : RoundsTo r b) : ¬ a < b := by
  intro hlt
  -- then `r` is the end that the two intervals share, and belongs to one of them only
  have hends := upper_le_lower hlt
  have hupper : r = upper a := le_antisymm ha.le_upper (hends.trans hb.lower_le)
  have hlower : r = lower b := le_antisymm (ha.le_upper.trans hends) hb.lower_le
  obtain ⟨c, rfl⟩ : ∃ c, b = c + 1 := ⟨b - 1, by omega⟩
  have hnext : a = c := upper_strictMono.injective (by rw [← hupper, ← lower_succ, ← hlower])
  rcases Nat.mod_two_eq_zero_or_one a with heven | hodd
  · have hlt := (hb.inside (by omega)).1
    exact absurd hlower hlt.ne'
  · exact absurd hupper (ha.inside hodd).2.ne

/-- **One magnitude for a rational.** -/
theorem RoundsTo.unique {r : ℚ} {a b : Nat} (ha : RoundsTo r a) (hb : RoundsTo r b) : a = b :=
  le_antisymm (Nat.le_of_not_lt (hb.not_lt ha)) (Nat.le_of_not_lt (ha.not_lt hb))

theorem roundsTo_zero : RoundsTo 0 0 := by
  have hlower : lower 0 = 0 := by
    rw [lower, parts_small (by decide)]
    simp
  exact ⟨hlower.le, hlower ▸ (lower_lt_upper 0).le, fun h => nomatch h⟩

/-! ## Naturals for rationals -/

section Units

variable (q p : Int)

/-- A quarter of a last bit of weight `q`, in the unit of comparison with the grid `10 ^ p`. -/
def quarter : Nat := 2 ^ (q - 2).toNat * 10 ^ (-p).toNat

/-- The step of the grid `10 ^ p`, in the unit of comparison with quarters of weight `q`. -/
def gridStep : Nat := 2 ^ (2 - q).toNat * 10 ^ p.toNat

/-- How often the unit of comparison goes into one. -/
def unitsInOne : ℚ := 2 ^ (2 - q).toNat * 10 ^ (-p).toNat

theorem unitsInOne_pos : 0 < unitsInOne q p := by
  unfold unitsInOne
  positivity

theorem gridStep_pos : 0 < gridStep q p := by
  unfold gridStep
  positivity

/-- A power with an integer exponent, its denominator cleared. -/
theorem zpow_mul_pow_toNat {b : ℚ} (hb : b ≠ 0) (i : Int) :
    b ^ i * b ^ (-i).toNat = b ^ i.toNat := by
  obtain ⟨n, rfl | rfl⟩ := i.eq_nat_or_neg
  · simp
  · simp [hb]

theorem cast_quarter : (quarter q p : ℚ) = 2 ^ (q - 2) * unitsInOne q p := by
  have htwo := zpow_mul_pow_toNat (show (2 : ℚ) ≠ 0 by decide) (q - 2)
  rw [neg_sub] at htwo
  rw [quarter, unitsInOne, ← mul_assoc, htwo]
  push_cast
  rfl

theorem cast_gridStep : (gridStep q p : ℚ) = 10 ^ p * unitsInOne q p := by
  have hten := zpow_mul_pow_toNat (show (10 : ℚ) ≠ 0 by decide) p
  rw [gridStep, unitsInOne, mul_left_comm, hten]
  push_cast
  rfl

theorem mul_quarter_le_iff (s d : Nat) :
    s * quarter q p ≤ d * gridStep q p ↔ (s : ℚ) * 2 ^ (q - 2) ≤ d * 10 ^ p := by
  rw [← Nat.cast_le (α := ℚ), Nat.cast_mul, Nat.cast_mul, cast_quarter, cast_gridStep, ← mul_assoc,
    ← mul_assoc, mul_le_mul_iff_left₀ (unitsInOne_pos q p)]

theorem mul_step_le_iff (s d : Nat) :
    d * gridStep q p ≤ s * quarter q p ↔ (d : ℚ) * 10 ^ p ≤ s * 2 ^ (q - 2) := by
  rw [← Nat.cast_le (α := ℚ), Nat.cast_mul, Nat.cast_mul, cast_quarter, cast_gridStep, ← mul_assoc,
    ← mul_assoc, mul_le_mul_iff_left₀ (unitsInOne_pos q p)]

end Units

/-! ## Grid points -/

/-- Whether the point `d` of the grid `10 ^ p` reads back as `m * 2 ^ q`. -/
def ReadsBack (m : Nat) (q p : Int) (d : Nat) : Prop :=
  if m % 2 = 0 then
    (4 * m - below m q) * quarter q p ≤ d * gridStep q p ∧
      d * gridStep q p ≤ (4 * m + 2) * quarter q p
  else
    (4 * m - below m q) * quarter q p < d * gridStep q p ∧
      d * gridStep q p < (4 * m + 2) * quarter q p

/-- What is chosen on a grid reads back, and if nothing is, then neither does the point just below the
value. -/
theorem gridPoint?_cases (m : Nat) (q p : Int) :
    (∃ d, gridPoint? m q p = some d ∧ ReadsBack m q p d) ∨
      gridPoint? m q p = none ∧ ¬ ReadsBack m q p (4 * m * quarter q p / gridStep q p) := by
  unfold gridPoint?
  extract_lets below' quarter' grid low value high inside d
  have hinside : ∀ n, inside n = true ↔ ReadsBack m q p n := by
    intro n
    simp only [inside, ReadsBack]
    split
    · exact decide_eq_true_iff
    · exact decide_eq_true_iff
  split
  next h =>
    left
    split
    next h' => exact ⟨_, rfl, (hinside _).1 h'.1⟩
    next => exact ⟨_, rfl, (hinside _).1 h⟩
  next h =>
    split
    next h' => exact .inl ⟨_, rfl, (hinside _).1 h'⟩
    next => exact .inr ⟨rfl, fun h' => h ((hinside _).2 h')⟩

theorem roundsTo_of_readsBack {a d : Nat} {p : Int} (h : ReadsBack (parts a).1 (parts a).2 p d) :
    RoundsTo (d * 10 ^ p) a := by
  have hparity := parts_mod_two a
  unfold ReadsBack at h
  simp only [← not_le, mul_quarter_le_iff, mul_step_le_iff] at h
  simp only [not_le] at h
  split at h
  next heven => exact ⟨h.1, h.2, fun hodd => by omega⟩
  next => exact ⟨h.1.le, h.2.le, fun _ => h⟩

/-- On a grid with steps of at most a quarter of the last bit, the point just below the value reads
back. -/
theorem readsBack_of_fine {m : Nat} {q p : Int} (hm : 0 < m) (hfine : (10 : ℚ) ^ p ≤ 2 ^ (q - 2)) :
    ReadsBack m q p (4 * m * quarter q p / gridStep q p) := by
  have hstep : 1 * gridStep q p ≤ 1 * quarter q p := (mul_step_le_iff q p 1 1).2 (by simpa using hfine)
  have hbelow := below_pos m q
  have hpos := gridStep_pos q p
  unfold ReadsBack
  generalize quarter q p = u at *
  generalize gridStep q p = g at *
  have hbefore : 4 * m * u / g * g ≤ 4 * m * u := Nat.div_mul_le_self _ _
  have hbehind : 4 * m * u < 4 * m * u / g * g + g := Nat.lt_div_mul_add hpos
  have hlow : (4 * m - below m q) * u + u ≤ 4 * m * u := by
    calc (4 * m - below m q) * u + u = (4 * m - below m q + 1) * u := by ring
      _ ≤ 4 * m * u := Nat.mul_le_mul_right _ (by omega)
  have hhigh : 4 * m * u + 2 * u = (4 * m + 2) * u := by ring
  split
  · exact ⟨by omega, by omega⟩
  · exact ⟨by omega, by omega⟩

/-! ## The search -/

/-- Powers of ten below powers of two, by `10 ^ 3 ≤ 2 ^ 10` for whole numbers and by `2 ^ 33 ≤ 10 ^ 10`
for fractions. -/
theorem ten_zpow_le_two_zpow {k e : Int} (hwhole : 10 * k ≤ 3 * e) (hfraction : 33 * k ≤ 10 * e) :
    (10 : ℚ) ^ k ≤ 2 ^ e := by
  rcases le_total 0 k with hk | hk
  · refine le_of_pow_le_pow_left₀ (n := 3) (by decide) (by positivity) ?_
    calc ((10 : ℚ) ^ k) ^ 3 = (10 ^ 3) ^ k := by rw [← zpow_natCast, ← zpow_natCast, zpow_comm]
      _ ≤ (2 ^ 10) ^ k := zpow_le_zpow_left₀ hk (by norm_num) (by norm_num)
      _ = 2 ^ (10 * k) := by rw [zpow_mul]; rfl
      _ ≤ 2 ^ (e * 3) := zpow_le_zpow_right₀ (by norm_num) (by omega)
      _ = (2 ^ e) ^ 3 := by rw [zpow_mul]; rfl
  · refine le_of_pow_le_pow_left₀ (n := 10) (by decide) (by positivity) ?_
    calc ((10 : ℚ) ^ k) ^ 10 = (10 ^ 10) ^ k := by rw [← zpow_natCast, ← zpow_natCast, zpow_comm]
      _ = ((10 ^ 10) ^ (-k))⁻¹ := by rw [zpow_neg, inv_inv]
      _ ≤ ((2 ^ 33) ^ (-k))⁻¹ := inv_anti₀ (by positivity)
        (zpow_le_zpow_left₀ (by omega) (by norm_num) (by norm_num))
      _ = (2 ^ 33) ^ k := by rw [zpow_neg, inv_inv]
      _ = 2 ^ (33 * k) := by rw [zpow_mul]; rfl
      _ ≤ 2 ^ (e * 10) := zpow_le_zpow_right₀ (by norm_num) (by omega)
      _ = (2 ^ e) ^ 10 := by rw [zpow_mul]; rfl

theorem readsBack_shortestDecimal {m : Nat} {q : Int} (hm : 0 < m) (hm' : m < 2 ^ 53)
    (hq : -1074 ≤ q) (hq' : q ≤ 971) :
    ReadsBack m q (shortestDecimal m q).2 (shortestDecimal m q).1 := by
  have hlog : m.log2 < 53 := (Nat.log2_lt (by omega)).2 hm'
  unfold shortestDecimal
  extract_lets top grids
  cases hfind : grids.findSome? fun p => (gridPoint? m q p).map fun d => (d, p) with
  | some found =>
    obtain ⟨p, -, hp⟩ := List.exists_of_findSome?_eq_some hfind
    obtain ⟨d, hd, rfl⟩ := Option.map_eq_some_iff.1 hp
    rcases gridPoint?_cases m q p with ⟨d', hd', hreads⟩ | ⟨hnone, -⟩
    · obtain rfl : d' = d := Option.some.inj (hd'.symm.trans hd)
      exact hreads
    · rw [hnone] at hd
      cases hd
  | none =>
    -- the last grid is fine enough, so it would have had a point
    have hlast : top - 21 ∈ grids := List.mem_map.2 ⟨21, by decide, rfl⟩
    have hnone := List.findSome?_eq_none_iff.1 hfind _ hlast
    have hfine : (10 : ℚ) ^ (top - 21) ≤ 2 ^ (q - 2) := by
      refine ten_zpow_le_two_zpow ?_ ?_ <;> omega
    rcases gridPoint?_cases m q (top - 21) with ⟨d, hd, -⟩ | ⟨-, hnot⟩
    · simp [hd] at hnone
    · exact absurd (readsBack_of_fine hm hfine) hnot

/-- **The shortest decimal reads back.** -/
theorem roundsTo_shortestDecimal {a : Nat} (ha : 0 < a) (hfinite : a < infiniteMagnitude) :
    RoundsTo ((shortestDecimal (parts a).1 (parts a).2).1 *
      10 ^ (shortestDecimal (parts a).1 (parts a).2).2) a := by
  obtain ⟨hq, hq'⟩ := parts_weight hfinite
  exact roundsTo_of_readsBack (readsBack_shortestDecimal (parts_pos ha) (parts_lt a) hq hq')

end Delegation.Number
