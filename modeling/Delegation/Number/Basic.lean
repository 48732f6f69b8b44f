/-!
# Numbers

A number is a binary64 word: a sign bit, eleven exponent bits, fifty-two fraction bits. The library
reads numbers, compares them and writes them, and never computes with them, so the word is kept as
it stands and everything else is read off it.

Two comparisons are told apart. Equality of words (`=`) distinguishes the two zeros. `Number.equals`
is the comparison of the object model: the zeros agree, and a number that is not a number agrees
with nothing, itself included (`equals_self_iff`). It is symmetric and transitive.
-/

namespace Delegation

/-- A binary64 number, as its word. -/
structure Number where
  /-- Sign, exponent and fraction, from the top bit down. -/
  bits : UInt64
  deriving DecidableEq

namespace Number

/-! ## Fields of the word -/

/-- The word without its sign bit. -/
def magnitude (x : Number) : Nat := x.bits.toNat % Nat.pow 2 63

/-- Whether the sign bit is set. -/
def isNegative (x : Number) : Bool := Nat.pow 2 63 ≤ x.bits.toNat

/-- The magnitude of the infinities: all exponent bits set, and no fraction bit. -/
def infiniteMagnitude : Nat := 2047 * Nat.pow 2 52

/-- Above the infinities stand the words that are not a number. -/
def isNaN (x : Number) : Bool := infiniteMagnitude < x.magnitude

/-- Whether the word is a real number. -/
def isFinite (x : Number) : Bool := x.magnitude < infiniteMagnitude

/-- Whether the word is one of the two zeros. -/
def isZero (x : Number) : Bool := x.magnitude == 0

/-- A number is its sign and its magnitude. -/
theorem ext_magnitude {x y : Number} (hsign : x.isNegative = y.isNegative)
    (hmagnitude : x.magnitude = y.magnitude) : x = y := by
  have hx := x.bits.toNat_lt
  have hy := y.bits.toNat_lt
  simp only [isNegative, magnitude, Nat.pow_eq, decide_eq_decide] at hsign hmagnitude
  have hbits : x.bits.toNat = y.bits.toNat := by omega
  cases x
  cases y
  exact congrArg _ (UInt64.toNat_inj.1 hbits)

/-! ## Making words -/

/-- The number of a sign and a magnitude. -/
def ofMagnitude (negative : Bool) (magnitude : Nat) : Number :=
  ⟨UInt64.ofNat ((if negative then Nat.pow 2 63 else 0) + magnitude % Nat.pow 2 63)⟩

/-- The zero with its sign bit set. -/
def negativeZero : Number := ofMagnitude true 0

/-- The infinity without its sign bit set. -/
def infinity : Number := ofMagnitude false infiniteMagnitude

/-- The infinity with its sign bit set. -/
def negativeInfinity : Number := ofMagnitude true infiniteMagnitude

/-- The word that stands for "not a number": the quiet one without payload. -/
def nan : Number := ofMagnitude false (infiniteMagnitude + Nat.pow 2 51)

/-- The numbers that are not finite are the words that are not a number, and the two infinities. -/
theorem not_isFinite_iff {x : Number} :
    x.isFinite = false ↔ x.isNaN = true ∨ x = infinity ∨ x = negativeInfinity := by
  constructor
  · intro h
    rcases Nat.eq_or_lt_of_le (Nat.le_of_not_lt (of_decide_eq_false h)) with hinfinite | hlarge
    · cases hsign : x.isNegative with
      | false => exact .inr (.inl (ext_magnitude hsign hinfinite.symm))
      | true => exact .inr (.inr (ext_magnitude hsign hinfinite.symm))
    · exact .inl (decide_eq_true hlarge)
  · rintro (h | rfl | rfl)
    · exact decide_eq_false (Nat.lt_asymm (of_decide_eq_true h))
    · decide
    · decide

/-! ## Comparison -/

/-- Equality as programs see it: not a number agrees with nothing, and the zeros agree. -/
def equals (x y : Number) : Bool :=
  !x.isNaN && !y.isNaN && (x == y || x.isZero && y.isZero)

/-- **Symmetry.** The comparison does not depend on the order of its sides. -/
theorem equals_comm (x y : Number) : x.equals y = y.equals x := by
  unfold equals
  rw [Bool.eq_iff_iff]
  simp only [Bool.and_eq_true, Bool.or_eq_true, beq_iff_eq]
  constructor <;> rintro ⟨⟨hx, hy⟩, h⟩ <;> refine ⟨⟨hy, hx⟩, ?_⟩ <;>
    exact h.imp Eq.symm And.symm

/-- **Transitivity.** -/
theorem equals_trans {x y z : Number} (hxy : x.equals y = true) (hyz : y.equals z = true) :
    x.equals z = true := by
  simp only [equals, Bool.and_eq_true, Bool.or_eq_true, beq_iff_eq] at hxy hyz ⊢
  obtain ⟨⟨hx, -⟩, h⟩ := hxy
  obtain ⟨⟨-, hz⟩, h'⟩ := hyz
  refine ⟨⟨hx, hz⟩, ?_⟩
  rcases h with rfl | ⟨zx, zy⟩
  · exact h'
  · rcases h' with rfl | ⟨-, zz⟩
    · exact Or.inr ⟨zx, zy⟩
    · exact Or.inr ⟨zx, zz⟩

/-- **Reflexivity, and its exception.** A number agrees with itself unless it is not a number. -/
theorem equals_self_iff (x : Number) : x.equals x = true ↔ x.isNaN = false := by
  simp [equals]

end Number

end Delegation
