import Delegation.Number.Basic
/-!
# Rounding to a number

The number nearest to a quotient of naturals, and from it the number nearest to a decimal. A word's
magnitude counts the representable values upward from zero, so rounding the significand to the
nearest integer (a half to the even one) and adding the exponent's share gives the magnitude
directly: a significand that rounds up to the next power of two carries into the exponent.
-/

namespace Delegation.Number

/-- The natural nearest to `n / d`; a half goes to the even neighbour. -/
def roundedQuotient (n d : Nat) : Nat :=
  let q := n / d
  let r := n % d
  if d < 2 * r ∨ (d = 2 * r ∧ q % 2 = 1) then q + 1 else q

/-- The exponent `e` with `2 ^ e ≤ n / d < 2 ^ (e + 1)`, for positive `n` and `d`. -/
def binaryExponent (n d : Nat) : Int :=
  let e : Int := (n.log2 : Int) - (d.log2 : Int)
  if d * Nat.pow 2 e.toNat ≤ n * Nat.pow 2 (-e).toNat then e else e - 1

/-- The magnitude nearest to `n / d`, with the infinite one above the largest finite value. -/
def roundedMagnitude (n d : Nat) : Nat :=
  if n = 0 then 0
  else
    -- the weight of the significand's last bit
    let unit : Int := max (-1074) (binaryExponent n d - 52)
    let significand := roundedQuotient (n * Nat.pow 2 (-unit).toNat) (d * Nat.pow 2 unit.toNat)
    min infiniteMagnitude ((unit + 1074).toNat * Nat.pow 2 52 + significand)

/-- The number nearest to `digits * 10 ^ exponent`, under the given sign.

A decimal with its first digit above the 310th place is beyond every finite number and one below
the -325th is nearer to zero than to any other, so no power that large is ever formed. -/
def ofDecimal (negative : Bool) (digits : Nat) (exponent : Int) : Number :=
  let places : Int := (Nat.toDigits 10 digits).length + exponent
  ofMagnitude negative <|
    if digits = 0 then 0
    else if 310 < places then infiniteMagnitude
    else if places < -325 then 0
    else roundedMagnitude (digits * Nat.pow 10 exponent.toNat) (Nat.pow 10 (-exponent).toNat)

/-- The number nearest to a natural. -/
def ofNat (n : Nat) : Number := ofDecimal false n 0

end Delegation.Number
