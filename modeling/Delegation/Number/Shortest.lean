import Delegation.Number.Basic
/-!
# Shortest decimals

A finite number is written with the fewest digits that read back as it. The reals that round to a
number form an interval around it, with its ends exactly when the significand is even. Going down
the decimal grids, from coarse to fine, the first grid with a point in the interval wins; such a
point is one of the two neighbours of the value on that grid, and of two the nearer is taken, the
upper one on a tie. All comparisons are between naturals.

`Layout` is how the digits are set out: positionally for a range of exponents, and with an exponent
mark outside of it.
-/

namespace Delegation.Number

/-! ## Digits -/

/-- Significand and weight of a finite number, whose magnitude is `significand * 2 ^ weight`. -/
def significand (x : Number) : Nat × Int :=
  let field : Nat := x.magnitude / Nat.pow 2 52
  let fraction : Nat := x.magnitude % Nat.pow 2 52
  if field = 0 then (fraction, -1074) else (Nat.pow 2 52 + fraction, (field : Int) - 1075)

/-- The point of the grid `10 ^ p` that is written for the value `m * 2 ^ q`, if one reads back. -/
def gridPoint? (m : Nat) (q : Int) (p : Int) : Option Nat :=
  -- in quarters of the last bit: half a unit either way, a quarter below a power of two
  let below := if m = Nat.pow 2 52 ∧ -1074 < q then 1 else 2
  let quarter := Nat.pow 2 (q - 2).toNat * Nat.pow 10 (-p).toNat
  let grid := Nat.pow 2 (2 - q).toNat * Nat.pow 10 p.toNat
  let low := (4 * m - below) * quarter
  let value := 4 * m * quarter
  let high := (4 * m + 2) * quarter
  let inside (d : Nat) : Bool :=
    if m % 2 = 0 then low ≤ d * grid ∧ d * grid ≤ high else low < d * grid ∧ d * grid < high
  let d := value / grid
  if inside d then
    if inside (d + 1) ∧ (d + 1) * grid - value ≤ value - d * grid then some (d + 1) else some d
  else if inside (d + 1) then some (d + 1)
  else none

/-- The shortest decimal of `m * 2 ^ q`, for positive `m`: digits, and the power of ten that scales
them. Seventeen digits always suffice; the first grid looked at is at most two above the value. -/
def shortestDecimal (m : Nat) (q : Int) : Nat × Int :=
  let top : Int := (((m.log2 : Int) + 1 + q) * 30103) / 100000 + 1
  let grids : List Int := (List.range 22).map fun (i : Nat) => top - (i : Int)
  (grids.findSome? fun p => (gridPoint? m q p).map fun d => (d, p)).getD (m, 0)

/-! ## Layout -/

/-- Where positional notation begins and ends, by the exponent of the leading digit. -/
structure Layout where
  leastPositional : Int
  greatestPositional : Int

/-- A positive decimal in the given layout; an integer still shows one digit after its point. -/
def Layout.decimal (l : Layout) (digits : Nat) (exponent : Int) : String :=
  let ds := Nat.toDigits 10 digits
  let lead : Int := (ds.length : Int) - 1 + exponent
  if l.leastPositional ≤ lead ∧ lead ≤ l.greatestPositional then
    if 0 ≤ exponent then
      String.ofList (ds ++ List.replicate exponent.toNat '0') ++ ".0"
    else if 0 ≤ lead then
      String.ofList (ds.take (lead.toNat + 1)) ++ "." ++ String.ofList (ds.drop (lead.toNat + 1))
    else
      "0." ++ String.ofList (List.replicate (-lead - 1).toNat '0' ++ ds)
  else
    let fraction := if ds.length = 1 then "" else "." ++ String.ofList (ds.drop 1)
    String.ofList (ds.take 1) ++ fraction ++ "e" ++ toString lead

/-- The text of a number. -/
def Layout.number (l : Layout) (x : Number) : String :=
  if x.isNaN then "NaN"
  else
    (if x.isNegative then "-" else "") ++
      (if !x.isFinite then "inf"
      else if x.isZero then "0.0"
      else
        let (m, q) := x.significand
        let (digits, exponent) := shortestDecimal m q
        l.decimal digits exponent)

end Delegation.Number
