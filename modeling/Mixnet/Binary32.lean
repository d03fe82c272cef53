import Mixnet.Word

/-!
# Binary32 numbers

Start thresholds are given as 32-bit binary floating-point numbers, and the number of assignments a
threshold stands for is computed in that arithmetic.  This file models the part of it that
thresholds need: comparison with a fraction's bounds, the product with a count, and the ceiling.

## Main definitions

* `Binary32`: a number, an infinity, or no number at all
* `Binary32.units`: the magnitude of a finite number, in steps of `2 ^ -149`
* `Rounding.nearest`: a quotient rounded to a given number of significant bits, ties to even
* `Binary32.ofQuotient`: the nearest number to a quotient
* `Binary32.isFraction`: whether a number lies in `[0, 1]`
* `Binary32.scaledCeiling`: the ceiling of the product with a count

## Design notes

Every finite number of the format is a whole number of steps of `2 ^ -149`, so exact arithmetic on
`Nat` decides everything.  A finite number keeps its significand and its shift as bounded numbers,
which makes each value of the type a number of the format.
-/

namespace Mixnet

/-! ## Rounding -/

namespace Rounding

/-- The quotient `numerator / denominator`, rounded to the nearest whole number, ties to even. -/
def halfEven (numerator denominator : Nat) : Nat :=
  let quotient := numerator / denominator
  let rest := numerator % denominator
  if 2 * rest < denominator ∨ (2 * rest = denominator ∧ quotient % 2 = 0) then quotient
  else quotient + 1

/-- The multiple `significand * 2 ^ shift` nearest to a quotient, where the significand has at most
`precision` bits and the shift is the least possible. -/
def nearest (precision numerator denominator : Nat) : Nat × Nat :=
  let shift := Nat.log2 (numerator / denominator) + 1 - precision
  let significand := halfEven numerator (denominator * twoTo shift)
  if significand = twoTo precision then (twoTo (precision - 1), shift + 1) else (significand, shift)

end Rounding

/-! ## The format -/

/-- A 32-bit binary floating-point number. -/
inductive Binary32 where
  /-- No number. -/
  | notANumber
  /-- An infinity. -/
  | infinite (negative : Bool)
  /-- The number `significand * 2 ^ shift` steps of `2 ^ -149`, with its sign. -/
  | finite (negative : Bool) (significand : Fin 16777216) (shift : Fin 254)
deriving DecidableEq

namespace Binary32

/-- The number of steps in one. -/
def unitsPerOne : Nat := twoTo 149

/-- The magnitude of a finite number in steps of `2 ^ -149`. -/
def magnitude (significand : Fin 16777216) (shift : Fin 254) : Nat :=
  significand.val * twoTo shift.val

/-- The number nearest to `numerator / denominator` steps; past the greatest number, an infinity. -/
def ofUnits (negative : Bool) (numerator denominator : Nat) : Binary32 :=
  let (significand, shift) := Rounding.nearest 24 numerator denominator
  if fits : significand < 16777216 ∧ shift < 254 then
    finite negative ⟨significand, fits.1⟩ ⟨shift, fits.2⟩
  else infinite negative

/-- The number nearest to `numerator / denominator`. -/
def ofQuotient (negative : Bool) (numerator denominator : Nat) : Binary32 :=
  ofUnits negative (numerator * unitsPerOne) denominator

/-- The number nearest to a natural number. -/
def ofNat (value : Nat) : Binary32 := ofQuotient false value 1

/-- Zero with a sign. -/
def signedZero (negative : Bool) : Binary32 := finite negative 0 0

/-- Zero. -/
def zero : Binary32 := signedZero false

/-- One. -/
def one : Binary32 := ofNat 1

/-- Whether a number lies in `[0, 1]`.  Negative zero does. -/
def isFraction : Binary32 → Bool
  | finite negative significand shift =>
    let units := magnitude significand shift
    units = 0 || (!negative && units ≤ unitsPerOne)
  | _ => false

/-- The product of two magnitudes in steps, as a number of the format. -/
def product (left right : Nat) : Binary32 :=
  ofUnits false (left * right) unitsPerOne

/-- The least natural number not below a number; an infinity has none, and neither has a number that
is not one.  Below zero the answer is zero. -/
def ceiling : Binary32 → Option Nat
  | finite negative significand shift =>
    if negative then some 0
    else some ((magnitude significand shift + (unitsPerOne - 1)) / unitsPerOne)
  | _ => none

/-- The ceiling of the product of a number and a count, where the count is rounded to the format
first.  Only numbers in `[0, 1]` are scaled; for any other the answer is zero. -/
def scaledCeiling (factor : Binary32) (count : Nat) : Nat :=
  match factor, ofNat count with
  | finite false significand shift, finite _ countSignificand countShift =>
    (product (magnitude significand shift) (magnitude countSignificand countShift)).ceiling.getD 0
  | _, _ => 0

end Binary32

end Mixnet
