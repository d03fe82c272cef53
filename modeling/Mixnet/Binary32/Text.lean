import Mixnet.Binary32
import Mixnet.Text.Description

/-!
# Decimal text of binary32 numbers

A number is written with the fewest decimal digits that read back as the same number; among those,
the nearest to its value.  Two layouts exist: plain text is always positional and drops an empty
fraction, a description keeps one decimal place and turns to an exponent for very large and very
small numbers.

## Main definitions

* `Binary32.Decimal`: digits and the place of the decimal point
* `Binary32.shortest`: the fewest digits that read back
* `Binary32.text`: plain text
* `Binary32.ofDecimal`, `Binary32.ofDecimalTwice`, `Binary32.ofText?`: reading
* `Binary32.bounded`: what is read of a decimal far out of bounds

## Design notes

A number reads back from every decimal between the midpoints to its two neighbours, the midpoints
included when its significand is even.  If a decimal with a given number of digits lies in that
interval, so does one of the two decimals of that length next to the number itself, so only these
two are tried.
-/

namespace Mixnet.Binary32

open Mixnet.Text

/-! ## Shortest digits -/

/-- The decimal `0.digits × 10 ^ point`. -/
structure Decimal where
  /-- The digits, as a number without trailing zeros. -/
  digits : Nat
  /-- How many digits stand before the decimal point; not positive for small numbers. -/
  point : Int

namespace Decimal

/-- Whether `digits * 10 ^ exponent` lies between two bounds given in quarter steps of the format,
bounds included if `closed`. -/
def within (digits : Nat) (exponent : Int) (low high : Nat) (closed : Bool) : Bool :=
  let scaled := digits * tenTo exponent.toNat * (4 * unitsPerOne)
  let divisor := tenTo (-exponent).toNat
  if closed then low * divisor ≤ scaled && scaled ≤ high * divisor
  else low * divisor < scaled && scaled < high * divisor

/-- Removes trailing zeros; each one lowers the count by `steps` at most. -/
def trimZeros : Nat → Nat → Nat
  | 0, digits => digits
  | steps + 1, digits => if digits % 10 = 0 then trimZeros steps (digits / 10) else digits

/-- The decimal with `digits * 10 ^ exponent` as its value. -/
def ofScaled (digits : Nat) (exponent : Int) : Decimal where
  digits := trimZeros 10 digits
  point := (toString digits).length + exponent

end Decimal

/-- The number of decimal places before the point of `units` steps: the least `point` with
`units < 10 ^ point`. -/
def decimalPoint (units : Nat) : Int :=
  let places : List Int := (List.range 90).map fun (index : Nat) => Int.ofNat index - 46
  (places.find? fun point =>
    units * tenTo (-point).toNat < tenTo point.toNat * unitsPerOne).getD 44

/-- The fewest digits that read back as the positive number `significand * 2 ^ shift` steps. -/
def shortest (significand shift : Nat) : Decimal :=
  let units := significand * twoTo shift
  let below := if significand = twoTo 23 ∧ shift ≠ 0 then twoTo shift else 2 * twoTo shift
  let low := 4 * units - below
  let high := 4 * units + 2 * twoTo shift
  let closed := significand % 2 = 0
  let point := decimalPoint units
  let candidates := (List.range 9).filterMap fun count =>
    let exponent := point - (count + 1 : Nat)
    let numerator := units * tenTo (-exponent).toNat
    let denominator := unitsPerOne * tenTo exponent.toNat
    let lower := numerator / denominator
    let rest := numerator % denominator
    let lowerFits := Decimal.within lower exponent low high closed
    let upperFits := Decimal.within (lower + 1) exponent low high closed
    if lowerFits && (2 * rest < denominator || !upperFits) then
      some (Decimal.ofScaled lower exponent)
    else if upperFits then some (Decimal.ofScaled (lower + 1) exponent)
    else none
  candidates.headD (Decimal.ofScaled units 0)

/-! ## Layouts -/

/-- A run of zeros. -/
def zeros (count : Nat) : String := String.ofList (List.replicate count '0')

/-- A decimal without an exponent, followed by `wholeSuffix` if it has no fraction. -/
def Decimal.positional (decimal : Decimal) (wholeSuffix : String) : String :=
  let digits := toString decimal.digits
  if decimal.point ≤ 0 then "0." ++ zeros (-decimal.point).toNat ++ digits
  else
    let places := decimal.point.toNat
    if digits.length ≤ places then digits ++ zeros (places - digits.length) ++ wholeSuffix
    else
      String.ofList (digits.toList.take places) ++ "." ++
        String.ofList (digits.toList.drop places)

/-- A decimal with one digit before the point and an exponent. -/
def Decimal.exponential (decimal : Decimal) : String :=
  let digits := toString decimal.digits
  let fraction := String.ofList (digits.toList.drop 1)
  String.ofList (digits.toList.take 1) ++ (if fraction.isEmpty then "" else "." ++ fraction) ++ "e"
    ++ toString (decimal.point - 1)

/-- A minus sign, for negative numbers and negative zero. -/
def signText (negative : Bool) : String := if negative then "-" else ""

/-- The plain text of a number: positional, with no empty fraction. -/
def text : Binary32 → String
  | notANumber => "NaN"
  | infinite negative => signText negative ++ "inf"
  | finite negative significand shift =>
    signText negative ++
      if significand.val = 0 then "0" else (shortest significand.val shift.val).positional ""

/-- Whether a magnitude is described with an exponent: below one ten-thousandth, or from ten to the
sixteenth on. -/
def wantsExponent (units : Nat) : Bool :=
  let bound := Rounding.nearest 24 unitsPerOne 10000
  units < bound.1 * twoTo bound.2 || tenTo 16 * unitsPerOne ≤ units

/-- The description of a number keeps one decimal place, and is exponential at the extremes. -/
instance : Describe Binary32 :=
  ⟨fun
    | notANumber => "NaN"
    | infinite negative => signText negative ++ "inf"
    | finite negative significand shift =>
      signText negative ++
        if significand.val = 0 then "0.0"
        else
          let decimal := shortest significand.val shift.val
          if wantsExponent (magnitude significand shift) then decimal.exponential
          else decimal.positional ".0"⟩

/-! ## Reading -/

/-- Decimal places beyond which a positive number lies outside of every format in use: with more
before the point it is above the greatest number of binary32 and binary64, with as many zeros behind
the point it is below half the least. -/
def placeBound : Int := 400

/-- The number that `digits * 10 ^ exponent` reads as, where `rounded` is asked only if the number
is not out of bounds: zero and tiny numbers are zero, huge ones an infinity. -/
def bounded (negative : Bool) (digits : Nat) (exponent : Int) (rounded : Unit → Binary32) :
    Binary32 :=
  let point : Int := (toString digits).length + exponent
  if digits = 0 || point < -placeBound then signedZero negative
  else if placeBound < point then infinite negative
  else rounded ()

/-- The number nearest to `digits * 10 ^ exponent`. -/
def ofDecimal (negative : Bool) (digits : Nat) (exponent : Int) : Binary32 :=
  bounded negative digits exponent fun _ =>
    ofQuotient negative (digits * tenTo exponent.toNat) (tenTo (-exponent).toNat)

/-- The number nearest to the binary64 number nearest to `digits * 10 ^ exponent`. -/
def ofDecimalTwice (negative : Bool) (digits : Nat) (exponent : Int) : Binary32 :=
  bounded negative digits exponent fun _ =>
    let steps := twoTo 1074
    let (significand, shift) :=
      Rounding.nearest 53 (digits * tenTo exponent.toNat * steps) (tenTo (-exponent).toNat)
    ofQuotient negative (significand * twoTo shift) steps

/-- A decimal numeral as sign, digits and exponent of ten. -/
structure Numeral where
  /-- Whether it begins with a minus sign. -/
  negative : Bool
  /-- Its digits as one number. -/
  digits : Nat
  /-- The power of ten the digits are scaled by. -/
  exponent : Int

/-- The number that a run of digits stands for, and how many there are. -/
def readDigits (chars : List Char) : Nat × Nat :=
  (chars.foldl (fun value char => value * 10 + (char.toNat - '0'.toNat)) 0, chars.length)

/-- Splits off a leading minus or plus sign. -/
def readSign : List Char → Bool × List Char
  | '-' :: rest => (true, rest)
  | '+' :: rest => (false, rest)
  | chars => (false, chars)

/-- The exponent part of a numeral, zero if there is none. -/
def readExponent? : List Char → Option Int
  | [] => some 0
  | mark :: rest =>
    let (negative, digits) := readSign rest
    if (mark == 'e' || mark == 'E') && !digits.isEmpty && digits.all Char.isDigit then
      let value : Int := (readDigits digits).1
      some (if negative then -value else value)
    else none

/-- Reads a decimal numeral: a sign, digits with an optional point, an optional exponent. -/
def Numeral.ofText? (text : String) : Option Numeral :=
  let (negative, chars) := readSign text.toList
  let whole := chars.takeWhile Char.isDigit
  let afterWhole := chars.dropWhile Char.isDigit
  let (fraction, rest) :=
    match afterWhole with
    | '.' :: tail => (tail.takeWhile Char.isDigit, tail.dropWhile Char.isDigit)
    | _ => ([], afterWhole)
  if whole.isEmpty && fraction.isEmpty then none
  else (readExponent? rest).map fun exponent =>
    { negative
      digits := (readDigits (whole ++ fraction)).1
      exponent := exponent - fraction.length }

/-- Reads a name, in letters of either case: an infinity, or the name for no number. -/
def named? (text : String) : Option Binary32 :=
  let (negative, chars) := readSign text.toList
  match String.ofList (chars.map Char.toLower) with
  | "nan" => some notANumber
  | "inf" | "infinity" => some (infinite negative)
  | _ => none

/-- Reads a number: a name, or a decimal numeral. -/
def ofText? (text : String) : Option Binary32 :=
  match named? text with
  | some value => some value
  | none => (Numeral.ofText? text).map fun numeral =>
    ofDecimal numeral.negative numeral.digits numeral.exponent

end Mixnet.Binary32
