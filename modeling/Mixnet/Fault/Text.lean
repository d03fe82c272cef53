import Mixnet.Fault
import Mixnet.Text.Description

/-!
# Texts of fatal faults

A fault is reported with one line of text.  The line of a violated invariant names the invariant by
number and name, then says what did not hold, and where.

## Main definitions

* `Fault.kind`: whether an invariant or something more elementary failed
* `Fault.message`: the line of text
-/

namespace Mixnet.Fault

open Mixnet.Text

/-- The word a fault is filed under. -/
def kind (fault : Fault) : String := if fault.isViolation then "Invariant" else "Panic"

/-- The line a fault is reported with. -/
def message : Fault → String
  | violated invariant reason context =>
    s!"Invariant {invariant.number} ({invariant.name}) failed: {reason}" ++
      match context with
      | none => ""
      | some place => " (context: " ++ place ++ ")"
  | sumOverflow => "attempt to add with overflow"
  | differenceOverflow => "attempt to subtract with overflow"
  | productOverflow => "attempt to multiply with overflow"
  | shiftOverflow => "attempt to shift left with overflow"
  | zeroDivisor => "attempt to divide by zero"
  | zeroRing => "attempt to calculate the remainder with a divisor of zero"
  | zeroModulus => "attempt to calculate with zero modulus!"
  | negativeExponent => "Cannot subtract b from a because b is larger than a."
  | capacityTooLarge => "bounded channel capacity is too large"
  | roomOverflow => "capacity overflow"
  | indexOutOfBounds length index =>
    s!"index out of bounds: the len is {length} but the index is {index}"
  | reversedChunk start stop => s!"chunk begin {start} past end {stop}"
  | neverChecked label names => label ++ ": never checked " ++ describe names

end Mixnet.Fault
