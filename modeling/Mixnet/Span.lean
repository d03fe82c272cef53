import Mixnet.Power
import Mixnet.Text.Description

/-!
# Spans of time

Timeouts are spans of time in whole seconds and nanoseconds.  A span is written in the largest unit
it fills, with a decimal fraction and no trailing zeros.

## Main definitions

* `Span`: seconds and a rest below one second
* `Span.ofNanos`, `Span.ofMillis`: spans from a count of smaller units
-/

namespace Mixnet

open Mixnet.Text

/-- A span of time. -/
structure Span where
  /-- Whole seconds. -/
  seconds : Nat
  /-- Nanoseconds beyond the whole seconds. -/
  nanos : Nat
  nanos_lt : nanos < tenTo 9 := by decide
deriving DecidableEq

namespace Span

/-- The span of a number of nanoseconds. -/
def ofNanos (count : Nat) : Span where
  seconds := count / tenTo 9
  nanos := count % tenTo 9
  nanos_lt := Nat.mod_lt _ (by decide)

/-- The span of a number of milliseconds. -/
def ofMillis (count : Nat) : Span := ofNanos (count * tenTo 6)

/-- The span of a number of seconds. -/
def ofSeconds (count : Nat) : Span where
  seconds := count
  nanos := 0

/-- Whether no time passes in a span. -/
def isZero (span : Span) : Bool := span.seconds = 0 && span.nanos = 0

/-- The `places` digits of a decimal fraction `rest / 10 ^ places`, without trailing zeros. -/
def fractionDigits : Nat → Nat → List Char
  | 0, _ => []
  | places + 1, rest =>
    if rest = 0 then []
    else
      Char.ofNat ('0'.toNat + rest / tenTo places) :: fractionDigits places (rest % tenTo places)

/-- A whole number with a decimal fraction `rest / 10 ^ places` and a unit. -/
def inUnit (whole rest places : Nat) (unit : String) : String :=
  let fraction := fractionDigits places rest
  toString whole ++ (if fraction.isEmpty then "" else "." ++ String.ofList fraction) ++ unit

instance : Describe Span :=
  ⟨fun span =>
    if 0 < span.seconds then inUnit span.seconds span.nanos 9 "s"
    else if tenTo 6 ≤ span.nanos then inUnit (span.nanos / tenTo 6) (span.nanos % tenTo 6) 6 "ms"
    else if tenTo 3 ≤ span.nanos then inUnit (span.nanos / tenTo 3) (span.nanos % tenTo 3) 3 "µs"
    else inUnit span.nanos 0 0 "ns"⟩

end Span

end Mixnet
