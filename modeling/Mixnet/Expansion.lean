import Mixnet.Word

/-!
# Expanding a batch

A graph works on whole assignments and chunks, so a batch is padded until every size declared in the
graph divides it.  The expanded size is the least multiple of all those sizes that holds the batch.

## Main definitions

* `Expansion.commonMultiple`: the least common multiple of the sizes, as long as it is a word
* `expandBatchSize`: the expanded size of a batch, or the fault
-/

namespace Mixnet

/-- The least common multiple of `start` and all non-zero sizes, given up as soon as it exceeds a
32-bit word. -/
def Expansion.commonMultiple (start : Nat) : List Nat → Option Nat
  | [] => some start
  | size :: rest =>
    if size = 0 then commonMultiple start rest
    else
      let multiple := Nat.lcm start size
      if multiple < Word.limit 32 then commonMultiple multiple rest else none

/-- The least multiple of `step` that is at least `value`. -/
def Expansion.roundUp (value step : Nat) : Nat := (value + step - 1) / step * step

/-- The least multiple of every non-zero size and of the minimum slot size that holds `batch` slots.
A minimum of zero is read as one.  A multiple that is not a 32-bit word is a fault of the wiring. -/
def expandBatchSize (batch : Nat) (sizes : List Nat) (minSlot : Nat) : Except Fault Nat :=
  match (Expansion.commonMultiple (max minSlot 1) sizes).map (Expansion.roundUp batch) with
  | some expanded =>
    if expanded < Word.limit 32 then .ok expanded else .error overflow
  | none => .error overflow
where
  /-- The fault of a batch whose expansion does not fit. -/
  overflow : Fault :=
    .violated .graphShape "expanded batch size overflows u32"
      (some s!"batch {batch}, min slot {minSlot}")

end Mixnet
