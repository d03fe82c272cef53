import Mixnet.Word

/-!
# Capacities

A bounded queue takes all its room when it is made, so a capacity can be too large before anything
is put into the queue.

## Main definitions

* `Capacity.reserve`: the room of a queue, or the fault of one that cannot be had

## Design notes

The cells of a queue are used in turns.  A turn is counted in steps of a power of two above the
capacity, and twice that step has to be a machine word.  All cells together have to fit into half
the address space.
-/

namespace Mixnet.Capacity

/-- The room for `capacity` cells of `cellBytes` bytes each. -/
def reserve (cellBytes capacity : Nat) : Except Fault Unit :=
  if Word.limit 62 ≤ capacity then .error .capacityTooLarge
  else if Word.limit 63 ≤ capacity * cellBytes then .error .roomOverflow
  else .ok ()

end Mixnet.Capacity
