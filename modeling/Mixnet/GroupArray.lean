import Mixnet.Fault

/-!
# Arrays of group values

Kernels compute over arrays with one group value per slot.

## Main definitions

* `GroupArray`: the cells
* `GroupArray.get`, `GroupArray.set`, `GroupArray.update`: one cell, or the fault of a bad index
* `GroupArray.fill`: every cell at once
-/

namespace Mixnet

/-- A fixed-length array of group values, one for each slot. -/
structure GroupArray where
  /-- The values, by slot index. -/
  cells : Array Nat
deriving DecidableEq

namespace GroupArray

/-- An array of `length` equal cells. -/
def filled (length value : Nat) : GroupArray := ⟨Array.replicate length value⟩

/-- The number of cells. -/
def size (array : GroupArray) : Nat := array.cells.size

/-- Whether there is no cell. -/
def isEmpty (array : GroupArray) : Bool := array.cells.isEmpty

/-- The value at an index. -/
def get (array : GroupArray) (index : Nat) : Except Fault Nat :=
  match array.cells[index]? with
  | some value => .ok value
  | none => .error (.indexOutOfBounds array.size index)

/-- The value at an index that is known to be in bounds; past the end, the identity. -/
def valueAt (array : GroupArray) (index : Nat) : Nat := array.cells.getD index 1

/-- The array with another value at an index; past the end nothing changes. -/
def put (array : GroupArray) (index value : Nat) : GroupArray :=
  ⟨array.cells.setIfInBounds index value⟩

/-- The array with another value at an index. -/
def set (array : GroupArray) (index value : Nat) : Except Fault GroupArray :=
  if index < array.size then .ok (array.put index value)
  else .error (.indexOutOfBounds array.size index)

/-- The array with the value at an index replaced by its image, which is computed only if the index
is in bounds. -/
def update (array : GroupArray) (index : Nat) (image : Nat → Except Fault Nat) :
    Except Fault GroupArray := do
  let value ← array.get index
  array.set index (← image value)

/-- The array with every cell set to `value`. -/
def fill (array : GroupArray) (value : Nat) : GroupArray := filled array.size value

end GroupArray

end Mixnet
