import Mixnet.Kernel

/-!
# Kernels of blinding

The payloads of a round are blinded by secret factors, permuted, and unblinded with the inverses of
the same factors.  These kernels are the slotwise steps of that.

## Main definitions

* `Kernel.blind`, `Kernel.unblind`: multiply the first payload by a factor, or by its inverse
* `Kernel.invertBlinds`: computes the inverses
* `Kernel.square`, `Kernel.mix`: combine payloads with each other
-/

namespace Mixnet.Kernel

/-- The vector of blinding factors. -/
def blindName : VectorName := ⟨.direct, .r⟩

/-- The vector of their inverses. -/
def unblindName : VectorName := ⟨.inverse, .r⟩

/-- Replaces one payload of a slot by its image. -/
def updatePayload (workspace : PayloadWorkspace) (side : PayloadSide) (slot : Nat)
    (image : Nat → Except Fault Nat) : Except Fault PayloadWorkspace := do
  let array ← (workspace.cells.array side).update slot image
  return { workspace with cells := workspace.cells.setArray side array }

/-- Squares the first payload. -/
def square : Kernel :=
  slotwise "square" fun slot workspace =>
    updatePayload workspace .a slot fun value => workspace.cells.group.multiply value value

/-- Multiplies the second payload by the first. -/
def mix : Kernel :=
  slotwise "mix" fun slot workspace => do
    let first ← workspace.cells.payloadA.get slot
    updatePayload workspace .b slot (workspace.cells.group.multiply · first)

/-- Multiplies the first payload by an entry of one of the round's vectors. -/
def multiplyBy (name : String) (factors : VectorName) : Kernel :=
  slotwise name fun slot workspace => do
    let factor ← (workspace.buffer.vector factors).get slot
    updatePayload workspace .a slot (workspace.cells.group.multiply · factor)

/-- Blinds the first payload. -/
def blind : Kernel := multiplyBy "blind" blindName

/-- Takes the blinding off again. -/
def unblind : Kernel := multiplyBy "unblind" unblindName

/-- Computes the inverse of each blinding factor. -/
def invertBlinds : Kernel :=
  slotwise "invert_r" fun slot workspace => do
    let factor ← (workspace.buffer.vector blindName).get slot
    let inverse ← workspace.buffer.group.inverse factor
    let buffer ← workspace.buffer.modifyVector unblindName (·.set slot inverse)
    return { workspace with buffer }

end Mixnet.Kernel
