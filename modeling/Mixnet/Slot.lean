/-!
# Slots

A slot is one message of a batch as it travels between nodes: its index and two payloads, each a
group element in its wire form.

## Main definitions

* `Slot`: a slot
* `CompletedRound`: the slots of a finished batch
-/

namespace Mixnet

/-- One message of a batch. -/
structure Slot where
  /-- The place of the message in the batch. -/
  index : Nat
  /-- The first payload. -/
  payloadA : List UInt8
  /-- The second payload. -/
  payloadB : List UInt8
deriving DecidableEq

/-- A slot without content. -/
def Slot.blank : Slot := ⟨0, [], []⟩

/-- A finished batch, ready for the gateway. -/
structure CompletedRound where
  /-- The round of the batch. -/
  roundId : Nat
  /-- Its slots, in order. -/
  slots : List Slot
deriving DecidableEq

/-- The bytes of a cell for a finished batch: its number, where its slots are, and the turn of the
cell. -/
def CompletedRound.cellBytes : Nat := 40

end Mixnet
