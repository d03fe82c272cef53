import Mixnet.Capacity
import Mixnet.Error

/-!
# Handoff queues

The node hands finished batches to its gateway, and requests for new ones, through bounded queues.
Neither end ever waits: a queue without room refuses, and an empty one has nothing to give.

## Main definitions

* `BatchQueue`: the items handed over and not yet taken
* `BatchQueue.ofCapacity`: a queue of any capacity, or the fault of one too large
* `BatchQueue.send`, `BatchQueue.receive`: the two ends
* `BatchRequest`: what the node asks its gateway for
-/

namespace Mixnet

/-- A bounded first-in first-out queue. -/
structure BatchQueue (α : Type) where
  /-- The items waiting, oldest first. -/
  items : List α
  /-- How many items it holds at most; a queue of capacity zero refuses everything. -/
  capacity : Nat

namespace BatchQueue

variable {α : Type}

/-- A queue without items. -/
def create (capacity : Nat) : BatchQueue α where
  items := []
  capacity := capacity

/-- A queue without items, if there is room for so many cells of a size. -/
def ofCapacity (cellBytes capacity : Nat) : Except Fault (BatchQueue α) := do
  Capacity.reserve cellBytes capacity
  return create capacity

/-- The number of items waiting. -/
def size (queue : BatchQueue α) : Nat := queue.items.length

/-- Whether no item waits. -/
def isEmpty (queue : BatchQueue α) : Bool := queue.items.isEmpty

/-- Puts an item at the end, if there is room. -/
def send (queue : BatchQueue α) (item : α) : Except QueueError Unit × BatchQueue α :=
  if queue.size < queue.capacity then (.ok (), { queue with items := queue.items ++ [item] })
  else (.error .full, queue)

/-- Takes the oldest item out. -/
def receive (queue : BatchQueue α) : Option α × BatchQueue α :=
  match queue.items with
  | [] => (none, queue)
  | item :: rest => (some item, { queue with items := rest })

end BatchQueue

/-- The node asks its gateway for a new batch. -/
structure BatchRequest where
  /-- The round the batch is for. -/
  roundId : Nat
  /-- The number of slots wanted. -/
  batchSize : Nat
deriving DecidableEq

/-- The bytes of a cell for a request: its number and its size, and the turn of the cell. -/
def BatchRequest.cellBytes : Nat := 24

end Mixnet
