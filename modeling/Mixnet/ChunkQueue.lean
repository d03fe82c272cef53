import Mixnet.Capacity
import Mixnet.Chunk

/-!
# Queues of chunks

Work waits for a module in a first-in first-out queue of chunks.  Closing a queue ends it: nothing
more is accepted, and readers learn, once they have taken what is left, that nothing more will come.

## Main definitions

* `ChunkQueue`: the chunks waiting, and whether more may come
* `ChunkQueue.ofCapacity`: a queue of any capacity, or the fault of one too large
* `ChunkQueue.offer`: puts a chunk in, unless the queue is closed or full
* `ChunkQueue.take`: takes the oldest chunk out
* `ChunkQueue.close`: ends the queue

## Design notes

Operations never wait.  Where a caller would have to wait, because an open queue is full or empty,
the outcome says so.
-/

namespace Mixnet

/-- A first-in first-out queue of chunks. -/
structure ChunkQueue where
  /-- The chunks waiting, oldest first. -/
  chunks : List Chunk
  /-- Whether the queue has been closed. -/
  closed : Bool
  /-- How many chunks it holds at most. -/
  capacity : Nat
deriving DecidableEq

namespace ChunkQueue

/-- An open queue without chunks; it holds at least one. -/
def create (capacity : Nat) : ChunkQueue where
  chunks := []
  closed := false
  capacity := max capacity 1

/-- The bytes of a cell for a chunk: its two bounds, and the turn of the cell. -/
def cellBytes : Nat := 16

/-- An open queue without chunks, if there is room for one of that capacity. -/
def ofCapacity (capacity : Nat) : Except Fault ChunkQueue := do
  Capacity.reserve cellBytes (max capacity 1)
  return create capacity

/-- The number of chunks waiting. -/
def size (queue : ChunkQueue) : Nat := queue.chunks.length

/-- Whether no chunk waits. -/
def isEmpty (queue : ChunkQueue) : Bool := queue.chunks.isEmpty

/-- What became of a chunk offered to a queue. -/
inductive Offer where
  /-- It was put in. -/
  | sent
  /-- The queue is closed. -/
  | closed
  /-- The queue is open and has no room: a sender would wait. -/
  | full
deriving DecidableEq

/-- Puts a chunk at the end of an open queue with room. -/
def offer (queue : ChunkQueue) (chunk : Chunk) : Offer × ChunkQueue :=
  if queue.closed then (.closed, queue)
  else if queue.capacity ≤ queue.size then (.full, queue)
  else (.sent, { queue with chunks := queue.chunks ++ [chunk] })

/-- What a reader finds in a queue. -/
inductive Taken where
  /-- The oldest chunk. -/
  | chunk (chunk : Chunk)
  /-- Nothing yet: a reader would wait. -/
  | empty
  /-- Nothing, and nothing will come. -/
  | drained
deriving DecidableEq

/-- Takes the oldest chunk out. -/
def take (queue : ChunkQueue) : Taken × ChunkQueue :=
  match queue.chunks with
  | chunk :: rest => (.chunk chunk, { queue with chunks := rest })
  | [] => (if queue.closed then .drained else .empty, queue)

/-- Closes the queue; answers whether it was open. -/
def close (queue : ChunkQueue) : Bool × ChunkQueue :=
  (!queue.closed, { queue with closed := true })

/-- Whether the queue is closed and nothing waits in it. -/
def isDrained (queue : ChunkQueue) : Bool := queue.closed && queue.chunks.isEmpty

end ChunkQueue

end Mixnet
