import Mixnet.Word
import Mixnet.Text.Description

/-!
# Chunks

A chunk is a half-open range of slot indices.  It is the unit in which input arrives, in which work
moves between modules, and in which finished output leaves a graph.

## Main definitions

* `Chunk`: a range whose bounds are 32-bit words in order
* `Chunk.ofBounds`, `Chunk.ofLength`: the two ways to make one, and the faults they can meet
* `Chunk.slots`: the indices a chunk covers
* `Chunk.pieces`: a chunk cut into consecutive pieces of a given size

## Design notes

Order and width of the bounds are part of the type, so no later operation checks them again: a
length never falls below zero, and a cut inside a chunk never leaves the word.
-/

namespace Mixnet

open Mixnet.Text

/-- A half-open range of slot indices. -/
structure Chunk where
  /-- The first index covered. -/
  start : Nat
  /-- The first index not covered. -/
  stop : Nat
  start_le_stop : start ≤ stop := by omega
  stop_lt : stop < Word.limit 32 := by decide
deriving DecidableEq

namespace Chunk

/-- The chunk that covers nothing, at index zero. -/
def empty : Chunk where
  start := 0
  stop := 0

/-- The chunk between two bounds.  Bounds in the wrong order are a fault. -/
def ofBounds (start stop : Nat) : Except Fault Chunk :=
  if fits : stop < Word.limit 32 then
    if ordered : start ≤ stop then .ok ⟨start, stop, ordered, fits⟩
    else .error (.reversedChunk start stop)
  else .error .sumOverflow

/-- The chunk of `length` slots from `start` on. -/
def ofLength (start length : Nat) : Except Fault Chunk := do
  ofBounds start (← Word.sum 32 start length)

/-- The number of slots covered. -/
def length (chunk : Chunk) : Nat := chunk.stop - chunk.start

/-- Whether no slot is covered. -/
def isEmpty (chunk : Chunk) : Bool := chunk.start = chunk.stop

/-- The slot indices covered, ascending. -/
def slots (chunk : Chunk) : List Nat := List.range' chunk.start chunk.length

/-- Whether a chunk covers an index. -/
def covers (chunk : Chunk) (index : Nat) : Bool := chunk.start ≤ index && index < chunk.stop

/-- Chunks are ordered by their first index, then by their end. -/
def precedes (left right : Chunk) : Bool :=
  left.start < right.start || (left.start = right.start && left.stop ≤ right.stop)

/-- A list of chunks in ascending order. -/
def sorted (chunks : List Chunk) : List Chunk := chunks.mergeSort precedes

/-- A chunk cut into consecutive pieces of `size` slots; the last may be shorter.  Size zero is read
as one. -/
def pieces (chunk : Chunk) (size : Nat) : List Chunk :=
  if chunk.start < chunk.stop then
    have ordered := chunk.start_le_stop
    have bounded := chunk.stop_lt
    let cut := min (chunk.start + max size 1) chunk.stop
    { start := chunk.start, stop := cut, start_le_stop := by omega, stop_lt := by omega } ::
      pieces { start := cut, stop := chunk.stop, start_le_stop := by omega, stop_lt := bounded }
        size
  else []
termination_by chunk.stop - chunk.start
decreasing_by omega

/-- The text of a chunk: its bounds between the brackets of a half-open interval. -/
def text (chunk : Chunk) : String := s!"[{chunk.start},{chunk.stop})"

instance : Describe Chunk :=
  ⟨fun chunk => record "Chunk" [("begin", describe chunk.start), ("end", describe chunk.stop)]⟩

/-! ## Laws of the two constructors -/

theorem ofBounds_eq_ok {start stop : Nat} (ordered : start ≤ stop) (fits : stop < Word.limit 32) :
    ofBounds start stop = .ok ⟨start, stop, ordered, fits⟩ := by
  simp [ofBounds, ordered, fits]

theorem ofLength_eq_ok {start length : Nat} (fits : start + length < Word.limit 32) :
    ofLength start length = .ok ⟨start, start + length, Nat.le_add_right _ _, fits⟩ := by
  simp [ofLength, Word.sum_eq_ok fits, ofBounds_eq_ok (Nat.le_add_right start length) fits,
    bind, Except.bind]

theorem mem_slots {chunk : Chunk} {index : Nat} :
    index ∈ chunk.slots ↔ chunk.start ≤ index ∧ index < chunk.stop := by
  have := chunk.start_le_stop
  simp only [slots, length, List.mem_range'_1]
  omega

end Chunk

end Mixnet
