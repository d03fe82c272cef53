import Mixnet.Binary32
import Mixnet.Chunk

/-!
# Assignment accounting

A module works on assignments: consecutive slot ranges of one fixed size that together cover the
expanded batch.  The modules before it report the chunks they finished, each of which adds weight to
the assignments it overlaps.  An assignment is full once every input has reported every slot of it,
and a start threshold can hold full assignments back until enough of them have gathered.

## Main definitions

* `AssignmentList`: the weights received, and the state of the gate
* `AssignmentList.create`: the list of a module, or the fault of a bad declaration
* `AssignmentList.absorb`: adds the weight of a chunk and collects what became full
* `AssignmentList.gate`: decides which full assignments may leave
* `AssignmentList.prime`: both, which is what a report does
* `AssignmentList.complete`: counts released assignments and tells when all of them have gone

## Design notes

Every operation answers its outcome together with the list afterwards, because a fault does not undo
what was done before it: weight added stays added.  A stored counter keeps the low bits of its sum
even when the sum itself is a fault.
-/

namespace Mixnet

/-- The accounting of one module's assignments. -/
structure AssignmentList where
  /-- The weight received by each assignment. -/
  counts : Array Nat
  /-- The number of slots of an assignment. -/
  assignmentSize : Nat
  /-- The number of slots the module hands on at a time. -/
  chunkSize : Nat
  /-- The weight of a full assignment. -/
  maxCount : Nat
  /-- How many assignments must be full before any is released. -/
  threshold : Nat
  /-- How many assignments have become full. -/
  primed : Nat
  /-- How many assignments have been released and queued. -/
  completed : Nat
  /-- Full assignments that wait for the threshold. -/
  waiting : List Chunk
deriving DecidableEq

namespace AssignmentList

/-! ## Creation -/

/-- The number of assignments that cover `expanded` slots; size zero is read as one. -/
def assignmentCount (expanded assignmentSize : Nat) : Nat :=
  (expanded + max assignmentSize 1 - 1) / max assignmentSize 1

/-- The number of assignments a start threshold stands for. -/
def thresholdCount (threshold : Binary32) (count : Nat) : Nat :=
  min (threshold.scaledCeiling count) count

/-- The list of a module with `inputs` modules before it over `expanded` slots.  A module without
inputs is fed from outside, which counts as one input. -/
def create (expanded assignmentSize chunkSize inputs : Nat) (threshold : Binary32) :
    Except Fault AssignmentList := do
  Invariant.thresholdRange.require threshold.isFraction "start threshold must lie in [0, 1]"
    (some "AssignmentList::new")
  let count := assignmentCount expanded assignmentSize
  let maxCount ← Word.product 32 assignmentSize (Word.narrow 32 (max inputs 1))
  return {
    counts := Array.replicate count 0
    assignmentSize, chunkSize, maxCount
    threshold := thresholdCount threshold count
    primed := 0
    completed := 0
    waiting := []
  }

/-- The number of assignments. -/
def size (list : AssignmentList) : Nat := list.counts.size

/-- Whether the list covers no slot. -/
def isEmpty (list : AssignmentList) : Bool := list.counts.isEmpty

/-- The first slot of each assignment. -/
def starts (list : AssignmentList) : List Nat :=
  (List.range list.size).map (· * list.assignmentSize)

/-! ## Weight -/

/-- The context named by every fault of a report. -/
def primeContext : Option String := some "AssignmentList::prime_outputs"

/-- Adds `weight` to one assignment.  Answers whether that made it full; the stored weight keeps its
low bits even if the sum is no word. -/
def addWeight (list : AssignmentList) (index weight : Nat) :
    Except Fault Bool × AssignmentList :=
  match list.counts[index]? with
  | none =>
    (.error (.violated .weightOverflow "chunk extends past the last assignment" primeContext), list)
  | some before =>
    let stored := { list with
      counts := list.counts.setIfInBounds index (Word.narrow 32 (before + weight)) }
    match Word.sum 32 before weight with
    | .error fault => (.error fault, stored)
    | .ok count =>
      if count ≤ stored.maxCount then (.ok (count = stored.maxCount), stored)
      else
        (.error (.violated .weightOverflow "assignment weight exceeded max count" primeContext),
          stored)

/-- The first slot after the assignment that holds `position`, as a word. -/
def edgeAfter (list : AssignmentList) (position : Nat) : Except Fault Nat :=
  Word.product 32 (position / list.assignmentSize + 1) list.assignmentSize

/-- The edge after a position lies beyond it, so a step to the edge always makes way. -/
theorem lt_of_edgeAfter {list : AssignmentList} {position edge : Nat}
    (sized : list.assignmentSize ≠ 0) (found : list.edgeAfter position = .ok edge) :
    position < edge := by
  unfold edgeAfter Word.product at found
  split at found
  · injection found with found
    rw [← found, Nat.mul_comm]
    exact Nat.lt_mul_div_succ position (Nat.pos_of_ne_zero sized)
  · cases found

/-- Adds the weight of `remaining` slots from `position` on, assignment by assignment, and answers
the assignments that became full behind those in `ready`, which holds the newest first. -/
def absorb (list : AssignmentList) (position remaining : Nat) (ready : List Chunk) :
    Except Fault (List Chunk) × AssignmentList :=
  if _ : remaining = 0 then (.ok ready.reverse, list)
  else if unsized : list.assignmentSize = 0 then (.error .zeroDivisor, list)
  else
    let index := position / list.assignmentSize
    if list.size ≤ index then
      (.error (.violated .weightOverflow "chunk extends past the last assignment" primeContext),
        list)
    else
      match found : list.edgeAfter position with
      | .error fault => (.error fault, list)
      | .ok edge =>
        have := lt_of_edgeAfter unsized found
        let weight := min (edge - position) remaining
        match list.addWeight index weight with
        | (.error fault, stored) => (.error fault, stored)
        | (.ok false, stored) => stored.absorb (position + weight) (remaining - weight) ready
        | (.ok true, stored) =>
          match Chunk.ofLength (index * list.assignmentSize) list.assignmentSize with
          | .error fault => (.error fault, stored)
          | .ok full =>
            stored.absorb (position + weight) (remaining - weight) (full :: ready)
termination_by remaining
decreasing_by all_goals omega

/-! ## The gate -/

/-- Lets full assignments through, or parks them below the threshold.  The report that reaches the
threshold releases everything parked together with its own, in ascending order. -/
def gate (list : AssignmentList) (ready : List Chunk) :
    Except Fault (List Chunk) × AssignmentList :=
  if ready.isEmpty then (.ok [], list)
  else
    let counted := { list with primed := Word.narrow 32 (list.primed + ready.length) }
    match Word.sum 32 list.primed ready.length with
    | .error fault => (.error fault, counted)
    | .ok primed =>
      if primed < list.threshold then
        (.ok [], { counted with waiting := list.waiting ++ ready })
      else if list.primed < list.threshold then
        (.ok (Chunk.sorted (list.waiting ++ ready)), { counted with waiting := [] })
      else (.ok ready, counted)

/-- Reports a finished chunk: adds its weight and answers the assignments released by it. -/
def prime (list : AssignmentList) (chunk : Chunk) :
    Except Fault (List Chunk) × AssignmentList :=
  match list.absorb chunk.start chunk.length [] with
  | (.error fault, stored) => (.error fault, stored)
  | (.ok ready, stored) => stored.gate ready

/-! ## Completion -/

/-- Counts `released` assignments as queued, and answers whether every assignment has been. -/
def complete (list : AssignmentList) (released : Nat) : Except Fault Bool × AssignmentList :=
  if released = 0 then (.ok false, list)
  else
    let counted := { list with completed := Word.narrow 32 (list.completed + released) }
    match Word.sum 32 list.completed released with
    | .error fault => (.error fault, counted)
    | .ok completed =>
      if completed ≤ list.size then (.ok (completed = list.size), counted)
      else
        (.error (.violated .completionOverflow "more assignments completed than exist"
          (some "AssignmentList::denote_completed")), counted)

/-- Released assignments never outnumber full ones, nor full ones all there are. -/
def isConsistent (list : AssignmentList) : Bool :=
  list.completed ≤ list.primed && list.primed ≤ list.size

end AssignmentList

end Mixnet
