import Mixnet.Chunk
import Mixnet.Error
import Mixnet.Slot

/-!
# Responses to events

Events reach a round under a tag.  A response says where an event with that tag goes: which phase
gates it, in which states that phase must be, and which phase it drives.

## Main definitions

* `Response`: where the events of a tag go
* `ResponseMap`: the responses of a round by tag
* `Event`: what an event carries
* `slotRange`: the chunk that the slots of an event cover
-/

namespace Mixnet

/-- Where the events of a tag go. -/
structure Response where
  /-- The phase whose state gates the event. -/
  source : PhaseKind
  /-- The states in which the event is let through. -/
  expected : List PhaseState
  /-- The phase that is driven. -/
  target : PhaseKind
deriving DecidableEq

namespace Response

/-- The response of a phase that is gated by its own state. -/
def own (phase : PhaseKind) (expected : List PhaseState) : Response := ⟨phase, expected, phase⟩

/-- Whether the event is let through while the source is in a state. -/
def accepts (response : Response) (state : PhaseState) : Bool := response.expected.contains state

end Response

/-- The responses of a round, at most one for each tag. -/
structure ResponseMap where
  /-- Tags and responses. -/
  entries : List (String × Response)
deriving DecidableEq

namespace ResponseMap

/-- No responses. -/
def empty : ResponseMap := ⟨[]⟩

/-- The response of a tag. -/
def get? (map : ResponseMap) (tag : String) : Option Response :=
  (map.entries.find? (·.1 = tag)).map (·.2)

/-- Registers a response and answers the one it replaces. -/
def insert (map : ResponseMap) (tag : String) (response : Response) :
    Option Response × ResponseMap :=
  (map.get? tag, ⟨map.entries.filter (·.1 ≠ tag) ++ [(tag, response)]⟩)

/-- The number of tags. -/
def size (map : ResponseMap) : Nat := map.entries.length

/-- Whether no tag is registered. -/
def isEmpty (map : ResponseMap) : Bool := map.entries.isEmpty

/-- The entries ordered by tag. -/
def sorted (map : ResponseMap) : List (String × Response) :=
  map.entries.mergeSort fun left right => !(decide (right.1 < left.1))

/-- Every phase kind that some response names, sources before targets. -/
def mentioned (map : ResponseMap) : List PhaseKind :=
  map.entries.flatMap fun entry => [entry.2.source, entry.2.target]

end ResponseMap

/-- What an event carries. -/
inductive Event where
  /-- Input slots for the target phase. -/
  | slots (slots : List Slot)
  /-- A request to start the target phase without input. -/
  | start
  /-- A peer's verification of the target phase. -/
  | verify
deriving DecidableEq

/-- Whether indices ascend one by one from a number on. -/
def ascendsFrom : Nat → List Slot → Bool
  | _, [] => true
  | index, slot :: rest => slot.index = index && ascendsFrom (index + 1) rest

/-- The chunk that the slots of an event cover.  Their indices ascend one by one and stay below the
batch size. -/
def slotRange (slots : List Slot) (batchSize : Nat) : Except (Failure RoundError) Chunk :=
  match slots with
  | [] => .error (.error .nonContiguousSlots)
  | first :: _ =>
    if ascendsFrom first.index slots then
      let last := first.index + (slots.length - 1)
      if last < batchSize then (Chunk.ofBounds first.index (last + 1)).mapError Failure.fault
      else .error (.error (.stream (.indexOutOfRange last batchSize)))
    else .error (.error .nonContiguousSlots)

end Mixnet
