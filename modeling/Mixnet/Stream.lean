import Mixnet.RoundBuffer
import Mixnet.Slot

/-!
# Streams

The graph of a phase computes over a stream: the store of the phase's payloads, one pair of group
elements per slot.  A stream has no cells until it is linked to a round buffer, which happens once,
at the padded size of the graph.

## Main definitions

* `PayloadStream`: the stream of payload pairs
* `PayloadStream.link`: gives the stream its cells
* `PayloadStream.input`, `PayloadStream.output`: slots in and out
* `Stream`: what a graph can be given: a payload stream, or a stream that keeps nothing

## Design notes

A refused slot changes no cell: both payloads are decoded before either is written.
-/

namespace Mixnet

/-! ## Payload streams -/

/-- The cells of a linked stream. -/
structure LinkedPayloads where
  /-- The group of the payloads. -/
  group : CyclicGroup
  /-- The number of slots. -/
  size : Nat
  /-- The first payload of each slot. -/
  payloadA : GroupArray
  /-- The second payload of each slot. -/
  payloadB : GroupArray
deriving DecidableEq

/-- Which of the two payloads of a slot. -/
inductive PayloadSide where
  | a
  | b
deriving DecidableEq

namespace LinkedPayloads

/-- Cells of identities of a group. -/
def identities (group : CyclicGroup) (size : Nat) : LinkedPayloads where
  group := group
  size := size
  payloadA := .filled size CyclicGroup.identity
  payloadB := .filled size CyclicGroup.identity

/-- The array of one side. -/
def array (cells : LinkedPayloads) : PayloadSide → GroupArray
  | .a => cells.payloadA
  | .b => cells.payloadB

/-- Puts another array on one side. -/
def setArray (cells : LinkedPayloads) (side : PayloadSide) (array : GroupArray) :
    LinkedPayloads :=
  match side with
  | .a => { cells with payloadA := array }
  | .b => { cells with payloadB := array }

/-- Refuses an index without a slot. -/
def checkIndex (cells : LinkedPayloads) (index : Nat) : Except StreamError Unit :=
  if index < cells.size then .ok () else .error (.indexOutOfRange index cells.size)

/-- Refuses a payload that does not have the width of the group. -/
def checkWidth (cells : LinkedPayloads) (label : String) (payload : List UInt8) :
    Except StreamError Unit :=
  let width := cells.group.byteLength
  if payload.length = width then .ok ()
  else .error (.malformed s!"{label} is {payload.length} bytes, expected {width}")

/-- Decodes a slot into the cells at `index`. -/
def input (cells : LinkedPayloads) (index : Nat) (slot : Slot) :
    Except StreamError LinkedPayloads := do
  cells.checkIndex index
  cells.checkWidth "payload A" slot.payloadA
  cells.checkWidth "payload B" slot.payloadB
  let first ← cells.group.decode? slot.payloadA
  let second ← cells.group.decode? slot.payloadB
  return { cells with
    payloadA := cells.payloadA.put index first
    payloadB := cells.payloadB.put index second }

/-- Encodes the cells at `index`. -/
def output (cells : LinkedPayloads) (index : Nat) : Except StreamError Slot := do
  cells.checkIndex index
  return {
    index
    payloadA := cells.group.encode (cells.payloadA.valueAt index)
    payloadB := cells.group.encode (cells.payloadB.valueAt index) }

end LinkedPayloads

/-- A stream with two payloads per slot. -/
structure PayloadStream where
  /-- The cells, once there are any. -/
  cells : Option LinkedPayloads
deriving DecidableEq

namespace PayloadStream

/-- A stream that is not linked yet. -/
def unlinked : PayloadStream := ⟨none⟩

/-- The name of the stream. -/
def name : String := "PayloadStream"

/-- The name under which a kernel asks for this type of stream. -/
def typeName : String := "cmix_node::stream::PayloadStream"

/-- The cells, or the error of a stream without any. -/
def linked (stream : PayloadStream) : Except StreamError LinkedPayloads :=
  match stream.cells with
  | some cells => .ok cells
  | none => .error .notLinked

/-- Whether the stream has cells. -/
def isLinked (stream : PayloadStream) : Bool := stream.cells.isSome

/-- The number of slots, zero before linking. -/
def size (stream : PayloadStream) : Nat :=
  match stream.cells with
  | some cells => cells.size
  | none => 0

/-- Gives the stream `size` slots of identities of the buffer's group.  Linking a second time is a
fault. -/
def link (stream : PayloadStream) (size : Nat) (buffer : RoundBuffer) :
    Except Fault PayloadStream := do
  Invariant.streamRelink.require (!stream.isLinked) "stream linked twice" (some name)
  return ⟨some (.identities buffer.group size)⟩

/-- Decodes a slot into the cells at `index`. -/
def input (stream : PayloadStream) (index : Nat) (slot : Slot) :
    Except StreamError PayloadStream := do
  let cells ← stream.linked
  return ⟨some (← cells.input index slot)⟩

/-- Encodes the cells at `index`. -/
def output (stream : PayloadStream) (index : Nat) : Except StreamError Slot := do
  let cells ← stream.linked
  cells.output index

end PayloadStream

/-! ## Streams of a graph -/

/-- What the graph of a phase computes over. -/
inductive Stream where
  /-- Payload pairs. -/
  | payload (stream : PayloadStream)
  /-- Nothing: every slot is taken in, none is kept, and blank ones come out. -/
  | blank (name : String)
deriving DecidableEq

namespace Stream

/-- The name of the stream. -/
def name : Stream → String
  | payload _ => PayloadStream.name
  | blank name => name

/-- Whether the stream is one of payload pairs, linked or not. -/
def isPayload : Stream → Bool
  | payload _ => true
  | blank _ => false

/-- Links the stream to a round buffer. -/
def link (stream : Stream) (size : Nat) (buffer : RoundBuffer) : Except Fault Stream :=
  match stream with
  | payload cells => (cells.link size buffer).map payload
  | blank name => .ok (blank name)

/-- Takes a slot in. -/
def input (stream : Stream) (index : Nat) (slot : Slot) : Except StreamError Stream :=
  match stream with
  | payload cells => (cells.input index slot).map payload
  | blank name => .ok (blank name)

/-- Reads a slot. -/
def output (stream : Stream) (index : Nat) : Except StreamError Slot :=
  match stream with
  | payload cells => cells.output index
  | blank _ => .ok { Slot.blank with index }

end Stream

end Mixnet
