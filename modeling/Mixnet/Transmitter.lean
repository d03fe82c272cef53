import Mixnet.BatchQueue
import Mixnet.Chunk
import Mixnet.Slot

/-!
# Transmitters

While a phase runs, a transmitter takes its finished chunks from the output sink, reads their slots,
and in the end hands them on.

## Main definitions

* `TransmitContext`: what a transmitter may know about the phase it serves
* `Transmitter`: which slots it reads, and what it does once the output has ended
* `Notice`, `PeerCall`: a peer that is told of the end of a round
* `Conclusion`: the end of a transmission, with everything that left the node
* `Transmission`: a transmission under way
* `Transmission.read`, `Transmission.conclude`: its two kinds of steps
* `Transmission.readAll`: the reading of all that is left
* `Transmitter.transmit`: a whole transmission over a given list of chunks

## Design notes

A transmitter is described by what it reads and by how it ends, not by its loop, because every loop
is the same: take a chunk, read, repeat until the output ends.  A slot that cannot be read ends the
transmission with that error.  A transmitter that does not wait for output ends before it.
-/

namespace Mixnet

/-- What a transmitter may know about the phase it serves. -/
structure TransmitContext where
  /-- The round. -/
  roundId : Nat
  /-- The phase. -/
  phase : PhaseKind
  /-- The nodes of the round. -/
  topology : Topology
  /-- The number of real slots. -/
  batchSize : Nat
  /-- A slot of the phase's stream in its wire form. -/
  message : Nat → Except StreamError Slot
  /-- Whether all output has been released. -/
  outputComplete : Bool

/-- How a transmission ends. -/
inductive TransmitResult where
  /-- The transmitter returned. -/
  | returned (result : Except TransportError Unit)
  /-- The transmitter died. -/
  | died

/-- How telling a peer can end. -/
inductive Notice where
  /-- The peer knows. -/
  | delivered
  /-- The peer could not be told. -/
  | refused (error : TransportError)
  /-- The notifier died. -/
  | died

/-- A call of the notifier. -/
structure PeerCall where
  /-- The position in the ring of the peer that is told. -/
  position : Nat
  /-- That peer. -/
  peer : NodeId
  /-- How the call ended. -/
  notice : Notice

/-- The end of a transmission. -/
structure Conclusion where
  /-- How it ended. -/
  result : TransmitResult
  /-- The queue of completed batches afterwards. -/
  completed : BatchQueue CompletedRound
  /-- The slots passed on to a receiver of the transmitter's own. -/
  delivered : Option (List Slot)
  /-- The calls by which peers were told of the end of the round, oldest first. -/
  notified : List PeerCall

/-- Sends the output of a phase wherever it goes next. -/
structure Transmitter where
  /-- Which slots of a finished chunk it reads, given the batch size.  Without this it does not wait
  for output. -/
  reads : Option (Nat → Chunk → List Nat)
  /-- What it does with the slots read, once the output has ended. -/
  conclude : TransmitContext → BatchQueue CompletedRound → List Slot → Conclusion

/-- A conclusion in which nothing leaves the node. -/
def Conclusion.silent (completed : BatchQueue CompletedRound) (result : TransmitResult) :
    Conclusion where
  result := result
  completed := completed
  delivered := none
  notified := []

namespace Transmitter

/-- A transmitter that reads no slot, takes all output, and ends with a given result. -/
def afterOutput (result : TransmitContext → Except TransportError Unit) : Transmitter where
  reads := some fun _ _ => []
  conclude := fun context completed _ => .silent completed (.returned (result context))

/-- A transmitter that does not wait for output. -/
def atOnce (result : TransmitResult) : Transmitter where
  reads := none
  conclude := fun _ completed _ => .silent completed result

/-- A transmitter that takes all output and sends nothing. -/
def drain : Transmitter := afterOutput fun _ => .ok ()

end Transmitter

/-! ## Transmissions -/

/-- A transmission under way: the slots read so far, or the error that stopped the reading. -/
structure Transmission where
  /-- The slots read, in the order in which they were read. -/
  slots : List Slot
  /-- The error of a slot that could not be read. -/
  error : Option StreamError

namespace Transmission

/-- A transmission that has read nothing. -/
def start : Transmission := ⟨[], none⟩

/-- Reads slots up to the first that cannot be read. -/
def readSlots (message : Nat → Except StreamError Slot) (transmission : Transmission) :
    List Nat → Transmission
  | [] => transmission
  | index :: rest =>
    match message index with
    | .ok slot => readSlots message { transmission with slots := transmission.slots ++ [slot] } rest
    | .error error => { transmission with error := some error }

/-- Reads what a transmitter wants of a finished chunk. -/
def read (transmitter : Transmitter) (context : TransmitContext) (transmission : Transmission)
    (chunk : Chunk) : Transmission :=
  match transmitter.reads with
  | none => transmission
  | some wanted =>
    readSlots context.message transmission (wanted context.batchSize chunk)

/-- Ends a transmission. -/
def conclude (transmitter : Transmitter) (context : TransmitContext)
    (completed : BatchQueue CompletedRound) (transmission : Transmission) : Conclusion :=
  match transmission.error with
  | some error => .silent completed (.returned (.error (.stream error)))
  | none => transmitter.conclude context completed transmission.slots

/-- Whether a transmission takes another chunk. -/
def isReading (transmitter : Transmitter) (transmission : Transmission) : Bool :=
  transmitter.reads.isSome && transmission.error.isNone

/-- Reads chunks for as long as the transmitter takes them.  Answers the chunks it leaves, too. -/
def readAll (transmitter : Transmitter) (context : TransmitContext) (transmission : Transmission) :
    List Chunk → Transmission × List Chunk
  | [] => (transmission, [])
  | chunk :: rest =>
    if transmission.isReading transmitter then
      readAll transmitter context (transmission.read transmitter context chunk) rest
    else (transmission, chunk :: rest)

end Transmission

/-- A whole transmission, over the chunks that the sink emits before it ends. -/
def Transmitter.transmit (transmitter : Transmitter) (context : TransmitContext)
    (completed : BatchQueue CompletedRound) (chunks : List Chunk) : Conclusion :=
  (Transmission.start.readAll transmitter context chunks).1.conclude transmitter context completed

end Mixnet
