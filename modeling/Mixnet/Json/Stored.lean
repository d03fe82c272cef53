import Mixnet.BatchQueue
import Mixnet.Config
import Mixnet.Json.Field

/-!
# Stored forms

Slots, batches, topologies and settings can be stored as JSON and read again.  A stored form is an
object with a field for each part of the value.  Reading ignores fields it does not know, those of a
span apart, and refuses a form in which a field is missing or has another type.

## Main definitions

* `Slot.store`, `Slot.load?`, and so on: the two directions for each type
* `NodeConfig.load?`: settings, where a missing field keeps its default
* `NodeConfig.report`: settings as an operator sees them

## Design notes

A refusal gives no reason: what is stored was written by a program.
-/

namespace Mixnet

namespace Json

/-- A stored field. -/
def load? {α : Type} (decode : Json → Option α) (name : String) (json : Json) : Option α :=
  (json.get? name).bind decode

/-- A stored field that can be missing. -/
def loadOr {α : Type} (decode : Json → Option α) (name : String) (fallback : α) (json : Json) :
    Option α :=
  match json.get? name with
  | none => some fallback
  | some value => decode value

/-- A byte string as the list of its bytes. -/
def storeBytes (bytes : List UInt8) : Json := ofNats (bytes.map UInt8.toNat)

/-- Reads a byte string. -/
def loadBytes? (json : Json) : Option (List UInt8) :=
  (json.list? (word? 8)).map (·.map UInt8.ofNat)

/-- A whole number below zero, given by its sign and digits. -/
def negative? (text : String) : Option Nat :=
  match text.toList with
  | '-' :: digits =>
    let value := (Binary32.readDigits digits).1
    if digits.all Char.isDigit && 0 < value && value ≤ Word.limit 63 then some value else none
  | _ => none

/-- A stored binary32 number.  A whole number that is a machine word is rounded once, any other
number is rounded to binary64 first. -/
def loadBinary32? (json : Json) : Option Binary32 :=
  match json, json.word? 64 with
  | number _, some value => some (Binary32.ofDecimal false value 0)
  | number text, none =>
    match negative? text with
    | some value => some (Binary32.ofDecimal true value 0)
    | none => json.binary32?
  | _, _ => none

end Json

/-! ## Slots and batches -/

namespace Slot

/-- The stored form of a slot. -/
def store (slot : Slot) : Json := .object [("index", slot.index),
  ("payload_a", Json.storeBytes slot.payloadA), ("payload_b", Json.storeBytes slot.payloadB)]

/-- Reads a slot. -/
def load? (json : Json) : Option Slot := do
  return {
    index := ← json.load? (Json.word? 32) "index"
    payloadA := ← json.load? Json.loadBytes? "payload_a"
    payloadB := ← json.load? Json.loadBytes? "payload_b" }

end Slot

namespace CompletedRound

/-- The stored form of a finished batch. -/
def store (round : CompletedRound) : Json := .object [("round_id", round.roundId),
  ("slots", Json.ofList Slot.store round.slots)]

/-- Reads a finished batch. -/
def load? (json : Json) : Option CompletedRound := do
  return {
    roundId := ← json.load? (Json.word? 64) "round_id"
    slots := ← json.load? (Json.list? Slot.load?) "slots" }

end CompletedRound

namespace BatchRequest

/-- The stored form of a request. -/
def store (request : BatchRequest) : Json := .object [("round_id", request.roundId),
  ("batch_size", request.batchSize)]

/-- Reads a request. -/
def load? (json : Json) : Option BatchRequest := do
  return {
    roundId := ← json.load? (Json.word? 64) "round_id"
    batchSize := ← json.load? (Json.word? 32) "batch_size" }

end BatchRequest

/-! ## Topologies -/

namespace NodeId

/-- The stored form of a node's name. -/
def store (id : NodeId) : Json := id.name

/-- Reads a node's name. -/
def load? (json : Json) : Option NodeId := json.text?.map NodeId.mk

end NodeId

namespace Topology

/-- The stored form of a topology. -/
def store (topology : Topology) : Json :=
  .object [("nodes", Json.ofList NodeId.store topology.nodes), ("local", topology.localIndex)]

/-- Reads a topology.  Nothing promises that the local position lies in the ring. -/
def load? (json : Json) : Option Topology := do
  return {
    nodes := ← json.load? (Json.list? NodeId.load?) "nodes"
    localIndex := ← json.load? (Json.word? 64) "local" }

end Topology

/-! ## Settings -/

namespace Span

/-- The stored form of a span. -/
def store (span : Span) : Json := .object [("secs", span.seconds), ("nanos", span.nanos)]

/-- Reads a span.  It has no other fields than its two.  Nanoseconds beyond a second are carried, as
long as the seconds stay a word. -/
def load? (json : Json) : Option Span := do
  guard (json.names.all ["secs", "nanos"].contains)
  let seconds ← json.load? (Json.word? 64) "secs"
  let nanos ← json.load? (Json.word? 32) "nanos"
  if seconds + nanos / tenTo 9 < Word.limit 64 then some (.ofNanos (seconds * tenTo 9 + nanos))
  else none

end Span

namespace NodeConfig

/-- Reads settings; a missing field keeps its default. -/
def load? (defaults : NodeConfig) (json : Json) : Option NodeConfig := do
  let .object _ := json | none
  return {
    completedCapacity :=
      ← json.loadOr (Json.word? 64) "completed_batch_capacity" defaults.completedCapacity
    requestCapacity :=
      ← json.loadOr (Json.word? 64) "request_batch_capacity" defaults.requestCapacity
    phaseTimeout := ← json.loadOr Span.load? "phase_timeout" defaults.phaseTimeout
    killTimeout := ← json.loadOr Span.load? "kill_timeout" defaults.killTimeout
    defaultThreads := ← json.loadOr (Json.word? 8) "default_num_threads" defaults.defaultThreads
    minSlotSize := ← json.loadOr (Json.word? 32) "min_slot_size" defaults.minSlotSize
    outputThreshold :=
      ← json.loadOr Json.loadBinary32? "output_threshold" defaults.outputThreshold }

/-- Settings as an operator sees them: the threshold is written out, and the number of workers is
left out if it was left to the machine. -/
def report (config : NodeConfig) (threadsChosen : Bool) : Json := .object [
  ("completed_batch_capacity", config.completedCapacity),
  ("request_batch_capacity", config.requestCapacity),
  ("phase_timeout", config.phaseTimeout.store), ("kill_timeout", config.killTimeout.store),
  ("default_num_threads", if threadsChosen then config.defaultThreads else Json.null),
  ("min_slot_size", config.minSlotSize), ("output_threshold", config.outputThreshold.text)]

end NodeConfig

end Mixnet
