import Mixnet.Error
import Mixnet.Json.Field

/-!
# Errors in JSON

An error is reported as its kind and its text.  It can also be described field by field, with the
name of its variant under `kind` and its cause, if it has one, under `source`; such a description
can be read back.

## Main definitions

* `Json.failure`: the report of an error
* `ErrorReport`: the class of errors with a report
* `StreamError.ofForm`, `RoundError.ofForm`, and so on: the error that a description stands for
-/

namespace Mixnet

namespace Json

/-- The report of an error. -/
def failure (kind message : String) : Json := object [("error", kind), ("message", message)]

/-- The kind and the text of an error, for one who asks for both. -/
def kindAndMessage (kind message : String) : Json := object [("kind", kind), ("message", message)]

/-- The name of the variant of a described error. -/
def variant (json : Json) : Except BadField String := json.field text? "kind"

/-- The cause of a described error. -/
def cause (json : Json) : Except BadField Json := json.field some "source"

/-- The number of a round. -/
def roundId (json : Json) : Except BadField Nat := json.field (word? 64) "round_id"

/-- The refusal of a variant that does not exist. -/
def unknownVariant {α : Type} : Except BadField α := .error ⟨"kind"⟩

end Json

/-! ## Reports -/

/-- Errors with a report. -/
class ErrorReport (ε : Type) where
  /-- The report of an error. -/
  report : ε → Json

instance : ErrorReport BadField := ⟨fun field => .failure "BadInput" field.name⟩

instance : ErrorReport StreamError := ⟨fun error => .failure error.kind error.message⟩

instance : ErrorReport KernelError := ⟨fun error => .failure error.kind error.message⟩

instance : ErrorReport QueueError := ⟨fun error => .failure error.kind error.message⟩

instance : ErrorReport TransportError := ⟨fun error => .failure error.kind error.message⟩

instance : ErrorReport GraphError := ⟨fun error => .failure error.kind error.message⟩

instance : ErrorReport RoundError := ⟨fun error => .failure error.kind error.message⟩

instance : ErrorReport ConfigError := ⟨fun error => .failure error.kind error.message⟩

instance : ErrorReport NodeError := ⟨fun error => .failure error.kind error.message⟩

/-! ## Descriptions -/

/-- Reads a stream error. -/
def StreamError.ofForm (json : Json) : Except BadField StreamError := do
  match ← json.variant with
  | "NotLinked" => return .notLinked
  | "IndexOutOfRange" =>
    let index ← json.field (Json.word? 32) "index"
    return .indexOutOfRange index (← json.field (Json.word? 32) "size")
  | "NotInGroup" => return .notInGroup
  | "Malformed" => return .malformed (← json.field Json.text? "text")
  | _ => Json.unknownVariant

/-- Reads a kernel error.  A mismatch is always about a stream called `expected`. -/
def KernelError.ofForm (expected : String) (json : Json) : Except BadField KernelError := do
  match ← json.variant with
  | "StreamMismatch" => return .streamMismatch expected
  | "Stream" => return .stream (← StreamError.ofForm (← json.cause))
  | "Failed" => return .failed (← json.field Json.text? "text")
  | "Panicked" => return .panicked (← json.field Json.text? "text")
  | _ => Json.unknownVariant

/-- Reads a queue error. -/
def QueueError.ofForm (json : Json) : Except BadField QueueError := do
  match ← json.variant with
  | "Full" => return .full
  | "Disconnected" => return .disconnected
  | _ => Json.unknownVariant

/-- Reads a transport error with at most `depth` nested lists of errors. -/
def TransportError.ofNestedForm (depth : Nat) (json : Json) : Except BadField TransportError := do
  match ← json.variant with
  | "Peer" =>
    let peer ← json.field Json.text? "peer"
    return .peer ⟨peer⟩ (← json.field Json.text? "reason")
  | "Aggregate" =>
    match depth with
    | 0 => Json.unknownVariant
    | depth + 1 =>
      return .aggregate (← (← json.field Json.items? "errors").mapM (ofNestedForm depth))
  | "Incomplete" => return .incomplete (← json.roundId)
  | "Queue" => return .queue (← QueueError.ofForm (← json.cause))
  | "Stream" => return .stream (← StreamError.ofForm (← json.cause))
  | _ => Json.unknownVariant

/-- Reads a transport error. -/
def TransportError.ofForm (json : Json) : Except BadField TransportError := ofNestedForm 128 json

/-- Reads a wiring error. -/
def GraphError.ofForm (json : Json) : Except BadField GraphError := do
  let index := json.field (Json.word? 64)
  match ← json.variant with
  | "InvalidModule" => return .invalidModule (← index "module")
  | "CycleDetected" =>
    let source ← index "from"
    return .cycleDetected source (← index "to")
  | "DuplicateEdge" =>
    let source ← index "from"
    return .duplicateEdge source (← index "to")
  | _ => Json.unknownVariant

/-- Reads a round error. -/
def RoundError.ofForm (expected : String) (json : Json) : Except BadField RoundError := do
  let phase := json.phaseKindField "phase"
  match ← json.variant with
  | "UnknownRound" => return .unknownRound (← json.roundId)
  | "DuplicateRound" => return .duplicateRound (← json.roundId)
  | "AlreadyFailed" => return .alreadyFailed (← json.roundId)
  | "UnknownTag" => return .unknownTag (← json.field Json.text? "tag")
  | "UnknownPhase" => return .unknownPhase (← phase)
  | "DuplicatePhase" => return .duplicatePhase (← phase)
  | "UnexpectedState" =>
    let phase ← phase
    let state ← json.phaseStateField "state"
    return .unexpectedState phase state (← json.phaseStatesField "expected")
  | "NonContiguousSlots" => return .nonContiguousSlots
  | "NotInTopology" => return .notInTopology
  | "Stream" => return .stream (← StreamError.ofForm (← json.cause))
  | "Kernel" =>
    let module ← json.field Json.text? "module"
    return .kernel module (← KernelError.ofForm expected (← json.cause))
  | "Timeout" =>
    let phase ← phase
    return .timeout phase (.ofNanos (← json.field (Json.word? 64) "after_nanos"))
  | "Terminated" => return .terminated (← phase)
  | "Spawn" =>
    let phase ← phase
    return .spawn phase (← json.field Json.text? "reason")
  | "Transport" => return .transport (← TransportError.ofForm (← json.cause))
  | _ => Json.unknownVariant

/-- Reads a configuration error. -/
def ConfigError.ofForm (json : Json) : Except BadField ConfigError := do
  return .invalid (← json.field Json.text? "text")

/-- The kind and the text of the error that a description of a family stands for. -/
def Json.describedError (family expected : String) (json : Json) : Except BadField Json := do
  match family with
  | "stream" =>
    let error ← StreamError.ofForm json
    return kindAndMessage error.kind error.message
  | "kernel" =>
    let error ← KernelError.ofForm expected json
    return kindAndMessage error.kind error.message
  | "queue" =>
    let error ← QueueError.ofForm json
    return kindAndMessage error.kind error.message
  | "transport" =>
    let error ← TransportError.ofForm json
    return kindAndMessage error.kind error.message
  | "graph" =>
    let error ← GraphError.ofForm json
    return kindAndMessage error.kind error.message
  | "round" =>
    let error ← RoundError.ofForm expected json
    return kindAndMessage error.kind error.message
  | "config" =>
    let error ← ConfigError.ofForm json
    return kindAndMessage error.kind error.message
  | "node" =>
    let error := NodeError.config (← ConfigError.ofForm json)
    return kindAndMessage error.kind error.message
  | _ => .error ⟨"family"⟩

end Mixnet
