import Mixnet.Json.ErrorForm
import Mixnet.Json.Report

/-!
# Requests

How the values of a request are given: chunks by their bounds, slots by index and payloads, modules
and graphs by the settings that differ from the defaults.

## Main definitions

* `Refusal`: why a request comes to nothing
* `Chunk.ofRequest`, `Slot.ofRequest`, and so on: the value of a request
* `Graph.wire`: the modules and edges of a request, added to a graph
* `NodeConfig.ofRequest`: the settings of a node

## Design notes

Reading can meet an unusable field, and also the fault of a value that cannot be made, such as a
chunk whose bounds are in the wrong order.  A refusal is kept as the report that answers it.

A request names a kernel; which kernels there are is up to the caller.
-/

namespace Mixnet

/-- Why a request comes to nothing: the report that answers it. -/
abbrev Refusal := Json

namespace Json

/-- A result whose error is kept as its report. -/
def reported {ε α : Type} [ErrorReport ε] (result : Except ε α) : Except Refusal α :=
  result.mapError ErrorReport.report

/-- A field that must be there. -/
def get {α : Type} (decode : Json → Option α) (name : String) (json : Json) : Except Refusal α :=
  reported (json.field decode name)

/-- A field with a default. -/
def getOr {α : Type} (decode : Json → Option α) (name : String) (fallback : α) (json : Json) :
    Except Refusal α :=
  reported (json.fieldOr decode name fallback)

/-- A field that may be missing. -/
def getOption {α : Type} (decode : Json → Option α) (name : String) (json : Json) :
    Except Refusal (Option α) :=
  reported (json.field? decode name)

/-- A number given by its hexadecimal digits. -/
def getHex (name : String) (json : Json) : Except Refusal Nat := reported (json.hexField name)

/-- A 32-bit word. -/
def getWord (name : String) (json : Json) : Except Refusal Nat := json.get (word? 32) name

/-- A 64-bit word. -/
def getLong (name : String) (json : Json) : Except Refusal Nat := json.get (word? 64) name

/-- A text. -/
def getText (name : String) (json : Json) : Except Refusal String := json.get text? name

/-- The kind of a phase. -/
def getPhaseKind (name : String) (json : Json) : Except Refusal PhaseKind :=
  reported (json.phaseKindField name)

/-- The state of a phase. -/
def getPhaseState (name : String) (json : Json) : Except Refusal PhaseState :=
  reported (json.phaseStateField name)

/-- An object whose fields all may be missing. -/
def getObject (name : String) (json : Json) : Json := (json.given? name).getD (.object [])

end Json

/-! ## Chunks, slots and groups -/

/-- A chunk by its bounds, or by its begin and its length. -/
def Chunk.ofRequest (json : Json) : Except Refusal Chunk := do
  let start ← json.getWord "begin"
  match json.given? "len" with
  | some _ => Json.reported (Chunk.ofLength start (← json.getWord "len"))
  | none => Json.reported (Chunk.ofBounds start (← json.getWord "end"))

/-- A slot, with its payloads in hexadecimal. -/
def Slot.ofRequest (json : Json) : Except Refusal Slot := do
  let index ← json.getWord "index"
  let payloadA ← json.get Json.bytes? "a"
  return { index, payloadA, payloadB := ← json.get Json.bytes? "b" }

/-- The group of a request: the group of order 1000000006 with generator 5 unless it names another.
-/
def CyclicGroup.ofRequest (json : Json) : Except Refusal CyclicGroup :=
  match json.given? "group" with
  | none => .ok { prime := 1000000007, generator := 5 }
  | some group => do return { prime := ← group.getHex "p", generator := ← group.getHex "g" }

/-! ## Responses and events -/

/-- A response; without a target of its own the source is driven. -/
def Response.ofRequest (json : Json) : Except Refusal Response := do
  let source ← json.getPhaseKind "source"
  let expected ← Json.reported (json.phaseStatesField "expected")
  match json.textField? "execute" with
  | some target => return { source, expected, target := ← Json.reported (Json.phaseKind target) }
  | none => return .own source expected

/-- A response as it is given. -/
def Response.report (response : Response) : Json :=
  .object [("source", response.source.text), ("execute", response.target.text),
    ("expected", .ofStrings (response.expected.map PhaseState.text))]

/-- The responses of a round, by tag. -/
def ResponseMap.ofRequest (json : Json) : Except Refusal ResponseMap :=
  match json.getObject "responses" with
  | .object fields => fields.foldlM (fun map field => do
      return (map.insert field.1 (← Response.ofRequest field.2)).2) .empty
  | _ => .error (ErrorReport.report (BadField.mk "responses"))

/-- The event of a request: a word, or slots. -/
def Event.ofRequest (json : Json) : Except Refusal Event :=
  match json.get? "event" with
  | some (.string "start") => .ok .start
  | some (.string "verify") => .ok .verify
  | some (.array given) => (given.mapM Slot.ofRequest).map .slots
  | _ => .error (ErrorReport.report (BadField.mk "event"))

/-- A milestone, by its position. -/
def Milestone.ofPosition? (json : Json) : Option Milestone :=
  (json.word? 32).bind fun position => Milestone.all[position]?

/-! ## Graphs -/

/-- The settings of a graph's surroundings. -/
def GraphSettings.ofRequest (json : Json) : Except Refusal GraphSettings := do
  let settings := json.getObject "generator"
  let minSlotSize ← settings.getOr (Json.word? 32) "min_slot_size" 1
  let threads ← settings.getOr (Json.word? 8) "threads" 1
  let threshold ← settings.getOr Json.binary32? "output_threshold" .zero
  Json.reported (GraphSettings.create minSlotSize threads threshold)

/-- The report of a graph's surroundings, and how they were described before. -/
def GraphSettings.report (settings before : GraphSettings) : Json := .object [
  ("min_slot_size", settings.minSlotSize), ("threads", settings.defaultThreads),
  ("output_threshold", settings.outputThreshold.text), ("debug", Text.describe settings),
  ("plain", Text.describe before)]

/-- How many slots a kernel is handed per call: a word, or a number. -/
def InputSize.ofJson? : Json → Option InputSize
  | .string "chunk" => some .chunk
  | .string "assignment" => some .assignment
  | json => (json.word? 32).map .custom

/-- The description of a module; what is not given is as in a plain module. -/
def ModuleSpec.ofRequest (kernels : Json → Option Kernel) (json : Json) :
    Except Refusal ModuleSpec := do
  let name := json.textOr "name" "m"
  let kernel ← json.getOr kernels "kernel" .idle
  let plain := ModuleSpec.plain name kernel
  let assignmentSize ← json.getOr (Json.word? 32) "assignment_size" plain.assignmentSize
  let chunkSize ← json.getOr (Json.word? 32) "chunk_size" plain.chunkSize
  let inputSize ← json.getOr InputSize.ofJson? "input_size" plain.inputSize
  let startThreshold ← json.getOr Json.binary32? "start_threshold" plain.startThreshold
  let threads ← json.getOption (Json.word? 8) "threads"
  return { plain with assignmentSize, chunkSize, inputSize, startThreshold, threads }

/-- An edge, as the pair of its ends. -/
def Wiring.edgeOfJson? (json : Json) : Option (Nat × Nat) :=
  match json.list? (Json.word? 64) with
  | some [source, target] => some (source, target)
  | _ => none

namespace Graph

/-- Puts a changed graph in the place of the graph, unless the change is refused. -/
def change {ε : Type} [ErrorReport ε] (step : Graph → Except ε Graph) :
    ExceptT Refusal (StateM Graph) Unit := do
  set (← Json.reported (step (← get)))

/-- The wiring that a request asks for: the modules, then the edges, then the two ends.  Without
edges the modules form a chain, and the ends are the first and the last module.

Each part is read when its turn comes, so a part that is unusable leaves the parts before it done.
Edges are one part: none is added unless all can be read. -/
def wiringOf (kernels : Json → Option Kernel) (json : Json) :
    ExceptT Refusal (StateM Graph) Unit := do
  let modules ← json.getOr Json.items? "modules" [.object []]
  modules.forM fun module => do
    let spec ← ModuleSpec.ofRequest kernels module
    change fun graph => (graph.addModule spec).map Prod.snd
  let chain := (List.range (modules.length - 1)).map fun position => (position, position + 1)
  let edges ← json.getOr (Json.list? Wiring.edgeOfJson?) "edges" chain
  edges.forM fun edge => change fun graph => graph.connect edge.1 edge.2
  let first ← json.getOr (Json.word? 64) "first" 0
  change fun graph => graph.setFirst first
  let last ← json.getOr (Json.word? 64) "last" (modules.length - 1)
  change fun graph => graph.setLast last

/-- Wires a graph as a request asks; what was done before a refusal stays done. -/
def wire (kernels : Json → Option Kernel) (json : Json) (graph : Graph) :
    Except Refusal Unit × Graph :=
  (wiringOf kernels json).run.run graph

end Graph

/-- The phase of a request, not yet begun: its graph is wired, and built if the request says at
which batch size. -/
def Phase.ofRequest (kernels : Json → Option Kernel) (stream : Stream) (name : Option String)
    (settings : GraphSettings) (transmitter : Transmitter) (json : Json) :
    Except Refusal Phase := do
  let kind ← json.getPhaseKind "type"
  let timeout ← json.getOption (Json.word? 64) "timeout_ms"
  let verification := json.flagOr "verification" false
  let (outcome, wired) := (Graph.create (name.getD kind.text) settings stream).wire kernels json
  outcome
  let graph ← match ← json.getOption (Json.word? 32) "build" with
    | some batchSize => Json.reported (wired.build batchSize)
    | none => pure wired
  return .create kind graph transmitter (timeout.map Span.ofMillis) verification

/-! ## Nodes -/

/-- The settings of a node, over small defaults. -/
def NodeConfig.ofRequest (json : Json) : Except Refusal NodeConfig := do
  let completedCapacity ← json.getOr (Json.word? 64) "completed_batch_capacity" 4
  let requestCapacity ← json.getOr (Json.word? 64) "request_batch_capacity" 4
  let phaseTimeout ← json.getOr (Json.word? 64) "phase_timeout_ms" 10000
  let killTimeout ← json.getOr (Json.word? 64) "kill_timeout_ms" 2000
  let defaultThreads ← json.getOr (Json.word? 8) "default_num_threads" 1
  let minSlotSize ← json.getOr (Json.word? 32) "min_slot_size" 1
  let outputThreshold ← json.getOr Json.binary32? "output_threshold" .zero
  return {
    completedCapacity, requestCapacity, defaultThreads, minSlotSize, outputThreshold
    phaseTimeout := .ofMillis phaseTimeout
    killTimeout := .ofMillis killTimeout }

/-- Settings built one by one over the standard ones, with timeouts in nanoseconds. -/
def NodeConfig.ofBuilder (defaults : NodeConfig) (json : Json) : Except Refusal NodeConfig := do
  let completedCapacity ←
    json.getOr (Json.word? 64) "completed_batch_capacity" defaults.completedCapacity
  let requestCapacity ← json.getOr (Json.word? 64) "request_batch_capacity" defaults.requestCapacity
  let phaseTimeout ← json.getOption (Json.word? 64) "phase_timeout_nanos"
  let killTimeout ← json.getOption (Json.word? 64) "kill_timeout_nanos"
  let defaultThreads ← json.getOr (Json.word? 8) "default_num_threads" defaults.defaultThreads
  let minSlotSize ← json.getOr (Json.word? 32) "min_slot_size" defaults.minSlotSize
  let outputThreshold ← json.getOr Json.binary32? "output_threshold" defaults.outputThreshold
  return {
    completedCapacity, requestCapacity, defaultThreads, minSlotSize, outputThreshold
    phaseTimeout := (phaseTimeout.map Span.ofNanos).getD defaults.phaseTimeout
    killTimeout := (killTimeout.map Span.ofNanos).getD defaults.killTimeout }

end Mixnet
