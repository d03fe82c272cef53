import Mixnet.Fault.Text
import Mixnet.Json.ErrorForm
import Mixnet.Node

/-!
# Reports

What an operator sees of a running node: faults, chunks, slots, graphs with their modules and plans,
rounds with their phases.

## Main definitions

* `Chunk.report`, `Slot.report`: values on their way through a graph
* `Graph.statusReport`, `Graph.modulesReport`, `Graph.planReport`: a graph
* `Json.callsReport`: the kernel calls of graphs
* `Round.report`: a round
-/

namespace Mixnet

open Mixnet.Text

instance : ErrorReport Fault := ⟨fun fault => .failure fault.kind fault.message⟩

instance {ε : Type} [ErrorReport ε] : ErrorReport (Failure ε) :=
  ⟨fun
    | .error error => ErrorReport.report error
    | .fault fault => ErrorReport.report fault⟩

/-! ## Chunks and slots -/

/-- A chunk, by its bounds. -/
def Chunk.report (chunk : Chunk) : Json := .ofNats [chunk.start, chunk.stop]

/-- A list of chunks. -/
def Chunk.reports (chunks : List Chunk) : Json := .ofList Chunk.report chunks

/-- A slot, with its payloads in hexadecimal. -/
def Slot.report (slot : Slot) : Json := .object [("index", slot.index),
  ("a", Hex.ofBytes slot.payloadA), ("b", Hex.ofBytes slot.payloadB)]

/-- The form of an assignment accounting. -/
def AssignmentList.report (list : AssignmentList) : Json := .object [
  ("counts", .ofNats list.counts.toList), ("primed", list.primed), ("completed", list.completed),
  ("consistent", list.isConsistent)]

/-! ## Graphs -/

namespace Graph

/-- The stage of a graph, and how it ended. -/
def statusReport (graph : Graph) : Json := .object [("state", graph.state.text),
  ("complete", graph.isComplete), ("terminated", graph.isTerminated),
  ("failure", .ofOption (fun failure => .object [("module", failure.module),
    ("error", ErrorReport.report failure.error)]) graph.failure),
  ("expanded", graph.expandedSize)]

/-- The modules of a built graph; what waits in a terminated one is of no account. -/
def modulesReport (graph : Graph) : Json :=
  match graph.dispatch with
  | none => .array []
  | some dispatch => .array (dispatch.modules.toList.mapIdx fun id module => .object [
      ("id", s!"#{id}"), ("name", module.name), ("assignments", module.assignments.report),
      ("closed", module.queue.closed), ("alive", dispatch.aliveOf id),
      ("queued", if dispatch.terminated then .null else module.queue.size)])

/-- The fields shared by resolved and built modules. -/
def sizeFields (assignmentSize chunkSize threads : Nat) (inputs outputs : List Nat) :
    List (String × Json) :=
  [("assignment_size", assignmentSize), ("chunk_size", chunkSize), ("threads", threads),
    ("inputs", .ofNats inputs), ("outputs", .ofNats outputs)]

/-- A module as the plan resolves it. -/
def resolvedReport (module : ResolvedModule) : Json := .object (sizeFields module.assignmentSize
  module.chunkSize module.threads module.inputs module.outputs)

/-- A built module. -/
def builtReport (module : Module) : Json :=
  let own : List (String × Json) := [("name", module.name),
    ("assignments", module.assignments.size), ("max_count", module.assignments.maxCount),
    ("threshold", module.assignments.threshold), ("capacity", module.queue.capacity)]
  .object (own ++ sizeFields module.assignmentSize module.chunkSize module.threads module.inputs
    module.outputs)

/-- The plan of a built graph. -/
def planReport (graph : Graph) : Json :=
  match graph.plan, graph.dispatch with
  | some plan, some dispatch => .object [("expanded", plan.expandedSize),
      ("order", .ofNats plan.executionOrder), ("resolved", .ofList resolvedReport plan.modules),
      ("built", .ofList builtReport dispatch.modules.toList)]
  | _, _ => .null

/-- Every slot of the stream, up to the first that cannot be read. -/
def outputsReport (graph : Graph) : Except StreamError Json := do
  return .ofList Slot.report (← (List.range graph.expandedSize).mapM graph.stream.output)

/-- The kernel calls of a graph, by the name of the module.  Kernels over a blank stream compute
nothing, and their calls do not count. -/
def namedCalls (graph : Graph) : List (String × Chunk) :=
  match graph.stream, graph.dispatch with
  | .payload _, some dispatch =>
    dispatch.calls.map fun call => (dispatch.moduleName call.1, call.2)
  | _, _ => []

/-- The kernel failures of a graph, oldest first. -/
def failuresReport (graph : Graph) : Json :=
  match graph.dispatch with
  | none => .array []
  | some dispatch => .ofList (fun failure => .array [graph.name, dispatch.moduleName failure.1,
      ErrorReport.report failure.2]) dispatch.failures

end Graph

/-- The kernel calls of several graphs: for each module name, the chunks in order. -/
def Json.callsReport (graphs : List Graph) : Json :=
  let calls := graphs.flatMap Graph.namedCalls
  .object ((calls.map (·.1)).eraseDups.map fun name =>
    (name, Chunk.reports (Chunk.sorted ((calls.filter (·.1 = name)).map (·.2)))))

/-! ## Rounds -/

/-- A phase of a round, with the milestones it has passed. -/
def Phase.report (metrics : Metrics) (roundId : Nat) (phase : Phase) : Json := .object [
  ("type", phase.kind.text), ("state", phase.state.text), ("queued", phase.queued),
  ("graph", phase.graph.statusReport),
  ("tags", .ofStrings ((metrics.milestones roundId phase.kind).map Milestone.text))]

/-- A round and its phases, in the order of a round. -/
def Round.report (metrics : Metrics) (round : Round) : Json := .object [("id", round.id),
  ("failed", round.isFailed), ("error", .ofOption ErrorReport.report round.failure),
  ("phases", .ofList (Phase.report metrics round.id) (PhaseKind.all.filterMap round.phase?))]

/-- What has just been created. -/
def Round.creationReport (round : Round) : Except Fault Json := do
  return .object [("first", round.topology.isFirstNode), ("last", ← round.topology.isLastNode),
    ("batch", round.batchSize), ("expanded", round.buffer.expandedSize),
    ("responses", round.responses.size), ("nodes", round.topology.size),
    ("debug", describe round), ("status", round.describeStatus)]

/-- The slots that a transmitter has passed on, by index: the order in which independent chunks came
out says nothing. -/
def DeliveredSlots.report (delivered : DeliveredSlots) : Json :=
  let ordered := delivered.slots.mergeSort fun left right => left.index ≤ right.index
  .object [("round_id", delivered.roundId), ("phase", delivered.phase.text),
    ("batch_size", delivered.batchSize), ("local", delivered.localIndex),
    ("complete", delivered.complete), ("slots", .ofList Slot.report ordered)]

/-- A finished batch. -/
def CompletedRound.report (round : CompletedRound) : Json := .object [("round_id", round.roundId),
  ("slots", .ofList Slot.report round.slots)]

namespace Node

/-- The failures of rounds, oldest first. -/
def failuresReport (node : Node) : Json :=
  .array (node.events.reverse.filterMap fun
    | .roundFailed roundId error => some (.array [roundId, ErrorReport.report error])
    | _ => none)

/-- The slots that transmitters have passed on, oldest first. -/
def deliveriesReport (node : Node) : Json :=
  .array (node.events.reverse.filterMap fun
    | .delivered slots => some slots.report
    | _ => none)

/-- The peers that took notice of a round, by peer and then by round. -/
def noticesReport (node : Node) : Json :=
  let notices := node.events.filterMap fun
    | .notified { peer, notice := .delivered, .. } roundId => some (peer, roundId)
    | _ => none
  let ordered := notices.mergeSort fun left right =>
    if left.1 = right.1 then decide (left.2 ≤ right.2) else left.1.precedes right.1
  .ofList (fun notice => .array [notice.1.name, notice.2]) ordered

end Node

end Mixnet
