import Mixnet.Dispatch
import Mixnet.Plan

/-!
# Graphs

A graph computes one phase.  It is wired once, built at a batch size, linked to a round buffer,
and then run.  Input is sent to its first module, and finished chunks leave through an output sink
behind its last one.

## Main definitions

* `GraphState`: the stages of a graph's life
* `Graph`: a graph
* `Graph.addModule`, `Graph.connect`, `Graph.setFirst`, `Graph.setLast`: wiring
* `Graph.build`, `Graph.link`, `Graph.run`: bringing the graph to life
* `Graph.send`, `Graph.takeOutput`: input and output
* `Graph.kill`: ending the work early

## Design notes

The stages follow each other and never go back.  An operation out of its stage is a fault that
changes nothing; only `Graph.send` can have changed something when it meets a fault, so it answers
the graph beside its outcome.
-/

namespace Mixnet

open Mixnet.Text

/-! ## Stages -/

/-- The stages of a graph's life, in order. -/
inductive GraphState where
  | unbuilt
  | built
  | linked
  | running
  | terminated
deriving DecidableEq

namespace GraphState

/-- The name of a stage. -/
def text : GraphState → String
  | unbuilt => "Unbuilt"
  | built => "Built"
  | linked => "Linked"
  | running => "Running"
  | terminated => "Terminated"

/-- The position of a stage. -/
def number : GraphState → Nat
  | unbuilt => 0
  | built => 1
  | linked => 2
  | running => 3
  | terminated => 4

instance : Describe GraphState := ⟨text⟩

end GraphState

/-! ## Graphs -/

/-- A graph of modules over one stream. -/
structure Graph where
  /-- The name of the graph. -/
  name : String
  /-- What it shares with the other graphs of its node. -/
  settings : GraphSettings
  /-- What it computes over. -/
  stream : Stream
  /-- Its modules and edges. -/
  wiring : Wiring
  /-- Its stage. -/
  state : GraphState
  /-- Its sizes, once it is built. -/
  plan : Option Plan
  /-- Its workers and their work, once it is built. -/
  dispatch : Option Dispatch

namespace Graph

/-- A graph without modules. -/
def create (name : String) (settings : GraphSettings) (stream : Stream) : Graph where
  name := name
  settings := settings
  stream := stream
  wiring := .empty
  state := .unbuilt
  plan := none
  dispatch := none

/-- The description of an edge. -/
def describeEdge (edge : Nat × Nat) : String :=
  wrapped "" [describeModuleId edge.1, describeModuleId edge.2]

instance : Describe Graph :=
  ⟨fun graph =>
    record "Graph" [("name", describe graph.name), ("stream", describe graph.stream.name),
      ("modules", describe graph.wiring.modules),
      ("edges", "[" ++ commaSeparated (graph.wiring.edges.map describeEdge) ++ "]"),
      ("state", describe graph.state)]⟩

/-- Fails unless the graph is at the stage an operation belongs to. -/
def expect (graph : Graph) (stage : GraphState) (operation : String) : Except Fault Unit :=
  Invariant.graphLifecycle.require (graph.state = stage) "graph operation out of lifecycle order"
    (some (graph.name ++ ": " ++ operation ++ " while " ++ describe graph.state))

/-- The workers and their work, or the fault of a graph that is not built. -/
def dispatched (graph : Graph) : Except Fault Dispatch :=
  match graph.dispatch with
  | some dispatch => .ok dispatch
  | none => .error (.violated .graphLifecycle "graph used before build" (some graph.name))

/-! ### Wiring -/

/-- Adds a module and answers its position. -/
def addModule (graph : Graph) (spec : ModuleSpec) : Except Fault (Nat × Graph) := do
  graph.expect .unbuilt "add_module"
  return (graph.wiring.size, { graph with wiring := graph.wiring.add spec })

/-- Adds an edge. -/
def connect (graph : Graph) (source target : Nat) : Except (Failure GraphError) Graph :=
  match graph.expect .unbuilt "connect" with
  | .error fault => .error (.fault fault)
  | .ok () =>
    match graph.wiring.connect source target with
    | .error error => .error (.error error)
    | .ok wiring => .ok { graph with wiring }

/-- Marks the module fed by input. -/
def setFirst (graph : Graph) (module : Nat) : Except Fault Graph := do
  return { graph with wiring := ← graph.wiring.setFirst module (some graph.name) }

/-- Marks the module whose output leaves the graph. -/
def setLast (graph : Graph) (module : Nat) : Except Fault Graph := do
  return { graph with wiring := ← graph.wiring.setLast module (some graph.name) }

/-! ### Building -/

/-- The batch size after padding, zero before the graph is built. -/
def expandedSize (graph : Graph) : Nat :=
  match graph.plan with
  | some plan => plan.expandedSize
  | none => 0

/-- A module with its accounting and an empty queue that has room for each assignment once. -/
def buildModule (expanded : Nat) (spec : ModuleSpec) (resolved : ResolvedModule) :
    Except Fault Module := do
  let assignments ← AssignmentList.create expanded resolved.assignmentSize resolved.chunkSize
    resolved.inputs.length spec.startThreshold
  return {
    name := spec.name
    assignmentSize := resolved.assignmentSize
    chunkSize := resolved.chunkSize
    inputSize := spec.inputSize
    threads := resolved.threads
    inputs := resolved.inputs
    outputs := resolved.outputs
    assignments
    queue := .create assignments.size }

/-- The modules of a plan, built one after the other. -/
def buildModules (expanded : Nat) : List ModuleSpec → List ResolvedModule →
    Except Fault (List Module)
  | spec :: specs, resolved :: rest => do
    let module ← buildModule expanded spec resolved
    return module :: (← buildModules expanded specs rest)
  | _, _ => .ok []

/-- The output sink: a module without workers that gathers the reports of the last one. -/
def buildSink (expanded : Nat) (settings : GraphSettings) (last : Nat) : Except Fault Module := do
  let grain := settings.minSlotSize
  let assignments ← AssignmentList.create expanded grain grain 1 settings.outputThreshold
  return {
    name := "output"
    assignmentSize := grain
    chunkSize := grain
    inputSize := .chunk
    threads := 0
    inputs := [last]
    outputs := []
    assignments
    queue := .create assignments.size }

/-- The sizes of the modules, with the sink as one more output of the last. -/
def withSink (resolved : List ResolvedModule) (last sink : Nat) : List ResolvedModule :=
  resolved.modify last fun module => { module with outputs := module.outputs ++ [sink] }

/-- Compiles the wiring for a batch and sets up every module. -/
def build (graph : Graph) (batchSize : Nat) : Except Fault Graph := do
  graph.expect .unbuilt "build"
  let compiled ← Plan.compile graph.name graph.settings graph.wiring batchSize
  let sink := graph.wiring.size
  let last := graph.wiring.last.getD sink
  let plan := { compiled with modules := withSink compiled.modules last sink }
  let modules ← buildModules plan.expandedSize graph.wiring.modules plan.modules
  let output ← buildSink plan.expandedSize graph.settings last
  return { graph with
    plan := some plan
    dispatch := some (.create (modules ++ [output]).toArray sink)
    state := .built }

/-- Binds the stream to a round buffer at the padded batch size. -/
def link (graph : Graph) (buffer : RoundBuffer) : Except Fault Graph := do
  graph.expect .built "link"
  Invariant.graphShape.require (graph.expandedSize ≤ buffer.expandedSize)
    "round buffer shorter than the expanded batch" (some graph.name)
  let stream ← graph.stream.link graph.expandedSize buffer
  return { graph with stream, state := .linked }

/-- The workers of the modules from a position on. -/
def workersFrom : Nat → List Module → List Worker
  | _, [] => []
  | position, module :: rest =>
    (List.range module.threads).map (fun thread =>
      { module := position, thread, activity := .idle : Worker }) ++ workersFrom (position + 1) rest

/-- Starts the workers of every module.  A graph killed before it ran stays stopped. -/
def run (graph : Graph) : Except Fault Graph := do
  if graph.state = .terminated then return graph
  else
    graph.expect .linked "run"
    let dispatch ← graph.dispatched
    let workers := (workersFrom 0 dispatch.modules.toList).toArray
    return { graph with state := .running, dispatch := some { dispatch with workers } }

/-! ### Input and output -/

/-- Sends a chunk of input to the first module.  Answers whether that was its last; input after
termination is dropped. -/
def send (graph : Graph) (chunk : Chunk) : Except Fault Bool × Graph :=
  match graph.dispatched with
  | .error fault => (.error fault, graph)
  | .ok dispatch =>
    if dispatch.terminated then (.ok false, graph)
    else
      let first := graph.wiring.first.getD 0
      if (dispatch.modules[first]?.map (·.queue.closed)).getD false then
        (.error (.violated .closedQueueSend "input sent after the first module completed"
          (some graph.name)), graph)
      else
        let (outcome, primed) := dispatch.prime none first chunk
        (outcome, { graph with dispatch := some primed })

/-- Takes the oldest finished chunk. -/
def takeOutput (graph : Graph) : Except Fault (ChunkQueue.Taken × Graph) := do
  let dispatch ← graph.dispatched
  match dispatch.modules[dispatch.sink]? with
  | none => throw (.indexOutOfBounds dispatch.modules.size dispatch.sink)
  | some sink =>
    let (taken, queue) := sink.queue.take
    let after := dispatch.setModule dispatch.sink { sink with queue }
    return (taken, { graph with dispatch := some after })

/-- The finished chunks that wait to be taken. -/
def pendingOutput (graph : Graph) : List Chunk :=
  ((graph.dispatch.bind fun dispatch => dispatch.modules[dispatch.sink]?).map
    (·.queue.chunks)).getD []

/-- The graph with other finished chunks waiting. -/
def setPendingOutput (graph : Graph) (chunks : List Chunk) : Graph :=
  { graph with dispatch := graph.dispatch.map fun dispatch =>
      match dispatch.modules[dispatch.sink]? with
      | none => dispatch
      | some sink =>
        dispatch.setModule dispatch.sink { sink with queue := { sink.queue with chunks } } }

/-! ### The end -/

/-- Whether all output has been released. -/
def isComplete (graph : Graph) : Bool :=
  match graph.dispatch with
  | some dispatch => dispatch.complete
  | none => false

/-- Whether work was ended early. -/
def isTerminated (graph : Graph) : Bool :=
  match graph.dispatch with
  | some dispatch => dispatch.terminated
  | none => false

/-- The first kernel failure. -/
def failure (graph : Graph) : Option ModuleFailure := graph.dispatch.bind Dispatch.failure

/-- Ends all work and tells the workers to leave.  A graph that is not built has no workers, and a
complete one is left alone. -/
def kill (graph : Graph) : Graph :=
  match graph.dispatch with
  | none => graph
  | some dispatch =>
    if dispatch.complete then graph
    else
      { graph with
        state := .terminated
        dispatch := some { dispatch.terminate.2 with dismissed := true } }

/-- Whether a killed graph has come to rest: nothing was to be done, or every worker has left. -/
def isStopped (graph : Graph) : Bool :=
  match graph.dispatch with
  | none => true
  | some dispatch => dispatch.complete || dispatch.isDeserted

/-- Whether waiting for the workers would not end by itself. -/
def isBusy (graph : Graph) : Bool :=
  graph.state = .running && !graph.isComplete && !graph.isTerminated

/-- Whether a worker of a module is alive; a graph that is not built has no modules. -/
def isAlive (graph : Graph) (module thread : Nat) : Option (Except Fault Bool) :=
  graph.dispatch.bind fun dispatch =>
    dispatch.modules[module]?.map fun _ =>
      if thread < Module.maxThreads then
        .ok (dispatch.workers.any fun worker =>
          worker.module = module && worker.thread = thread && worker.isAlive)
      else .error .shiftOverflow

end Graph

end Mixnet
