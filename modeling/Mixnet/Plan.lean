import Mixnet.Expansion
import Mixnet.Wiring

/-!
# Plans

Before a graph can be built its wiring is compiled for a batch size.  Compilation checks the shape
of the wiring, expands the batch, and resolves the sizes of every module.

## Main definitions

* `GraphSettings`: what all graphs of a node share
* `ResolvedModule`, `Plan`: the compiled sizes and the order of the modules
* `Plan.compile`: the plan of a wiring, or the first rule it breaks

## Design notes

The checks come in a fixed order, and the first that fails names the fault.  Faults of the shape
name the graph, faults of a module name the module.
-/

namespace Mixnet

open Mixnet.Text

/-- What all graphs of a node share. -/
structure GraphSettings where
  /-- The least number of slots a module hands on, and the grain of the output. -/
  minSlotSize : Nat
  /-- The number of workers of a module that does not set its own. -/
  defaultThreads : Nat
  /-- The start threshold of the output. -/
  outputThreshold : Binary32
  /-- Whether kernel failures are reported to a handler. -/
  handled : Bool

namespace GraphSettings

/-- Settings without a handler.  The minimum slot size is positive. -/
def create (minSlotSize defaultThreads : Nat) (outputThreshold : Binary32) :
    Except Fault GraphSettings := do
  Invariant.graphShape.require (0 < minSlotSize) "minimum slot size must be positive"
    (some "GraphGenerator::new")
  return { minSlotSize, defaultThreads, outputThreshold, handled := false }

/-- The same settings with a handler. -/
def withHandler (settings : GraphSettings) : GraphSettings := { settings with handled := true }

instance : Describe GraphSettings :=
  ⟨fun settings =>
    record "GraphGenerator" [("min_slot_size", describe settings.minSlotSize),
      ("default_num_threads", describe settings.defaultThreads),
      ("output_threshold", describe settings.outputThreshold),
      ("error_handler", describe settings.handled)]⟩

end GraphSettings

/-- The sizes and neighbours of a module after compilation. -/
structure ResolvedModule where
  /-- The slots of an assignment. -/
  assignmentSize : Nat
  /-- The slots handed on at a time. -/
  chunkSize : Nat
  /-- The number of workers. -/
  threads : Nat
  /-- The modules whose reports it receives. -/
  inputs : List Nat
  /-- The modules it reports to. -/
  outputs : List Nat
deriving DecidableEq

/-- A compiled wiring. -/
structure Plan where
  /-- The batch size after padding. -/
  expandedSize : Nat
  /-- The modules in an order along the edges. -/
  executionOrder : List Nat
  /-- The modules by position. -/
  modules : List ResolvedModule
deriving DecidableEq

namespace Plan

/-- Checks the shape of a wiring, from the batch size to the absence of cycles, and answers its
execution order. -/
def checkShape (name : String) (wiring : Wiring) (batchSize : Nat) :
    Except Fault (List Nat) := do
  let context := some name
  Invariant.graphShape.require (0 < batchSize) "batch size must be positive" context
  Invariant.graphShape.require (!wiring.modules.isEmpty) "graph has no modules" context
  match wiring.first, wiring.last with
  | some first, some last =>
    Invariant.graphShape.require (wiring.inputsOf first).isEmpty
      "first module cannot have inputs" context
    Invariant.graphShape.require (wiring.outputsOf last).isEmpty
      "last module cannot have outputs" context
    let reached := wiring.reachableFrom first
    Invariant.graphReachable.require ((List.range wiring.size).all reached.contains)
      "every module must be reachable from the first module" context
    let order := wiring.executionOrder
    Invariant.graphShape.require (order.length = wiring.size) "graph contains a cycle" context
    return order
  | _, _ =>
    throw (.violated .graphShape "graph needs exactly one first and one last module" context)

/-- The sizes declared anywhere in a wiring. -/
def declaredSizes (wiring : Wiring) : List Nat :=
  wiring.modules.flatMap fun spec => [spec.assignmentSize, spec.chunkSize]

/-- Resolves the sizes of one module in a batch of `expanded` slots. -/
def resolve (settings : GraphSettings) (wiring : Wiring) (expanded : Nat) (id : Nat)
    (spec : ModuleSpec) : Except Fault ResolvedModule := do
  let context := some spec.name
  let threads := spec.threads.getD settings.defaultThreads
  Invariant.threadBounds.require (1 ≤ threads && threads ≤ Module.maxThreads)
    "module thread count must be between 1 and 64" context
  let assignmentSize := if spec.assignmentSize = 0 then expanded else spec.assignmentSize
  let chunkSize := if spec.chunkSize = 0 then assignmentSize else spec.chunkSize
  Invariant.chunkDividesAssignment.require
    (settings.minSlotSize ≤ chunkSize && assignmentSize % chunkSize = 0)
    "chunk size must divide assignment size and cover the minimum slot size" context
  match spec.inputSize with
  | .custom slots =>
    Invariant.chunkDividesAssignment.require (0 < slots && chunkSize % slots = 0)
      "custom input size must divide chunk size" context
  | _ => pure ()
  return { assignmentSize, chunkSize, threads,
           inputs := wiring.inputsOf id, outputs := wiring.outputsOf id }

/-- Resolves modules one after the other, from position `id` on. -/
def resolveFrom (settings : GraphSettings) (wiring : Wiring) (expanded : Nat) :
    Nat → List ModuleSpec → Except Fault (List ResolvedModule)
  | _, [] => .ok []
  | id, spec :: rest => do
    let resolved ← resolve settings wiring expanded id spec
    return resolved :: (← resolveFrom settings wiring expanded (id + 1) rest)

/-- Compiles a wiring for a batch of `batchSize` slots. -/
def compile (name : String) (settings : GraphSettings) (wiring : Wiring) (batchSize : Nat) :
    Except Fault Plan := do
  let executionOrder ← checkShape name wiring batchSize
  let expandedSize ← expandBatchSize batchSize (declaredSizes wiring) settings.minSlotSize
  let modules ← resolveFrom settings wiring expandedSize 0 wiring.modules
  return { expandedSize, executionOrder, modules }

end Plan

end Mixnet
