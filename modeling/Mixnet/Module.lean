import Mixnet.AssignmentList
import Mixnet.Binary32.Text
import Mixnet.ChunkQueue
import Mixnet.Kernel

/-!
# Modules

A graph is made of modules.  A module is first described: what it computes, how it cuts its work,
how many workers it has.  Building the graph resolves the description into sizes, an accounting of
assignments and a queue of work.

## Main definitions

* `InputSize`: how many slots a kernel is handed per call
* `ModuleSpec`: the description of a module
* `Module`: a built module
* `Task`, `Module.tasks`: what a worker does with an assignment, step by step

## Design notes

The work on an assignment is spelled out as a list of tasks.  A worker does them one at a time, and
between two tasks any other worker may act, so the list is all there is to know about the order in
which a module computes and reports.
-/

namespace Mixnet

open Mixnet.Text

/-! ## Descriptions -/

/-- How many slots a kernel is handed per call. -/
inductive InputSize where
  /-- A whole assignment. -/
  | assignment
  /-- One chunk. -/
  | chunk
  /-- A given number of slots, which divides the chunk size. -/
  | custom (slots : Nat)
deriving DecidableEq

instance : Describe InputSize :=
  ⟨fun
    | .assignment => "Assignment"
    | .chunk => "Chunk"
    | .custom slots => wrapped "Custom" [describe slots]⟩

/-- The description of a module. -/
structure ModuleSpec where
  /-- The name of the module. -/
  name : String
  /-- What it computes. -/
  kernel : Kernel
  /-- The slots of an assignment; zero stands for the whole expanded batch. -/
  assignmentSize : Nat
  /-- The slots handed on at a time; zero stands for the assignment size. -/
  chunkSize : Nat
  /-- The slots per call. -/
  inputSize : InputSize
  /-- The fraction of assignments that must be full before any is released. -/
  startThreshold : Binary32
  /-- The number of workers, if it is not the default of the graph. -/
  threads : Option Nat

namespace ModuleSpec

/-- The description with nothing but a name and a kernel. -/
def plain (name : String) (kernel : Kernel) : ModuleSpec where
  name := name
  kernel := kernel
  assignmentSize := 0
  chunkSize := 0
  inputSize := .chunk
  startThreshold := .zero
  threads := none

instance : Describe ModuleSpec :=
  ⟨fun spec =>
    record "ModuleDef" [("name", describe spec.name), ("kernel", describe spec.kernel.name),
      ("assignment_size", describe spec.assignmentSize), ("chunk_size", describe spec.chunkSize),
      ("input_size", describe spec.inputSize), ("start_threshold", describe spec.startThreshold),
      ("num_threads", describe spec.threads)]⟩

end ModuleSpec

/-- The description of a module's position in its graph. -/
def describeModuleId (id : Nat) : String := wrapped "ModuleId" [describe id]

/-- The description of several positions. -/
def describeModuleIds (ids : List Nat) : String :=
  "[" ++ commaSeparated (ids.map describeModuleId) ++ "]"

/-! ## Built modules -/

/-- A built module: resolved sizes, accounting, and work waiting. -/
structure Module where
  /-- The name of the module. -/
  name : String
  /-- The slots of an assignment. -/
  assignmentSize : Nat
  /-- The slots handed on at a time. -/
  chunkSize : Nat
  /-- The slots per call. -/
  inputSize : InputSize
  /-- The number of workers. -/
  threads : Nat
  /-- The modules whose reports it receives. -/
  inputs : List Nat
  /-- The modules it reports to. -/
  outputs : List Nat
  /-- The accounting of its assignments. -/
  assignments : AssignmentList
  /-- The assignments that wait for a worker. -/
  queue : ChunkQueue

namespace Module

/-- The greatest number of workers of a module. -/
def maxThreads : Nat := 64

/-- The number of slots handed to the kernel per call. -/
def callSize (module : Module) : Nat :=
  match module.inputSize with
  | .assignment => module.assignmentSize
  | .chunk => module.chunkSize
  | .custom slots => slots

/-- The description of a built module at a position of its graph. -/
def description (module : Module) (id : Nat) : String :=
  record "Module" [("id", describeModuleId id), ("name", describe module.name),
    ("assignment_size", describe module.assignmentSize), ("chunk_size", describe module.chunkSize),
    ("num_threads", describe module.threads), ("inputs", describeModuleIds module.inputs),
    ("outputs", describeModuleIds module.outputs)]

end Module

/-! ## Tasks -/

/-- One step of the work on an assignment. -/
inductive Task where
  /-- Call the kernel. -/
  | call (chunk : Chunk)
  /-- Give up if the graph has been terminated. -/
  | checkpoint
  /-- Report a finished piece to a module further down. -/
  | report (target : Nat) (piece : Chunk)
deriving DecidableEq

namespace Module

/-- The reports of a finished piece, one for each output. -/
def reports (module : Module) (piece : Chunk) : List Task :=
  module.outputs.map (Task.report · piece)

/-- The work on one assignment.  A module called with whole assignments calls once and then reports
piece by piece; any other finishes one piece at a time, and looks in between whether to go on. -/
def tasks (module : Module) (chunk : Chunk) : List Task :=
  match module.inputSize with
  | .assignment => .call chunk :: (chunk.pieces module.chunkSize).flatMap module.reports
  | _ => (chunk.pieces module.chunkSize).flatMap fun piece =>
      (piece.pieces module.callSize).map .call ++ .checkpoint :: module.reports piece

end Module

end Mixnet
