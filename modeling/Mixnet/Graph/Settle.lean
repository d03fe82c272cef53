import Mixnet.Graph

/-!
# Settling a graph

Between two operations from outside, a graph works until nothing is left to do.  Settling is one
such run: it picks the steps of the workers in a fixed order and calls the kernels.

## Main definitions

* `Graph.advance`: one step of a worker, chosen by what it is doing
* `Graph.drive`: a worker until it has nothing to do
* `Graph.settle`: all workers, in execution order

## Design notes

Every module reports only to modules behind it in execution order.  So once the workers of a module
have nothing left to do, nothing more reaches them, and one sweep over the modules does all the work
there is.  A second sweep lets the workers leave that a failure further down has freed.

Kernels can be held back.  A worker then enters its next call and stays inside it.  What is held
back is the computation of a kernel.  A call on a stream of another type is refused before it
computes, so there is nothing to hold, and the call ends at once.
-/

namespace Mixnet

namespace Dispatch

/-- A bound on the steps a worker spends on an assignment: taking it, two for each task, and one to
find that none is left. -/
def stepsOn (module : Module) (chunk : Chunk) : Nat := 2 * (module.tasks chunk).length + 2

/-- A bound on the steps that are left in an activity. -/
def stepsIn : Activity → Nat
  | .working tasks => 2 * tasks.length + 1
  | .calling _ tasks => 2 * tasks.length + 2
  | _ => 0

/-- A bound on the steps a worker can take before it waits for others. -/
def stepsLeft (dispatch : Dispatch) (position : Nat) : Nat :=
  match dispatch.workers[position]? with
  | none => 0
  | some worker =>
    let queued := (dispatch.modules[worker.module]?.map fun module =>
      module.queue.chunks.foldl (fun steps chunk => steps + stepsOn module chunk) 0).getD 0
    stepsIn worker.activity + queued + 1

end Dispatch

namespace Graph

/-- Ends the kernel call of a worker: calls the kernel, and hands its result to dispatch. -/
def finishCall (graph : Graph) (dispatch : Dispatch) (buffer : RoundBuffer) (position : Nat)
    (worker : Worker) (chunk : Chunk) : Option (Graph × RoundBuffer) := do
  let spec ← graph.wiring.modules[worker.module]?
  let (outcome, after) := spec.kernel.call chunk { stream := graph.stream, buffer }
  let left ← dispatch.step (.leave position outcome.toExcept)
  return ({ graph with stream := after.stream, dispatch := some left }, after.buffer)

/-- Whether holding keeps the kernels of a graph inside their calls: it does where they compute,
which is on payloads only. -/
def holds (graph : Graph) (held : Bool) : Bool := held && graph.stream.isPayload

/-- The next step of a worker, if it has one.  While kernels are held, none that computes ends its
call. -/
def advance (held : Bool) (graph : Graph) (buffer : RoundBuffer) (position : Nat) :
    Option (Graph × RoundBuffer) := do
  let dispatch ← graph.dispatch
  let worker ← dispatch.workers[position]?
  let keep := fun (next : Dispatch) => ({ graph with dispatch := some next }, buffer)
  match worker.activity with
  | .idle =>
    ((dispatch.step (.take position)).or (dispatch.step (.depart position))).map keep
  | .working (.call _ :: _) => (dispatch.step (.enter position)).map keep
  | .working _ => (dispatch.step (.proceed position)).map keep
  | .calling chunk _ =>
    if graph.holds held then none else graph.finishCall dispatch buffer position worker chunk
  | .exited => none
  | .crashed _ => none

/-- A number of steps of one worker. -/
def drive (held : Bool) (position : Nat) : Nat → Graph × RoundBuffer → Graph × RoundBuffer
  | 0, state => state
  | steps + 1, state =>
    match advance held state.1 state.2 position with
    | some next => drive held position steps next
    | none => state

/-- All steps one worker can take without the others. -/
def driveOut (held : Bool) (state : Graph × RoundBuffer) (position : Nat) :
    Graph × RoundBuffer :=
  match state.1.dispatch with
  | none => state
  | some dispatch => drive held position (dispatch.stepsLeft position) state

/-- The workers of a graph, those of earlier modules first. -/
def workerOrder (graph : Graph) : List Nat :=
  match graph.plan, graph.dispatch with
  | some plan, some dispatch =>
    plan.executionOrder.flatMap fun module =>
      (List.range dispatch.workers.size).filter fun position =>
        dispatch.workers[position]?.any (·.module = module)
  | _, _ => []

/-- One sweep over all workers. -/
def sweep (held : Bool) (state : Graph × RoundBuffer) : Graph × RoundBuffer :=
  state.1.workerOrder.foldl (driveOut held) state

/-- All the work that can be done without input from outside. -/
def settle (held : Bool) (graph : Graph) (buffer : RoundBuffer) : Graph × RoundBuffer :=
  sweep held (sweep held (graph, buffer))

end Graph

end Mixnet
