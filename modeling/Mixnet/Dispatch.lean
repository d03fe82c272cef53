import Mixnet.Module

/-!
# Dispatch

A running graph is a set of workers that share its modules.  A worker takes an assignment from the
queue of its module, does the tasks on it one by one, and takes the next.  Reporting a finished
piece adds weight to the accounting of another module, which may put work into that module's
queue, and the module that has queued its last assignment closes its queue.

## Main definitions

* `Worker`, `Activity`: the workers, and what each is doing
* `Dispatch`: the state shared by the workers of a graph
* `Dispatch.prime`: a report, from outside or from a worker
* `Dispatch.terminate`, `Dispatch.fail`: how work ends early
* `Dispatch.Step`, `Dispatch.step`: everything a worker can do, as a partial function on states

## Design notes

Workers run concurrently.  Whatever the machine does is one sequence of steps, each of which is
atomic, so a run of the graph is a list of steps, and a statement about every schedule is a
statement about every list that `step` accepts.  A step that a worker cannot take in a state has
no result.

The result of a kernel call is part of the step that ends the call: accounting does not depend on
what kernels compute.

The journal records every call when it begins and when it returns, every piece that is reported,
and every assignment that is queued.  Nothing in dispatch reads it; it is what an observer of the
run has seen.
-/

namespace Mixnet

/-! ## State -/

/-- What a worker is doing. -/
inductive Activity where
  /-- Waiting for work. -/
  | idle
  /-- Between two tasks of an assignment. -/
  | working (tasks : List Task)
  /-- Inside a kernel call, with the tasks that follow it. -/
  | calling (chunk : Chunk) (tasks : List Task)
  /-- Gone, having finished. -/
  | exited
  /-- Gone, having met a fault. -/
  | crashed (fault : Fault)
deriving DecidableEq

/-- A worker of a module. -/
structure Worker where
  /-- The module it works for. -/
  module : Nat
  /-- Its number within the module. -/
  thread : Nat
  /-- What it is doing. -/
  activity : Activity
deriving DecidableEq

/-- Whether a worker still counts as alive.  One that met a fault never signed off. -/
def Worker.isAlive (worker : Worker) : Bool := worker.activity ≠ .exited

/-- The failure that stopped a graph. -/
structure ModuleFailure where
  /-- The name of the module. -/
  module : String
  /-- The error of its kernel. -/
  error : KernelError
deriving DecidableEq

/-- What an observer of a run sees. -/
inductive Observation where
  /-- A call of a module's kernel began. -/
  | called (module : Nat) (chunk : Chunk)
  /-- A call of a module's kernel ended. -/
  | returned (module : Nat) (chunk : Chunk) (result : Except KernelError Unit)
  /-- A piece was reported to a module, by another one or from outside. -/
  | reported (source : Option Nat) (target : Nat) (piece : Chunk)
  /-- An assignment was put into the queue of a module. -/
  | queued (module : Nat) (chunk : Chunk)

/-- The state shared by the workers of a graph. -/
structure Dispatch where
  /-- The built modules; the output sink comes last. -/
  modules : Array Module
  /-- The position of the output sink. -/
  sink : Nat
  /-- The workers. -/
  workers : Array Worker
  /-- Whether the sink has queued all its assignments. -/
  complete : Bool
  /-- Whether work has been ended early. -/
  terminated : Bool
  /-- Whether workers have been told to leave. -/
  dismissed : Bool
  /-- The first kernel failure. -/
  failure : Option ModuleFailure
  /-- What has been observed, newest first. -/
  journal : List Observation

namespace Dispatch

/-- Modules without workers. -/
def create (modules : Array Module) (sink : Nat) : Dispatch where
  modules := modules
  sink := sink
  workers := #[]
  complete := false
  terminated := false
  dismissed := false
  failure := none
  journal := []

/-- The name of a module. -/
def moduleName (dispatch : Dispatch) (module : Nat) : String :=
  (dispatch.modules[module]?.map Module.name).getD ""

/-- The state with another module at a position. -/
def setModule (dispatch : Dispatch) (position : Nat) (module : Module) : Dispatch :=
  { dispatch with modules := dispatch.modules.setIfInBounds position module }

/-- The state with a worker doing something else. -/
def setActivity (dispatch : Dispatch) (position : Nat) (activity : Activity) : Dispatch :=
  { dispatch with
    workers := dispatch.workers.modify position fun worker => { worker with activity } }

/-- The state with one more observation. -/
def observe (dispatch : Dispatch) (observation : Observation) : Dispatch :=
  { dispatch with journal := observation :: dispatch.journal }

/-- The state with one more observation for each assignment queued, the last one newest. -/
def observeQueued (dispatch : Dispatch) (target : Nat) (released : List Chunk) : Dispatch :=
  { dispatch with journal := released.reverse.map (.queued target) ++ dispatch.journal }

/-- The workers of a module that are alive. -/
def aliveOf (dispatch : Dispatch) (module : Nat) : Nat :=
  (dispatch.workers.toList.filter fun worker => worker.module = module && worker.isAlive).length

/-- Whether no worker is alive. -/
def isDeserted (dispatch : Dispatch) : Bool := dispatch.workers.all (!·.isAlive)

/-- The calls begun so far, oldest first. -/
def calls (dispatch : Dispatch) : List (Nat × Chunk) :=
  dispatch.journal.reverse.filterMap fun
    | .called module chunk => some (module, chunk)
    | _ => none

/-- The kernel failures so far, oldest first. -/
def failures (dispatch : Dispatch) : List (Nat × KernelError) :=
  dispatch.journal.reverse.filterMap fun
    | .returned module _ (.error error) => some (module, error)
    | _ => none

/-! ## Ending early -/

/-- Ends all work and closes every queue.  A complete graph has nothing left to end. -/
def terminate (dispatch : Dispatch) : Bool × Dispatch :=
  if dispatch.complete || dispatch.terminated then (false, dispatch)
  else
    (true, { dispatch with
      terminated := true
      modules := dispatch.modules.map fun module => { module with queue := module.queue.close.2 } })

/-- Records the failure of a kernel, if it is the first, and ends all work. -/
def fail (dispatch : Dispatch) (module : Nat) (error : KernelError) : Dispatch :=
  let failure := dispatch.failure.or (some { module := dispatch.moduleName module, error })
  { dispatch with failure }.terminate.2

/-! ## Reports -/

/-- Puts released assignments into the queue of a module and counts them; the last one closes the
queue, and the last one of the sink completes the graph.  A closed queue takes nothing: after
termination the work is dropped, before it that is a fault.

The accounting releases every assignment once, so the queue has room for all of them. -/
def enqueue (dispatch : Dispatch) (target : Nat) (module : Module) (released : List Chunk) :
    Except Fault Bool × Dispatch :=
  if module.queue.closed && !released.isEmpty then
    let kept := dispatch.setModule target module
    if dispatch.terminated then (.ok false, kept)
    else
      (.error (.violated .closedQueueSend "chunk sent to a closed module queue"
        (some module.name)), kept)
  else
    let seen := dispatch.observeQueued target released
    let queue := { module.queue with chunks := module.queue.chunks ++ released }
    let (outcome, assignments) := module.assignments.complete released.length
    match outcome with
    | .ok true =>
      let closed := seen.setModule target { module with assignments, queue := queue.close.2 }
      (.ok true, { closed with complete := dispatch.complete || target = dispatch.sink })
    | outcome => (outcome, seen.setModule target { module with assignments, queue })

/-- Reports a finished piece to a module, for another module or for the outside.  Answers whether
that was its last. -/
def prime (dispatch : Dispatch) (source : Option Nat) (target : Nat) (piece : Chunk) :
    Except Fault Bool × Dispatch :=
  match dispatch.modules[target]? with
  | none => (.error (.indexOutOfBounds dispatch.modules.size target), dispatch)
  | some module =>
    let seen := dispatch.observe (.reported source target piece)
    match module.assignments.prime piece with
    | (.error fault, assignments) =>
      (.error fault, seen.setModule target { module with assignments })
    | (.ok released, assignments) => seen.enqueue target { module with assignments } released

/-! ## Steps of workers -/

/-- Something a worker can do, named by the worker. -/
inductive Step where
  /-- Take the oldest assignment of the queue; after termination it is dropped. -/
  | take (worker : Nat)
  /-- Enter the kernel. -/
  | enter (worker : Nat)
  /-- Leave the kernel with a result. -/
  | leave (worker : Nat) (result : Except KernelError Unit)
  /-- Do a task that is not a call, or find that none is left. -/
  | proceed (worker : Nat)
  /-- Go, because the queue is drained or because workers were told to leave. -/
  | depart (worker : Nat)

/-- An idle worker takes an assignment. -/
def takeStep (dispatch : Dispatch) (position : Nat) : Option Dispatch := do
  let worker ← dispatch.workers[position]?
  let module ← dispatch.modules[worker.module]?
  match worker.activity, module.queue.take with
  | .idle, (.chunk chunk, queue) =>
    let taken := dispatch.setModule worker.module { module with queue }
    some (if dispatch.terminated then taken
      else taken.setActivity position (.working (module.tasks chunk)))
  | _, _ => none

/-- A worker enters the kernel. -/
def enterStep (dispatch : Dispatch) (position : Nat) : Option Dispatch := do
  let worker ← dispatch.workers[position]?
  match worker.activity with
  | .working (.call chunk :: rest) =>
    some ((dispatch.observe (.called worker.module chunk)).setActivity position
      (.calling chunk rest))
  | _ => none

/-- A worker leaves the kernel.  An error fails the graph and drops the rest of the assignment. -/
def leaveStep (dispatch : Dispatch) (position : Nat) (result : Except KernelError Unit) :
    Option Dispatch := do
  let worker ← dispatch.workers[position]?
  match worker.activity with
  | .calling chunk rest =>
    let seen := dispatch.observe (.returned worker.module chunk result)
    match result with
    | .ok () => some (seen.setActivity position (.working rest))
    | .error error => some ((seen.setActivity position .idle).fail worker.module error)
  | _ => none

/-- A worker does a task that is not a call. -/
def proceedStep (dispatch : Dispatch) (position : Nat) : Option Dispatch := do
  let worker ← dispatch.workers[position]?
  match worker.activity with
  | .working [] => some (dispatch.setActivity position .idle)
  | .working (.checkpoint :: rest) =>
    some (dispatch.setActivity position (if dispatch.terminated then .idle else .working rest))
  | .working (.report target piece :: rest) =>
    match dispatch.prime (some worker.module) target piece with
    | (.ok _, primed) => some (primed.setActivity position (.working rest))
    | (.error fault, primed) => some (primed.setActivity position (.crashed fault))
  | _ => none

/-- An idle worker goes. -/
def departStep (dispatch : Dispatch) (position : Nat) : Option Dispatch := do
  let worker ← dispatch.workers[position]?
  let module ← dispatch.modules[worker.module]?
  if worker.activity = .idle ∧ (dispatch.dismissed ∨ module.queue.isDrained) then
    some (dispatch.setActivity position .exited)
  else none

/-- The state after a step, if the worker can take it. -/
def step (dispatch : Dispatch) : Step → Option Dispatch
  | .take worker => dispatch.takeStep worker
  | .enter worker => dispatch.enterStep worker
  | .leave worker result => dispatch.leaveStep worker result
  | .proceed worker => dispatch.proceedStep worker
  | .depart worker => dispatch.departStep worker

/-- The state after a list of steps, if each can be taken. -/
def run (dispatch : Dispatch) : List Step → Option Dispatch
  | [] => some dispatch
  | step :: rest => (dispatch.step step).bind (run · rest)

end Dispatch

end Mixnet
