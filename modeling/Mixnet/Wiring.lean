import Mixnet.Module

/-!
# Wiring

The modules of a graph are connected by edges, and one module each is marked as the entrance and as
the exit.  Edges are added one by one, and one that would close a cycle is refused, so the edges
always form a directed acyclic graph.

## Main definitions

* `Wiring`: modules, edges, entrance and exit
* `Wiring.add`, `Wiring.connect`, `Wiring.setFirst`, `Wiring.setLast`: the steps of wiring
* `Wiring.reachableFrom`: the modules on the paths from a module
* `Wiring.executionOrder`: the modules ordered along the edges

## Design notes

Reachability is computed by growing a set of modules along the edges.  A set of `n` modules cannot
grow more than `n` times, so `n` rounds of growth are enough, and no search needs to remember where
it came from.
-/

namespace Mixnet

/-- Modules and the edges between them. -/
structure Wiring where
  /-- The modules, by position. -/
  modules : List ModuleSpec
  /-- The edges, in the order in which they were added. -/
  edges : List (Nat × Nat)
  /-- The module fed from outside. -/
  first : Option Nat
  /-- The module whose output leaves the graph. -/
  last : Option Nat

namespace Wiring

/-- A wiring without modules. -/
def empty : Wiring where
  modules := []
  edges := []
  first := none
  last := none

/-- The number of modules. -/
def size (wiring : Wiring) : Nat := wiring.modules.length

/-- Adds a module behind the others. -/
def add (wiring : Wiring) (spec : ModuleSpec) : Wiring :=
  { wiring with modules := wiring.modules ++ [spec] }

/-- The modules a module reports to, in the order of the edges. -/
def outputsOf (wiring : Wiring) (module : Nat) : List Nat :=
  (wiring.edges.filter (·.1 = module)).map (·.2)

/-- The modules that report to a module, in the order of the edges. -/
def inputsOf (wiring : Wiring) (module : Nat) : List Nat :=
  (wiring.edges.filter (·.2 = module)).map (·.1)

/-! ## Reachability -/

/-- A set of modules together with all their outputs. -/
def grow (wiring : Wiring) (seen : List Nat) : List Nat :=
  seen ++ ((seen.flatMap wiring.outputsOf).filter (!seen.contains ·)).eraseDups

/-- A set of modules grown a number of times. -/
def growTimes (wiring : Wiring) : Nat → List Nat → List Nat
  | 0, seen => seen
  | times + 1, seen => growTimes wiring times (wiring.grow seen)

/-- A module and every module on a path from it. -/
def reachableFrom (wiring : Wiring) (module : Nat) : List Nat :=
  wiring.growTimes wiring.size [module]

/-- Adds an edge.  Unknown modules are refused first, then repeated edges, then cycles; a module
cannot report to itself. -/
def connect (wiring : Wiring) (source target : Nat) : Except GraphError Wiring :=
  if wiring.size ≤ source then .error (.invalidModule source)
  else if wiring.size ≤ target then .error (.invalidModule target)
  else if wiring.edges.contains (source, target) then .error (.duplicateEdge source target)
  else if (wiring.reachableFrom target).contains source then
    .error (.cycleDetected source target)
  else .ok { wiring with edges := wiring.edges ++ [(source, target)] }

/-- Marks the module fed from outside, once. -/
def setFirst (wiring : Wiring) (module : Nat) (context : Option String) :
    Except Fault Wiring := do
  Invariant.graphShape.require (wiring.first.isNone && module < wiring.size)
    "first module set twice or unknown" context
  return { wiring with first := some module }

/-- Marks the module whose output leaves the graph, once. -/
def setLast (wiring : Wiring) (module : Nat) (context : Option String) : Except Fault Wiring := do
  Invariant.graphShape.require (wiring.last.isNone && module < wiring.size)
    "last module set twice or unknown" context
  return { wiring with last := some module }

/-! ## Execution order -/

/-- The outputs of a module all of whose inputs have been ordered, now that it has been. -/
def readyAfter (wiring : Wiring) (ordered : List Nat) (module : Nat) : List Nat :=
  (wiring.outputsOf module).filter fun next => (wiring.inputsOf next).all ordered.contains

/-- Orders modules from a queue of ready ones: each one ordered makes those ready that waited for it
alone. -/
def orderFrom (wiring : Wiring) : Nat → List Nat → List Nat → List Nat
  | 0, ordered, _ => ordered
  | _ + 1, ordered, [] => ordered
  | steps + 1, ordered, module :: queue =>
    let extended := ordered ++ [module]
    orderFrom wiring steps extended (queue ++ wiring.readyAfter extended module)

/-- The modules in an order in which every edge points forward.  On a cyclic wiring it would be
shorter than the list of modules. -/
def executionOrder (wiring : Wiring) : List Nat :=
  let sources := (List.range wiring.size).filter fun module => (wiring.inputsOf module).isEmpty
  wiring.orderFrom wiring.size [] sources

end Wiring

end Mixnet
