import Mixnet.Graph.Settle
import Mixnet.Node

/-!
# Settling a node

Between two operations from outside, a node works until nothing is left to do: its graphs compute,
and the consumer of the resource queue runs one phase after the other, as far as their input allows.

## Main definitions

* `Node.settle`: all the work that can be done without input from outside
* `Node.awaitPhase`: lets time pass until a phase has had its turn
* `Node.drop`, `Node.shutdown`: dropping rounds, with the waiting that belongs to it

## Design notes

The consumer runs one phase at a time, so a settled node has done what it can once each waiting
phase has had its turn or one of them has to wait for input.  The number of waiting phases bounds
the turns, because running a phase queues no other.

Time passes only for who waits for a phase.  The consumer runs one phase at a time, so the clock of
one phase runs at a time, and the timeouts pass in the order of the queue.
-/

namespace Mixnet

/-! ## Graphs -/

/-- Settles the graph of one phase of a round. -/
def Round.settlePhase (held : Bool) (round : Round) (kind : PhaseKind) : Round :=
  match round.phase? kind with
  | none => round
  | some phase =>
    let (graph, buffer) := phase.graph.settle held round.buffer
    { round.setPhase { phase with graph } with buffer }

/-- Settles every graph of a round. -/
def Round.settle (held : Bool) (round : Round) : Round :=
  (round.phases.map Phase.kind).foldl (Round.settlePhase held) round

namespace Node

/-- Settles every graph of every round, dropped ones included. -/
def settleGraphs (held : Bool) (node : Node) : Node :=
  { node with rounds := node.rounds.map (Round.settle held) }

/-- Settles the graph of one phase. -/
def settlePhase (held : Bool) (node : Node) (ref : PhaseRef) : Node :=
  match node.rounds[ref.round]? with
  | none => node
  | some round => node.setRound ref.round (round.settlePhase held ref.kind)

/-! ## The consumer -/

/-- A number of steps of the running transmission. -/
def transmitSteps : Nat → Node → Node
  | 0, node => node
  | steps + 1, node =>
    match node.stepTransmission with
    | some next => transmitSteps steps next
    | none => node

/-- A bound on the steps of a transmission: one for each chunk in the sink, and one to end. -/
def transmissionBound (node : Node) (ref : PhaseRef) : Nat :=
  match (node.phaseAt? ref).bind fun found => found.2.graph.dispatch with
  | none => 1
  | some dispatch => (dispatch.modules[dispatch.sink]?.map (·.queue.size)).getD 0 + 1

/-- Whether the transmitter of a phase waits for output. -/
def waitsForOutput (node : Node) (ref : PhaseRef) : Bool :=
  ((node.phaseAt? ref).map fun found => found.2.transmitter.reads.isSome).getD false

/-- Runs the current phase as far as its input allows.  A transmitter that does not wait for output
ends before the graph gets to work. -/
def progress (held : Bool) (node : Node) : Node :=
  match node.queue.running with
  | none => node
  | some running =>
    let ref := running.phase
    let worked := if node.waitsForOutput ref then node.settlePhase held ref else node
    let transmitted := transmitSteps (worked.transmissionBound ref) worked
    transmitted.finishRun.getD transmitted

/-- Gives each of a number of phases its turn, until one has to wait. -/
def consume (held : Bool) : Nat → Node → Node
  | 0, node => node
  | turns + 1, node =>
    let begun := match node.queue.running with
      | some _ => node
      | none => node.startNext.getD node
    let progressed := progress held begun
    match progressed.queue.running with
    | some _ => progressed
    | none => consume held turns progressed

/-- All the work that can be done without input from outside. -/
def settle (held : Bool) (node : Node) : Node :=
  let consumed := consume held (node.queue.waiting.length + 1) (node.settleGraphs held)
  consumed.settleGraphs held

/-- The state of a phase, if there is one. -/
def stateAt (node : Node) (ref : PhaseRef) : Option PhaseState :=
  (node.phaseAt? ref).map fun found => found.2.state

/-- Whether a phase waits for its turn or has it. -/
def isUnderWay (node : Node) (ref : PhaseRef) : Bool :=
  (node.phaseAt? ref).any fun found => found.2.isUnderWay

/-- Lets the time of a number of running phases pass, one after the other, for as long as `ref` is
under way. -/
def outlast (held : Bool) (ref : PhaseRef) : Nat → Node → Node
  | 0, node => node
  | turns + 1, node =>
    if node.isUnderWay ref then
      match node.expireRun with
      | some expired => outlast held ref turns (expired.settle held)
      | none => node
    else node

/-- Lets time pass until a phase is no longer under way.  Only timeouts need time: its own, and
before it those of the phases ahead of it in the queue.  Answers where the phase then stands. -/
def awaitPhase (held : Bool) (node : Node) (ref : PhaseRef) : Option PhaseState × Node :=
  let settled := node.settle held
  let waited := outlast held ref (settled.queue.waiting.length + 1) settled
  (waited.stateAt ref, waited)

/-! ## Dropping rounds -/

/-- Drops a round: stops its graphs, waits for their workers, and overwrites its secrets. -/
def drop (held : Bool) (node : Node) (roundId : Nat) : Except RoundError Node := do
  let (position, dropped) ← node.dropRound roundId
  return ((dropped.settleGraphs held).eraseRound position).settle held

/-- Drops every live round, then runs what is left in the resource queue. -/
def shutdown (held : Bool) (node : Node) : Node :=
  let dropped := node.registry.ids.foldl (fun remaining roundId =>
    match remaining.drop held roundId with
    | .ok next => next
    | .error _ => remaining) node
  (dropped.settle held).closeQueue

end Node

end Mixnet
