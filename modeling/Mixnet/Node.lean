import Mixnet.Config
import Mixnet.ResourceQueue
import Mixnet.Round
import Mixnet.RoundRegistry

/-!
# The node

A mix node creates rounds, routes events to them, runs their phases one at a time, and drops them
again.

## Main definitions

* `Node`: the state of a node
* `Node.createRound`, `Node.deliver`, `Node.dropRound`, `Node.eraseRound`: what the outside asks for
* `Node.startNext`, `Node.stepTransmission`, `Node.finishRun`, `Node.expireRun`: what the consumer
  of the resource queue does
* `NodeEvent`: what leaves the node or is reported by it

## Design notes

Each operation of the consumer is one atomic step, and so is each operation from outside; workers of
the graphs act in between.  A run of the node is a sequence of these steps in any order.

Closing a run does not end its transmitter.  When time is up the graph is stopped, which closes the
sink, and the transmitter then ends in its own way; what it sends still leaves the node.

A dropped round is gone from the registry but not from the node: its phases may still be queued, and
its workers may still be inside a kernel.  Rounds are therefore kept by the position at which they
were created, and the registry maps numbers to positions.

The node has no clock.  It stamps each measurement with the number of those before it.
-/

namespace Mixnet

/-! ## State -/

/-- A phase of a round, by the position of the round. -/
structure PhaseRef where
  /-- The position of the round. -/
  round : Nat
  /-- The kind of the phase. -/
  kind : PhaseKind
deriving DecidableEq

/-- The slots that a transmitter passed on to a receiver of its own. -/
structure DeliveredSlots where
  /-- The round. -/
  roundId : Nat
  /-- The phase. -/
  phase : PhaseKind
  /-- The number of real slots. -/
  batchSize : Nat
  /-- The position of the local node in the ring. -/
  localIndex : Nat
  /-- Whether all output had been released. -/
  complete : Bool
  /-- The slots, in the order in which they were read. -/
  slots : List Slot
deriving DecidableEq

/-- What leaves the node or is reported by it. -/
inductive NodeEvent where
  /-- A round has failed. -/
  | roundFailed (roundId : Nat) (error : RoundError)
  /-- A transmitter has passed slots on. -/
  | delivered (slots : DeliveredSlots)
  /-- A peer has been told, or not, that a round is done. -/
  | notified (call : PeerCall) (roundId : Nat)

/-- A mix node. -/
structure Node where
  /-- The name of the node. -/
  id : NodeId
  /-- Its settings. -/
  config : NodeConfig
  /-- The group of its rounds. -/
  group : CyclicGroup
  /-- Every round ever created, by position. -/
  rounds : Array Round
  /-- The positions of the live rounds. -/
  registry : RoundRegistry Nat
  /-- The phases that wait to be run. -/
  queue : ResourceQueue PhaseRef
  /-- The batches for the gateway. -/
  completed : BatchQueue CompletedRound
  /-- The requests to the gateway. -/
  requests : BatchQueue BatchRequest
  /-- What has been measured. -/
  metrics : Metrics
  /-- What has left the node, newest first. -/
  events : List NodeEvent

namespace Node

/-- A node without rounds, whose queues have the capacities of its settings. -/
def furnish (id : NodeId) (config : NodeConfig) (group : CyclicGroup) : Except Fault Node := do
  let completed ← BatchQueue.ofCapacity CompletedRound.cellBytes config.completedCapacity
  let requests ← BatchQueue.ofCapacity BatchRequest.cellBytes config.requestCapacity
  return {
    id, config, group, completed, requests
    rounds := #[]
    registry := .empty
    queue := .create
    metrics := .empty
    events := [] }

/-- A node without rounds, if its settings are valid and there is room for its queues. -/
def create (id : NodeId) (config : NodeConfig) (group : CyclicGroup) :
    Except (Failure NodeError) Node :=
  match config.validate with
  | .error error => .error (.error (.config error))
  | .ok () => (furnish id config group).mapError .fault

/-- The settings of the node's graphs. -/
def graphSettings (node : Node) : Except Fault GraphSettings :=
  GraphSettings.create node.config.minSlotSize node.config.defaultThreads
    node.config.outputThreshold

/-- The node with another round at a position. -/
def setRound (node : Node) (position : Nat) (round : Round) : Node :=
  { node with rounds := node.rounds.setIfInBounds position round }

/-- Records milestones of a round's phases. -/
def measure (node : Node) (roundId : Nat) (milestones : List PhaseMilestone) : Node :=
  { node with
    metrics := milestones.foldl (fun metrics passed => metrics.measure {
      roundId, phase := passed.phase, milestone := passed.milestone, time := metrics.size })
      node.metrics }

/-- Records that something has left the node. -/
def emit (node : Node) (event : NodeEvent) : Node := { node with events := event :: node.events }

/-- The live round with a number, by position. -/
def roundAt? (node : Node) (roundId : Nat) : Option (Nat × Round) := do
  let position ← node.registry.get? roundId
  return (position, ← node.rounds[position]?)

/-! ## Operations from outside -/

/-- Creates a round.  A taken number is refused first, then a ring without the local node. -/
def createRound (node : Node) (roundId : Nat) (nodes : List NodeId) (batchSize : Nat)
    (phases : List Phase) (responses : ResponseMap) : Except (Failure RoundError) Node :=
  if node.registry.contains roundId then .error (.error (.duplicateRound roundId))
  else
    match Topology.create nodes node.id with
    | none => .error (.error .notInTopology)
    | some topology =>
      match Round.create node.group roundId topology batchSize phases responses with
      | .error failure => .error failure
      | .ok round =>
        match node.registry.add roundId node.rounds.size with
        | .error error => .error (.error error)
        | .ok registry => .ok { node with registry, rounds := node.rounds.push round }

/-- Puts a claimed phase into the resource queue; a queue that has shut down drops it. -/
def enqueue (node : Node) (ref : PhaseRef) : Node :=
  { node with queue := (node.queue.push ref).2 }

/-- Routes an event to a live round. -/
def deliver (node : Node) (roundId : Nat) (tag : String) (event : Event) :
    Except (Failure RoundError) Unit × Node :=
  match node.roundAt? roundId with
  | none => (.error (.error (.unknownRound roundId)), node)
  | some (position, round) =>
    let delivery := round.deliver tag event
    let driven := (node.setRound position delivery.round).measure round.id delivery.milestones
    let queued := match delivery.claimed with
      | some kind => driven.enqueue { round := position, kind }
      | none => driven
    (delivery.outcome, queued)

/-- Removes a live round and stops its graphs.  Answers its position. -/
def dropRound (node : Node) (roundId : Nat) : Except RoundError (Nat × Node) :=
  match node.roundAt? roundId with
  | none => .error (.unknownRound roundId)
  | some (position, round) =>
    let removed := { node with registry := (node.registry.remove roundId).2 }
    .ok (position, removed.setRound position round.kill)

/-- Overwrites the secrets of a dropped round. -/
def eraseRound (node : Node) (position : Nat) : Node :=
  match node.rounds[position]? with
  | none => node
  | some round => node.setRound position round.erase

/-- Fails a round and reports it, unless it had failed before. -/
def failRound (node : Node) (position : Nat) (error : RoundError) : Bool × Node :=
  match node.rounds[position]? with
  | none => (false, node)
  | some round =>
    let (fresh, failed) := round.fail error
    let updated := node.setRound position failed
    (fresh, if fresh then updated.emit (.roundFailed round.id error) else updated)

/-! ## The consumer of the resource queue -/

/-- The round and the phase of a reference. -/
def phaseAt? (node : Node) (ref : PhaseRef) : Option (Round × Phase) := do
  let round ← node.rounds[ref.round]?
  return (round, ← round.phase? ref.kind)

/-- The node with another phase at a reference. -/
def setPhase (node : Node) (ref : PhaseRef) (phase : Phase) : Node :=
  match node.rounds[ref.round]? with
  | none => node
  | some round => node.setRound ref.round (round.setPhase phase)

/-- The node after a move of a phase, with the milestones it passed. -/
def applyStep (node : Node) (ref : PhaseRef) (roundId : Nat) (step : PhaseStep) : Node :=
  (node.setPhase ref step.phase).measure roundId (Round.tagged ref.kind step.milestones)

/-- The node whose consumer a fault has stopped. -/
def stopConsumer (node : Node) (fault : Fault) : Node :=
  { node with queue := { node.queue with running := none, fault := some fault } }

/-- Starts a phase: activates it and runs its graph.  A phase of a failed round fails with it, and a
phase that has failed before is passed over. -/
def start (node : Node) (ref : PhaseRef) (round : Round) (phase : Phase) : Node :=
  if round.isFailed then node.setPhase ref phase.fail.2
  else
    let activated := phase.activate
    let moved := node.applyStep ref round.id activated
    match activated.outcome with
    | .error fault => moved.stopConsumer fault
    | .ok false => moved
    | .ok true =>
      match activated.phase.graph.run with
      | .error fault => moved.stopConsumer fault
      | .ok graph =>
        let running : RunningPhase PhaseRef :=
          { phase := ref, transmission := .start, result := none }
        let begun := moved.setPhase ref { activated.phase with graph }
        { begun with queue := { begun.queue with running := some running } }

/-- The idle consumer takes the next phase from the queue. -/
def startNext (node : Node) : Option Node :=
  match node.queue.fault, node.queue.running, node.queue.waiting with
  | none, none, ref :: rest =>
    let taken := { node with queue := { node.queue with waiting := rest } }
    match node.phaseAt? ref with
    | none => some taken
    | some (round, phase) => some (taken.start ref round phase)
  | _, _, _ => none

/-- What the transmitter of a phase may know. -/
def contextOf (round : Round) (phase : Phase) : TransmitContext where
  roundId := round.id
  phase := phase.kind
  topology := round.topology
  batchSize := phase.batchSize
  message := phase.graph.stream.output
  outputComplete := phase.graph.isComplete

/-- What leaves the node at the end of a transmission. -/
def emitConclusion (node : Node) (context : TransmitContext) (conclusion : Conclusion) : Node :=
  let delivered := match conclusion.delivered with
    | none => node
    | some slots => node.emit (.delivered {
        roundId := context.roundId, phase := context.phase, batchSize := context.batchSize
        localIndex := context.topology.localIndex, complete := context.outputComplete, slots })
  conclusion.notified.foldl (fun told call => told.emit (.notified call context.roundId)) delivered

/-- Ends the transmission of the running phase. -/
def concludeTransmission (node : Node) (running : RunningPhase PhaseRef) (round : Round)
    (phase : Phase) : Node :=
  let context := contextOf round phase
  let conclusion := running.transmission.conclude phase.transmitter context node.completed
  let ended := { node with
    completed := conclusion.completed
    queue := { node.queue with running := some { running with result := some conclusion.result } } }
  ended.emitConclusion context conclusion

/-- The transmitter of the running phase takes a chunk, or ends because it reads no more or because
the output has ended.  While the sink is open and empty it waits. -/
def stepTransmission (node : Node) : Option Node := do
  let running ← node.queue.running
  if running.result.isSome then none
  else
    let (round, phase) ← node.phaseAt? running.phase
    if !running.transmission.isReading phase.transmitter then
      return node.concludeTransmission running round phase
    else
      match phase.graph.takeOutput with
      | .error fault => return node.stopConsumer fault
      | .ok (.empty, _) => none
      | .ok (.drained, _) => return node.concludeTransmission running round phase
      | .ok (.chunk chunk, graph) =>
        let transmission :=
          running.transmission.read phase.transmitter (contextOf round phase) chunk
        let taken := node.setPhase running.phase { phase with graph }
        return { taken with
          queue := { taken.queue with running := some { running with transmission } } }

/-- Closes the run of a phase by a verdict.  Success finalizes it; failure stops its graph and fails
it together with its round. -/
def closeRun (node : Node) (ref : PhaseRef) (round : Round) (phase : Phase) (report : Report) :
    Node :=
  let freed := { node with queue := { node.queue with running := none } }
  match verdict phase report with
  | .ok () =>
    let transmitted :=
      freed.measure round.id (Round.tagged ref.kind (phase.recorded [.lastSlotTransmitted]))
    let finalized := phase.finalize
    let moved := transmitted.applyStep ref round.id finalized
    match finalized.outcome with
    | .error fault => moved.stopConsumer fault
    | .ok _ => moved
  | .error error =>
    let killed := { phase with graph := phase.graph.kill }
    ((freed.setPhase ref killed.fail.2).failRound ref.round error).2

/-- The consumer closes a run whose transmission has ended. -/
def finishRun (node : Node) : Option Node := do
  let running ← node.queue.running
  let result ← running.result
  let (round, phase) ← node.phaseAt? running.phase
  return node.closeRun running.phase round phase (.transmitted result)

/-- Lets a transmission whose run has been closed come to its end: the graph has been stopped, so
the transmitter reads what is left in the sink.  Nobody hears its result. -/
def abandonTransmission (node : Node) (running : RunningPhase PhaseRef) : Node :=
  match running.result, node.phaseAt? running.phase with
  | none, some (round, phase) =>
    let context := contextOf round phase
    let (read, left) :=
      running.transmission.readAll phase.transmitter context phase.graph.pendingOutput
    let taken :=
      node.setPhase running.phase { phase with graph := phase.graph.setPendingOutput left }
    let conclusion := read.conclude phase.transmitter context node.completed
    { taken with completed := conclusion.completed }.emitConclusion context conclusion
  | _, _ => node

/-- The time of the running phase is up.  Its transmission outlives the run that is closed. -/
def expireRun (node : Node) : Option Node := do
  let running ← node.queue.running
  let (round, phase) ← node.phaseAt? running.phase
  let after := phase.timeout.getD node.config.phaseTimeout
  let closed := node.closeRun running.phase round phase (.expired after)
  return closed.abandonTransmission running

/-- Accepts no more phases. -/
def closeQueue (node : Node) : Node := { node with queue := node.queue.shutdown }

end Node

end Mixnet
