import Mixnet.Graph
import Mixnet.Measure
import Mixnet.Transmitter

/-!
# Phases

A phase is one stage of a round: a graph that computes it, a transmitter that hands its output on,
and a place in the lifecycle.

## Main definitions

* `Phase`: a phase
* `Phase.moveTo`: the edges of the lifecycle, taken or refused
* `Phase.activate`, `Phase.finalize`, `Phase.verify`, `Phase.fail`: the moves that have a meaning
* `Phase.claim`: the one permission to be queued
* `Phase.input`, `Phase.send`: slots in

## Design notes

A move answers whether it changed the state.  Once a phase has failed every further move is refused
without a fault; any other move along no edge of the lifecycle is a fault, and changes nothing.

An operation that passes a milestone answers it beside the phase.  Only a phase that belongs to a
round passes milestones.
-/

namespace Mixnet

open Mixnet.Text

/-- The round a phase belongs to. -/
structure PhaseBinding where
  /-- The round. -/
  roundId : Nat
  /-- The number of real slots of the round. -/
  batchSize : Nat
deriving DecidableEq

/-- One stage of a round. -/
structure Phase where
  /-- Which stage it is. -/
  kind : PhaseKind
  /-- What computes it. -/
  graph : Graph
  /-- What hands its output on. -/
  transmitter : Transmitter
  /-- How long it may run, if it is not the default of the node. -/
  timeout : Option Span
  /-- Whether a peer has to verify it. -/
  verification : Bool
  /-- Where it stands in its lifecycle. -/
  state : PhaseState
  /-- Whether it has been queued. -/
  queued : Bool
  /-- Whether any input has been sent to it. -/
  received : Bool
  /-- The round it belongs to. -/
  binding : Option PhaseBinding

/-- What an operation on a phase answers: its outcome, the phase afterwards, and the milestones that
were passed. -/
structure PhaseStep where
  /-- The outcome. -/
  outcome : Except Fault Bool
  /-- The phase afterwards. -/
  phase : Phase
  /-- The milestones passed, in order. -/
  milestones : List Milestone

namespace Phase

/-- A phase that has not begun. -/
def create (kind : PhaseKind) (graph : Graph) (transmitter : Transmitter) (timeout : Option Span)
    (verification : Bool) : Phase where
  kind := kind
  graph := graph
  transmitter := transmitter
  timeout := timeout
  verification := verification
  state := .initialized
  queued := false
  received := false
  binding := none

instance : Describe Phase :=
  ⟨fun phase =>
    record "Phase" [("type", describe phase.kind), ("state", describe phase.state),
      ("queued", describe phase.queued),
      ("round_id", describe (phase.binding.map PhaseBinding.roundId)),
      ("graph", describe phase.graph.name)]⟩

/-- Ties a phase to its round, once. -/
def bind (phase : Phase) (binding : PhaseBinding) : Except Fault Phase := do
  Invariant.phaseRebind.require phase.binding.isNone "phase bound to a second round"
    (some (phase.kind.text ++ s!" for round {binding.roundId}"))
  return { phase with binding := some binding }

/-- The milestones among those given that are recorded: all of them if the phase belongs to a round,
and none otherwise. -/
def recorded (phase : Phase) (milestones : List Milestone) : List Milestone :=
  if phase.binding.isSome then milestones else []

/-! ## Lifecycle -/

/-- Moves along an edge of the lifecycle.  A failed phase refuses; a move along no edge is a fault.
-/
def moveTo (phase : Phase) (target : PhaseState) : Except Fault Bool × Phase :=
  if phase.state = .error then (.ok false, phase)
  else if phase.state.canMoveTo target then (.ok true, { phase with state := target })
  else
    (.error (.violated .illegalTransition "illegal phase transition"
      (some (phase.kind.text ++ ": " ++ phase.state.text ++ " -> " ++ target.text))), phase)

/-- A move, with the milestone of verification if it led there. -/
def moveStep (phase : Phase) (target : PhaseState) : PhaseStep :=
  let (outcome, moved) := phase.moveTo target
  let verified := match outcome with
    | .ok true => if target = .verified then [Milestone.verification] else []
    | _ => []
  { outcome, phase := moved, milestones := phase.recorded verified }

/-- The phase has been selected to run. -/
def activate (phase : Phase) : PhaseStep := phase.moveStep .active

/-- The work is done: verified at once, or computed if a peer has to verify it. -/
def finalize (phase : Phase) : PhaseStep :=
  phase.moveStep (if phase.verification then .computed else .verified)

/-- A peer has verified the work. -/
def verify (phase : Phase) : PhaseStep := phase.moveStep .verified

/-- The phase has failed.  Answers whether it had not failed, and was not verified, before. -/
def fail (phase : Phase) : Bool × Phase :=
  if phase.state.canMoveTo .error then (true, { phase with state := .error }) else (false, phase)

/-- Claims the place of the phase in the resource queue.  Only the first claim succeeds. -/
def claim (phase : Phase) : Bool × Phase := (!phase.queued, { phase with queued := true })

/-- Whether the phase waits for its turn or has it: claimed and not begun, or active. -/
def isUnderWay (phase : Phase) : Bool :=
  match phase.state with
  | .initialized => phase.queued
  | state => state = .active

/-! ## Input -/

/-- Takes a slot into the stream. -/
def input (phase : Phase) (index : Nat) (slot : Slot) : Except StreamError Phase := do
  let stream ← phase.graph.stream.input index slot
  return { phase with graph := { phase.graph with stream } }

/-- The number of real slots: that of the round, or all slots of a phase without one. -/
def batchSize (phase : Phase) : Nat :=
  match phase.binding with
  | some binding => binding.batchSize
  | none => phase.graph.expandedSize

/-- The padding of the batch, if there is any. -/
def padding? (phase : Phase) : Except Fault (Option Chunk) :=
  if phase.batchSize < phase.graph.expandedSize then
    (Chunk.ofBounds phase.batchSize phase.graph.expandedSize).map some
  else .ok none

/-- Sends the padding to the graph if the chunk sent before ends where the real slots do.  The
outcome is that of the last chunk sent; `done` is that of the chunk before. -/
def sendPadding (phase : Phase) (chunk : Chunk) (done : Bool) : Except Fault Bool × Graph :=
  if chunk.stop = phase.batchSize then
    match phase.padding? with
    | .error fault => (.error fault, phase.graph)
    | .ok none => (.ok done, phase.graph)
    | .ok (some padding) => phase.graph.send padding
  else (.ok done, phase.graph)

/-- Sends a chunk to the graph, and behind the end of the real slots the padding too. -/
def sendPadded (phase : Phase) (chunk : Chunk) : Except Fault Bool × Graph :=
  match phase.graph.send chunk with
  | (.error fault, graph) => (.error fault, graph)
  | (.ok done, graph) => { phase with graph }.sendPadding chunk done

/-- What a phase answers once slots have been handed to its graph. -/
def sendStep (phase : Phase) (outcome : Except Fault Bool) (graph : Graph) : PhaseStep :=
  let first := if phase.received then [] else [Milestone.firstSlotReceived]
  let last := match outcome with
    | .ok true => [Milestone.lastSlotReceived]
    | _ => []
  { outcome
    phase := { phase with graph, received := true }
    milestones := phase.recorded (first ++ last) }

/-- Hands received slots to the graph.  Answers whether they were the last. -/
def send (phase : Phase) (chunk : Chunk) : PhaseStep :=
  let (outcome, graph) := phase.sendPadded chunk
  phase.sendStep outcome graph

end Phase

end Mixnet
