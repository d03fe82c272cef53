import Mixnet.Phase
import Mixnet.Response

/-!
# Rounds

A round owns a buffer of secrets, the phases that work on it, and the responses by which events find
their phase.

## Main definitions

* `Round`: a round
* `Round.create`: builds, links and binds every phase, or says why that cannot be
* `Round.deliver`: routes an event to a phase
* `Round.fail`: ends the round; only the first failure counts
* `Round.kill`, `Round.erase`: stop its graphs, and overwrite its secrets

## Design notes

An operation that changes a round answers the round afterwards even when it fails, because what
was done before the failure stays done.  Milestones passed on the way, and a phase that has to be
queued, are answered beside it, so that a round needs neither a clock nor a queue.
-/

namespace Mixnet

open Mixnet.Text

/-- One round of the node. -/
structure Round where
  /-- The number of the round. -/
  id : Nat
  /-- The nodes that take part. -/
  topology : Topology
  /-- The number of real slots. -/
  batchSize : Nat
  /-- The secrets shared by the phases. -/
  buffer : RoundBuffer
  /-- The phases, at most one of each kind. -/
  phases : List Phase
  /-- Where events go. -/
  responses : ResponseMap
  /-- The error the round failed with, if it has. -/
  failure : Option RoundError

/-- A milestone passed by a phase of a round. -/
structure PhaseMilestone where
  /-- The phase. -/
  phase : PhaseKind
  /-- The milestone. -/
  milestone : Milestone
deriving DecidableEq

/-- What delivering an event does. -/
structure Delivery where
  /-- The outcome. -/
  outcome : Except (Failure RoundError) Unit
  /-- The round afterwards. -/
  round : Round
  /-- The milestones passed, in order. -/
  milestones : List PhaseMilestone
  /-- The phase that has claimed a place in the resource queue. -/
  claimed : Option PhaseKind

namespace Round

/-! ## Creation -/

/-- The first kind that stands twice in a list. -/
def firstRepeated : List PhaseKind → List PhaseKind → Option PhaseKind
  | _, [] => none
  | seen, kind :: rest =>
    if seen.contains kind then some kind else firstRepeated (kind :: seen) rest

/-- Refuses phases of one kind twice, and responses that name a kind without a phase. -/
def checkPhases (phases : List Phase) (responses : ResponseMap) : Except RoundError Unit :=
  let kinds := phases.map Phase.kind
  match firstRepeated [] kinds with
  | some kind => .error (.duplicatePhase kind)
  | none =>
    match responses.mentioned.find? (!kinds.contains ·) with
    | some kind => .error (.unknownPhase kind)
    | none => .ok ()

/-- Builds the graph of every phase. -/
def buildPhases (batchSize : Nat) : List Phase → Except Fault (List Phase)
  | [] => .ok []
  | phase :: rest => do
    let graph ← phase.graph.build batchSize
    return { phase with graph } :: (← buildPhases batchSize rest)

/-- Links every phase to the buffer and binds it to the round. -/
def linkPhases (buffer : RoundBuffer) (binding : PhaseBinding) :
    List Phase → Except Fault (List Phase)
  | [] => .ok []
  | phase :: rest => do
    let graph ← phase.graph.link buffer
    let bound ← { phase with graph : Phase }.bind binding
    return bound :: (← linkPhases buffer binding rest)

/-- The greatest padded size of any phase; without phases, the batch size. -/
def expandedSize (batchSize : Nat) : List Phase → Nat
  | [] => batchSize
  | phases => (phases.map fun phase => phase.graph.expandedSize).foldl max 0

/-- Sets up the buffer and every phase of a round that passed the checks. -/
def assemble (group : CyclicGroup) (id : Nat) (topology : Topology) (batchSize : Nat)
    (phases : List Phase) (responses : ResponseMap) : Except Fault Round := do
  let built ← buildPhases batchSize phases
  let buffer := RoundBuffer.create group batchSize (expandedSize batchSize built)
  let linked ← linkPhases buffer { roundId := id, batchSize } built
  return { id, topology, batchSize, buffer, phases := linked, responses, failure := none }

/-- A new round. -/
def create (group : CyclicGroup) (id : Nat) (topology : Topology) (batchSize : Nat)
    (phases : List Phase) (responses : ResponseMap) : Except (Failure RoundError) Round :=
  match checkPhases phases responses with
  | .error error => .error (.error error)
  | .ok () => (assemble group id topology batchSize phases responses).mapError .fault

instance : Describe Round :=
  ⟨fun round =>
    record "Round" [("id", describe round.id), ("batch_size", describe round.batchSize),
      ("topology", describe round.topology),
      ("phases", describe (PhaseKind.all.filter (round.phases.map Phase.kind).contains)),
      ("failed", describe round.failure.isSome)]⟩

/-- The description of how a round stands. -/
def describeStatus (round : Round) : String :=
  record "RoundStatus" [("round_id", describe round.id), ("failed", describe round.failure.isSome),
    ("error", describe round.failure)]

/-! ## Phases -/

/-- Whether a round has failed. -/
def isFailed (round : Round) : Bool := round.failure.isSome

/-- The phase of a kind, if the round has one. -/
def phase? (round : Round) (kind : PhaseKind) : Option Phase :=
  round.phases.find? (·.kind = kind)

/-- The phase of a kind, or the error of a round without one. -/
def phase (round : Round) (kind : PhaseKind) : Except RoundError Phase :=
  match round.phase? kind with
  | some phase => .ok phase
  | none => .error (.unknownPhase kind)

/-- The round with a phase in place of the one of the same kind. -/
def setPhase (round : Round) (phase : Phase) : Round :=
  { round with
    phases := round.phases.map fun other => if other.kind = phase.kind then phase else other }

/-- Fails the round.  Answers whether it had not failed before; the first error is kept. -/
def fail (round : Round) (error : RoundError) : Bool × Round :=
  if round.isFailed then (false, round) else (true, { round with failure := some error })

/-! ## Events -/

/-- Takes slots into the stream of a phase, up to the first that is refused. -/
def inputSlots (phase : Phase) : List Slot → Except StreamError Unit × Phase
  | [] => (.ok (), phase)
  | slot :: rest =>
    match phase.input slot.index slot with
    | .error error => (.error error, phase)
    | .ok taken => inputSlots taken rest

/-- An event that passed no milestone and queued nothing. -/
def refuse (round : Round) (failure : Failure RoundError) : Delivery where
  outcome := .error failure
  round := round
  milestones := []
  claimed := none

/-- Queues a phase of the round, if it has not been queued before. -/
def claimPhase (round : Round) (phase : Phase) (milestones : List PhaseMilestone) : Delivery :=
  let (fresh, claimed) := phase.claim
  { outcome := .ok ()
    round := round.setPhase claimed
    milestones
    claimed := if fresh then some phase.kind else none }

/-- The milestones of one phase, in the form of the round. -/
def tagged (kind : PhaseKind) (milestones : List Milestone) : List PhaseMilestone :=
  milestones.map fun milestone => { phase := kind, milestone }

/-- Takes the slots of an event into a phase and queues the phase. -/
def deliverSlots (round : Round) (target : Phase) (slots : List Slot) : Delivery :=
  match slotRange slots round.batchSize with
  | .error failure => round.refuse failure
  | .ok chunk =>
    match inputSlots target slots with
    | (.error error, taken) => (round.setPhase taken).refuse (.error (.stream error))
    | (.ok (), taken) =>
      let sent := taken.send chunk
      let milestones := tagged target.kind sent.milestones
      match sent.outcome with
      | .error fault =>
        { outcome := .error (.fault fault), round := round.setPhase sent.phase, milestones,
          claimed := none }
      | .ok _ => round.claimPhase sent.phase milestones

/-- Verifies a phase that waits for it. -/
def deliverVerify (round : Round) (target : Phase) : Delivery :=
  if target.state = .computed then
    let verified := target.verify
    { outcome := (verified.outcome.map fun _ => ()).mapError .fault
      round := round.setPhase verified.phase
      milestones := tagged target.kind verified.milestones
      claimed := none }
  else round.refuse (.error (.unexpectedState target.kind target.state [.computed]))

/-- Lets an event act on the phase it drives. -/
def drive (round : Round) (target : Phase) : Event → Delivery
  | .slots slots => round.deliverSlots target slots
  | .start => round.claimPhase target []
  | .verify => round.deliverVerify target

/-- The phase that an event with a tag drives, if the phase that gates it lets it through. -/
def route (round : Round) (tag : String) : Except RoundError Phase :=
  match round.responses.get? tag with
  | none => .error (.unknownTag tag)
  | some response => do
    let source ← round.phase response.source
    if response.accepts source.state then round.phase response.target
    else throw (.unexpectedState response.source source.state response.expected)

/-- Routes an event to the phase it drives.  A failed round takes no events. -/
def deliver (round : Round) (tag : String) (event : Event) : Delivery :=
  if round.isFailed then round.refuse (.error (.alreadyFailed round.id))
  else
    match round.route tag with
    | .error error => round.refuse (.error error)
    | .ok target => round.drive target event

/-! ## The end -/

/-- Stops the graph of every phase. -/
def kill (round : Round) : Round :=
  { round with phases := round.phases.map fun phase => { phase with graph := phase.graph.kill } }

/-- Overwrites every secret. -/
def erase (round : Round) : Round := { round with buffer := round.buffer.erase }

end Round

end Mixnet
