import Mixnet.Node
import Mixnet.Proofs.Play
import Mixnet.Proofs.Routing

/-!
# Playing a node

Whatever happens to a node is one sequence of events: rounds are created and dropped, events are
delivered to them, the consumer of the resource queue takes its steps, and the workers of all graphs
take theirs, writing what they compute on the way.  A play is such a sequence, and a law about every
interleaving is a law about every play.

## Main definitions

* `PhaseDeclaration`: a phase as it is handed to a round that is created
* `KernelWrite`: one write of a kernel
* `Node.Event`, `Node.act`, `Node.play`: what can happen to a node
* `Node.phase?`: the phase of a reference
* `Node.Turn`: what an event makes of a node

## Main statements

* `Node.turn_of_act`: an event that goes through takes one of these turns
* `Node.phase?_setRound`, `Node.phase?_setPhase`: who is touched by a change of a round or a phase
* `Node.start_cases`, `Node.closeRun_cases`: what starting and closing a run comes to

## Design notes

A request that is refused leaves the node as the refusal left it, and the play goes on.  A request
that faults does not lead anywhere.  A fault of the consumer stops the consumer, which the node
remembers.

A kernel writes cell by cell, between the step that enters its call and the step that ends it.  What
it writes is not constrained by what it should compute.
-/

namespace Mixnet

/-! ## Events -/

/-- A phase as it is handed to a round that is created: nothing has happened to it yet. -/
structure PhaseDeclaration where
  /-- Which stage it is. -/
  kind : PhaseKind
  /-- What computes it. -/
  graph : Graph
  /-- What hands its output on. -/
  transmitter : Transmitter
  /-- How long it may run, if it is not the default of the node. -/
  timeout : Option Span
  /-- Whether a peer has to verify it. -/
  verification : Bool

/-- The phase that is declared. -/
def PhaseDeclaration.phase (declared : PhaseDeclaration) : Phase :=
  .create declared.kind declared.graph declared.transmitter declared.timeout declared.verification

/-- One write of a kernel, to the stream of its phase or to the buffer of its round. -/
inductive KernelWrite where
  /-- A payload of a slot. -/
  | payload (side : PayloadSide) (index value : Nat)
  /-- A cell of one of the vectors. -/
  | vector (name : VectorName) (index value : Nat)
  /-- The value shared by all slots. -/
  | shared (value : Nat)
  /-- The key of the ciphertexts. -/
  | key (value : Nat)
  /-- The permutation of the real slots. -/
  | permutation (targets : List Nat)

/-- A workspace after a write.  A write past the end changes nothing, and neither does one of
payloads to a stream without any. -/
def KernelWrite.apply (workspace : Workspace) : KernelWrite → Workspace
  | .payload side index value =>
    match workspace.stream with
    | .payload ⟨some cells⟩ =>
      { workspace with
        stream := .payload ⟨some (cells.setArray side ((cells.array side).put index value))⟩ }
    | _ => workspace
  | .vector name index value =>
    { workspace with
      buffer := workspace.buffer.setVector name ((workspace.buffer.vector name).put index value) }
  | .shared value => { workspace with buffer := { workspace.buffer with z := value } }
  | .key value => { workspace with buffer := { workspace.buffer with publicKey := value } }
  | .permutation targets =>
    { workspace with buffer := (workspace.buffer.setPermutation targets).2 }

/-- Whether a worker of a graph is inside a kernel call. -/
def Graph.isCalling (graph : Graph) (position : Nat) : Bool :=
  graph.dispatch.any fun dispatch => dispatch.workers[position]?.any fun worker =>
    match worker.activity with
    | .calling .. => true
    | _ => false

namespace Node

/-- What can happen to a node. -/
inductive Event where
  /-- A round is created. -/
  | create (roundId : Nat) (nodes : List NodeId) (batchSize : Nat)
    (declared : List PhaseDeclaration) (responses : ResponseMap)
  /-- An event is delivered to a round. -/
  | deliver (roundId : Nat) (tag : String) (event : Mixnet.Event)
  /-- A round is dropped: it is gone from the registry, and its graphs are stopped. -/
  | drop (roundId : Nat)
  /-- The secrets of a dropped round are overwritten. -/
  | erase (position : Nat)
  /-- The consumer takes the next phase from the queue. -/
  | start
  /-- The transmitter of the running phase takes a step. -/
  | transmit
  /-- The machine has no thread for the phase that the consumer has just started. -/
  | startFails (reason : String)
  /-- The consumer hears of the end of the transmission. -/
  | finish
  /-- The time of the running phase is up. -/
  | expire
  /-- A worker of a phase's graph takes a step. -/
  | work (ref : PhaseRef) (step : Dispatch.Step)
  /-- A kernel inside a call writes. -/
  | write (ref : PhaseRef) (worker : Nat) (write : KernelWrite)
  /-- No more phases are accepted. -/
  | close

/-! ## Phases by reference -/

/-- The phase of a reference, if there is one. -/
def phase? (node : Node) (ref : PhaseRef) : Option Phase := (node.phaseAt? ref).map Prod.snd

/-- The node with fewer phases waiting. -/
def withWaiting (node : Node) (waiting : List PhaseRef) : Node :=
  { node with queue := { node.queue with waiting } }

/-- A node after a delivery to the round at a position. -/
def afterDelivery (node : Node) (position roundId : Nat) (delivery : Delivery) : Node :=
  let driven := (node.setRound position delivery.round).measure roundId delivery.milestones
  match delivery.claimed with
  | some kind => driven.enqueue { round := position, kind }
  | none => driven

/-- The node whose consumer runs nothing. -/
def freed (node : Node) : Node := { node with queue := { node.queue with running := none } }

/-- The node after the run of a phase has failed: its graph is stopped, and the phase fails together
with its round. -/
def failRun (node : Node) (ref : PhaseRef) (phase : Phase) (error : RoundError) : Node :=
  let killed := { phase with graph := phase.graph.kill }
  ((node.freed.setPhase ref killed.fail.2).failRound ref.round error).2

/-- The node after the start of the running phase has failed. -/
def failStart (node : Node) (reason : String) : Option Node := do
  let running ← node.queue.running
  let (_, phase) ← node.phaseAt? running.phase
  return node.failRun running.phase phase (.spawn phase.kind reason)

/-- The node after a kernel of a phase has written. -/
def afterWrite (node : Node) (ref : PhaseRef) (round : Round) (phase : Phase)
    (write : KernelWrite) : Node :=
  let after := write.apply { stream := phase.graph.stream, buffer := round.buffer }
  node.setRound ref.round
    { round.setPhase (phase.withStream after.stream) with buffer := after.buffer }

/-- The phase that an event puts into the resource queue, if it puts any. -/
def pushed? (node : Node) : Event → Option PhaseRef
  | .deliver roundId tag event =>
    (node.roundAt? roundId).bind fun (position, round) =>
      (round.deliver tag event).claimed.map fun kind => { round := position, kind }
  | _ => none

/-- The phase that an event activates, if it activates any. -/
def activated? (node : Node) : Event → Option PhaseRef
  | .start =>
    node.queue.waiting.head?.bind fun ref =>
      (node.phaseAt? ref).bind fun (round, phase) =>
        match round.isFailed, phase.activate.outcome with
        | false, .ok true => some ref
        | _, _ => none
  | _ => none

/-- The node after an event, if the event goes through. -/
def act (node : Node) : Event → Option Node
  | .create roundId nodes batchSize declared responses =>
    match node.createRound roundId nodes batchSize (declared.map PhaseDeclaration.phase)
        responses with
    | .ok next => some next
    | .error (.error _) => some node
    | .error (.fault _) => none
  | .deliver roundId tag event =>
    match node.deliver roundId tag event with
    | (.error (.fault _), _) => none
    | (_, next) => some next
  | .drop roundId =>
    match node.dropRound roundId with
    | .ok (_, next) => some next
    | .error _ => some node
  | .erase position =>
    if node.registry.entries.any (·.2 = position) then none else some (node.eraseRound position)
  | .start => node.startNext
  | .transmit => node.stepTransmission
  | .startFails reason => node.failStart reason
  | .finish => node.finishRun
  | .expire => node.expireRun
  | .work ref step =>
    (node.phase? ref).bind fun phase => (phase.graph.act (.work step)).map fun graph =>
      node.setPhase ref { phase with graph }
  | .write ref worker write =>
    (node.phaseAt? ref).bind fun (round, phase) =>
      if phase.graph.isCalling worker then some (node.afterWrite ref round phase write) else none
  | .close => some node.closeQueue

/-- The node after a list of events, if each goes through. -/
def play (node : Node) : List Event → Option Node
  | [] => some node
  | event :: rest => (node.act event).bind (play · rest)

/-- **Induction over a play**: what holds at first, and is kept by every event, holds in the end. -/
theorem play_induction {motive : Node → Prop} {node after : Node} {events : List Event}
    (start : motive node)
    (keeps : ∀ before event next, motive before → before.act event = some next → motive next)
    (played : node.play events = some after) : motive after := by
  induction events generalizing node with
  | nil =>
      injection played with same
      subst same
      exact start
  | cons event events ih =>
      obtain ⟨next, acted, continued⟩ := Option.bind_eq_some_iff.mp played
      exact ih (keeps node event next start acted) continued

/-- A node that has just been created has no rounds, its consumer has nothing to do, and nothing has
left it. -/
theorem of_create {node : Node} {id : NodeId} {config : NodeConfig} {group : CyclicGroup}
    (created : create id config group = .ok node) :
    node.rounds = #[] ∧ node.queue = .create ∧ node.events = [] := by
  rw [create] at created
  split at created
  case h_1 => cases created
  case h_2 =>
    cases furnished : furnish id config group with
    | error fault =>
        rw [furnished] at created
        cases created
    | ok made =>
        rw [furnished] at created
        injection created with same
        subst same
        obtain ⟨completed, -, furnished⟩ := Fault.bind_eq_ok.mp furnished
        obtain ⟨requests, -, furnished⟩ := Fault.bind_eq_ok.mp furnished
        injection furnished with same
        subst same
        exact ⟨rfl, rfl, rfl⟩

theorem play_append (node : Node) (earlier later : List Event) :
    node.play (earlier ++ later) = (node.play earlier).bind (·.play later) := by
  induction earlier generalizing node with
  | nil => rfl
  | cons event earlier ih =>
      rw [List.cons_append, play, play]
      cases node.act event with
      | none => rfl
      | some next => exact ih next

/-- The last event of a play happens to the node that the others lead to. -/
theorem play_concat {node after : Node} {events : List Event} {event : Event}
    (played : node.play (events ++ [event]) = some after) :
    ∃ before, node.play events = some before ∧ before.act event = some after := by
  rw [play_append] at played
  obtain ⟨before, reached, last⟩ := Option.bind_eq_some_iff.mp played
  refine ⟨before, reached, ?_⟩
  simpa [play, Option.bind_eq_some_iff] using last

/-! ## What a change touches -/

section Frame

variable {node next : Node} {ref other : PhaseRef} {round : Round} {phase : Phase} {position : Nat}

/-- A reference leads to a phase by way of its round. -/
theorem phaseAt?_eq_some : node.phaseAt? ref = some (round, phase) ↔
    node.rounds[ref.round]? = some round ∧ round.phase? ref.kind = some phase := by
  simp only [phaseAt?, Option.bind_eq_bind, Option.bind_eq_some_iff, Option.pure_def,
    Option.some.injEq, Prod.mk.injEq]
  constructor
  · rintro ⟨round, found, phase, here, rfl, rfl⟩
    exact ⟨found, here⟩
  · rintro ⟨found, here⟩
    exact ⟨round, found, phase, here, rfl, rfl⟩

theorem phase?_eq (node : Node) (ref : PhaseRef) :
    node.phase? ref = node.rounds[ref.round]?.bind (·.phase? ref.kind) := by
  rw [phase?, phaseAt?]
  cases node.rounds[ref.round]? with
  | none => rfl
  | some round => cases here : round.phase? ref.kind <;> simp [here]

theorem phase?_of_phaseAt? (found : node.phaseAt? ref = some (round, phase)) :
    node.phase? ref = some phase := by
  rw [phase?, found, Option.map_some]

theorem exists_round_of_phase? (found : node.phase? ref = some phase) :
    ∃ round, node.phaseAt? ref = some (round, phase) := by
  obtain ⟨⟨round, other⟩, there, rfl⟩ := Option.map_eq_some_iff.mp found
  exact ⟨round, there⟩

theorem kind_of_phaseAt? (found : node.phaseAt? ref = some (round, phase)) :
    phase.kind = ref.kind :=
  Round.kind_of_phase? (phaseAt?_eq_some.mp found).2

theorem getElem?_setRound (found : node.rounds[position]? = some round) (after : Round)
    (index : Nat) : (node.setRound position after).rounds[index]? =
      if index = position then some after else node.rounds[index]? := by
  obtain ⟨inside, -⟩ := Array.getElem?_eq_some_iff.mp found
  show (node.rounds.setIfInBounds position after)[index]? = _
  by_cases same : index = position
  · rw [if_pos same, same, Array.getElem?_setIfInBounds_self_of_lt inside]
  · rw [if_neg same, Array.getElem?_setIfInBounds_ne (Ne.symm same)]

/-- **A change of a round touches the phases of that round.** -/
theorem phase?_setRound (found : node.rounds[position]? = some round) (after : Round)
    (ref : PhaseRef) : (node.setRound position after).phase? ref =
      if ref.round = position then after.phase? ref.kind else node.phase? ref := by
  rw [phase?_eq, phase?_eq, getElem?_setRound found]
  split <;> rfl

theorem setPhase_eq (found : node.phaseAt? ref = some (round, phase)) (after : Phase) :
    node.setPhase ref after = node.setRound ref.round (round.setPhase after) := by
  rw [setPhase, (phaseAt?_eq_some.mp found).1]

/-- A round with one phase replaced has that one at its reference, and the others where they
were. -/
theorem phase?_setRound_setPhase (found : node.phaseAt? ref = some (round, phase)) {after : Phase}
    (kind_eq : after.kind = ref.kind) {changed : Round}
    (phases_eq : changed.phases = (round.setPhase after).phases) :
    (node.setRound ref.round changed).phase? = Function.update node.phase? ref (some after) := by
  obtain ⟨there, here⟩ := phaseAt?_eq_some.mp found
  have changed_eq (kind : PhaseKind) :
      changed.phase? kind = (round.setPhase after).phase? kind := by
    rw [Round.phase?, phases_eq]
    rfl
  funext other
  rw [phase?_setRound there, changed_eq, Round.phase?_setPhase, kind_eq, Function.update_apply]
  by_cases same_round : other.round = ref.round
  · by_cases same_kind : other.kind = ref.kind
    · have same : other = ref := by
        cases other
        cases ref
        simp_all
      rw [if_pos same_round, if_pos same_kind, if_pos same, same_kind, here, Option.map_some]
    · have different : other ≠ ref := fun same => same_kind (congrArg PhaseRef.kind same)
      rw [if_pos same_round, if_neg same_kind, if_neg different, phase?_eq, same_round, there,
        Option.bind_some]
  · have different : other ≠ ref := fun same => same_round (congrArg PhaseRef.round same)
    rw [if_neg same_round, if_neg different]

/-- **A change of a phase touches that phase alone.** -/
theorem phase?_setPhase (found : node.phaseAt? ref = some (round, phase)) (after : Phase)
    (kind_eq : after.kind = ref.kind) :
    (node.setPhase ref after).phase? = Function.update node.phase? ref (some after) := by
  rw [setPhase_eq found]
  exact phase?_setRound_setPhase found kind_eq rfl

/-- What is emitted at the end of a transmission is all that changes. -/
theorem emitConclusion_eq (node : Node) (context : TransmitContext) (conclusion : Conclusion) :
    ∃ events, node.emitConclusion context conclusion = { node with events } := by
  have told (calls : List PeerCall) (start : Node) : ∃ events,
      calls.foldl (fun told call => told.emit (.notified call context.roundId)) start =
        { start with events } := by
    induction calls generalizing start with
    | nil => exact ⟨start.events, rfl⟩
    | cons call calls ih => exact ih _
  rw [emitConclusion]
  split <;> exact told _ _

/-- Failing a round changes neither its phases nor the queue. -/
theorem failRound_eq (found : node.rounds[position]? = some round) (error : RoundError) :
    ∃ failure events, (node.failRound position error).2 =
      { node.setRound position { round with failure } with events } := by
  rw [failRound, found]
  dsimp only
  rw [Round.fail]
  split
  · exact ⟨round.failure, node.events, rfl⟩
  · exact ⟨some error, _, rfl⟩

theorem roundAt?_eq_some {roundId : Nat} (live : node.roundAt? roundId = some (position, round)) :
    node.rounds[position]? = some round := by
  simp only [roundAt?, Option.bind_eq_bind, Option.bind_eq_some_iff, Option.pure_def,
    Option.some.injEq, Prod.mk.injEq] at live
  obtain ⟨_, -, _, found, rfl, rfl⟩ := live
  exact found

end Frame

/-! ## Turns -/

/-- A delivery to a live round. -/
theorem deliver_eq {node : Node} {roundId position : Nat} {round : Round}
    (live : node.roundAt? roundId = some (position, round)) (tag : String) (event : Mixnet.Event) :
    node.deliver roundId tag event = ((round.deliver tag event).outcome,
      node.afterDelivery position round.id (round.deliver tag event)) := by
  rw [deliver, live]
  rfl

theorem pushed?_deliver {node : Node} {roundId position : Nat} {round : Round}
    (live : node.roundAt? roundId = some (position, round)) (tag : String) (event : Mixnet.Event) :
    node.pushed? (.deliver roundId tag event) =
      (round.deliver tag event).claimed.map fun kind => { round := position, kind } := by
  rw [pushed?, live]
  rfl

/-- What an event makes of a node. -/
inductive Turn (node : Node) : Event → Node → Prop
  /-- A request is refused, and nothing changes. -/
  | refused {event : Event} (silent : node.pushed? event = none)
      (still : node.activated? event = none) (request : ¬ (event = .transmit ∨ event = .expire)) :
      Turn node event node
  /-- A round comes in. -/
  | created {roundId batchSize : Nat} {nodes : List NodeId} {declared : List PhaseDeclaration}
      {responses : ResponseMap} {topology : Topology} {round : Round}
      {registry : RoundRegistry Nat}
      (made : Round.create node.group roundId topology batchSize
        (declared.map PhaseDeclaration.phase) responses = .ok round)
      (added : node.registry.add roundId node.rounds.size = .ok registry) :
      Turn node (.create roundId nodes batchSize declared responses)
        { node with registry, rounds := node.rounds.push round }
  /-- An event drives a phase. -/
  | driven {roundId position : Nat} {tag : String} {event : Mixnet.Event} {round : Round}
      {target : Phase} (live : node.roundAt? roundId = some (position, round))
      (running : round.isFailed = false) (found : round.phase? target.kind = some target)
      (drives : round.Drives target event (round.deliver tag event))
      (heard : ∀ fault, (round.deliver tag event).outcome ≠ .error (.fault fault)) :
      Turn node (.deliver roundId tag event)
        (node.afterDelivery position round.id (round.deliver tag event))
  /-- A round goes, and its graphs are stopped. -/
  | dropped {roundId position : Nat} {round : Round}
      (live : node.roundAt? roundId = some (position, round)) :
      Turn node (.drop roundId)
        ({ node with registry := (node.registry.remove roundId).2 }.setRound position round.kill)
  /-- The secrets of a round are overwritten. -/
  | erased {position : Nat} {round : Round} (there : node.rounds[position]? = some round) :
      Turn node (.erase position) (node.setRound position round.erase)
  /-- The consumer finds nothing under the next reference. -/
  | missed {ref : PhaseRef} {rest : List PhaseRef} (next_up : node.queue.waiting = ref :: rest)
      (nowhere : node.phaseAt? ref = none) : Turn node .start (node.withWaiting rest)
  /-- The consumer starts the next phase. -/
  | started {ref : PhaseRef} {rest : List PhaseRef} {round : Round} {phase : Phase}
      (unstopped : node.queue.fault = none) (idle : node.queue.running = none)
      (next_up : node.queue.waiting = ref :: rest)
      (there : node.phaseAt? ref = some (round, phase)) :
      Turn node .start ((node.withWaiting rest).start ref round phase)
  /-- The transmission ends. -/
  | concluded {running : RunningPhase PhaseRef} {round : Round} {phase : Phase}
      (runs : node.queue.running = some running)
      (there : node.phaseAt? running.phase = some (round, phase))
      (unended : running.result = none)
      (exhausted : running.transmission.isReading phase.transmitter = true →
        ∃ left, phase.graph.takeOutput = .ok (.drained, left)) :
      Turn node .transmit (node.concludeTransmission running round phase)
  /-- The transmitter takes a chunk. -/
  | took {running : RunningPhase PhaseRef} {round : Round} {phase : Phase} {chunk : Chunk}
      {graph : Graph} (runs : node.queue.running = some running)
      (there : node.phaseAt? running.phase = some (round, phase))
      (taken : phase.graph.takeOutput = .ok (.chunk chunk, graph))
      (unended : running.result = none)
      (reading : running.transmission.isReading phase.transmitter = true) :
      Turn node .transmit
        { node.setPhase running.phase { phase with graph } with
          queue := { (node.setPhase running.phase { phase with graph }).queue with
            running := some { running with
              transmission := running.transmission.read phase.transmitter (contextOf round phase)
                chunk } } }
  /-- Asking for output is a fault. -/
  | broke {running : RunningPhase PhaseRef} {round : Round} {phase : Phase} {fault : Fault}
      (runs : node.queue.running = some running)
      (there : node.phaseAt? running.phase = some (round, phase))
      (failed : phase.graph.takeOutput = .error fault) :
      Turn node .transmit (node.stopConsumer fault)
  /-- The phase that was started last could not be. -/
  | unstarted {running : RunningPhase PhaseRef} {reason : String} {round : Round} {phase : Phase}
      (runs : node.queue.running = some running)
      (there : node.phaseAt? running.phase = some (round, phase)) :
      Turn node (.startFails reason)
        (node.failRun running.phase phase (.spawn phase.kind reason))
  /-- A run is closed by the end of its transmission. -/
  | finished {running : RunningPhase PhaseRef} {result : TransmitResult} {round : Round}
      {phase : Phase} (runs : node.queue.running = some running)
      (ended : running.result = some result)
      (there : node.phaseAt? running.phase = some (round, phase)) :
      Turn node .finish (node.closeRun running.phase round phase (.transmitted result))
  /-- A run is closed because its time is up. -/
  | expired {running : RunningPhase PhaseRef} {round : Round} {phase : Phase}
      (runs : node.queue.running = some running)
      (there : node.phaseAt? running.phase = some (round, phase)) :
      Turn node .expire ((node.closeRun running.phase round phase
        (.expired (phase.timeout.getD node.config.phaseTimeout))).abandonTransmission running)
  /-- A worker takes a step. -/
  | worked {ref : PhaseRef} {step : Dispatch.Step} {round : Round} {phase : Phase} {graph : Graph}
      (there : node.phaseAt? ref = some (round, phase))
      (acted : phase.graph.act (.work step) = some graph) :
      Turn node (.work ref step) (node.setPhase ref { phase with graph })
  /-- A kernel writes. -/
  | wrote {ref : PhaseRef} {worker : Nat} {write : KernelWrite} {round : Round} {phase : Phase}
      (there : node.phaseAt? ref = some (round, phase))
      (inside : phase.graph.isCalling worker = true) :
      Turn node (.write ref worker write) (node.afterWrite ref round phase write)
  /-- The queue is closed. -/
  | closed : Turn node .close node.closeQueue

section Turns

variable {node next : Node}

theorem setRound_self {position : Nat} {round : Round}
    (found : node.rounds[position]? = some round) : node.setRound position round = node := by
  have same : node.rounds.setIfInBounds position round = node.rounds := by
    apply Array.ext_getElem?
    intro other
    have changed := getElem?_setRound found round other
    rw [setRound] at changed
    rw [changed]
    split
    case isTrue here => rw [here, found]
    case isFalse => rfl
  rw [setRound, same]

/-- A refusal that has changed nothing leaves the node as it was. -/
theorem afterDelivery_refuse {position roundId : Nat} {round : Round}
    (found : node.rounds[position]? = some round) (failure : Failure RoundError) :
    node.afterDelivery position roundId (round.refuse failure) = node :=
  setRound_self found

theorem turn_of_create {roundId batchSize : Nat} {nodes : List NodeId}
    {declared : List PhaseDeclaration} {responses : ResponseMap}
    (acted : node.act (.create roundId nodes batchSize declared responses) = some next) :
    node.Turn (.create roundId nodes batchSize declared responses) next := by
  rw [act] at acted
  split at acted
  case h_2 =>
    injection acted with acted
    subst acted
    exact .refused rfl rfl (by simp)
  case h_3 => cases acted
  case h_1 after creating =>
    injection acted with acted
    subst acted
    rw [createRound] at creating
    split at creating
    case isTrue => cases creating
    case isFalse =>
      split at creating
      case h_1 => cases creating
      case h_2 topology _ =>
        split at creating
        case h_1 => cases creating
        case h_2 round made =>
          split at creating
          case h_1 => cases creating
          case h_2 registry added =>
            injection creating with creating
            subst creating
            exact .created made added

theorem turn_of_deliver {roundId : Nat} {tag : String} {event : Mixnet.Event}
    (acted : node.act (.deliver roundId tag event) = some next) :
    node.Turn (.deliver roundId tag event) next := by
  rw [act] at acted
  cases live : node.roundAt? roundId with
  | none =>
      rw [deliver, live] at acted
      injection acted with acted
      subst acted
      exact .refused (by rw [pushed?, live]; rfl) rfl (by simp)
  | some entry =>
      obtain ⟨position, round⟩ := entry
      rw [deliver_eq live] at acted
      split at acted
      case h_1 => cases acted
      case h_2 outcome after heard both =>
        injection both with outcome_eq after_eq
        injection acted with acted
        subst acted after_eq
        rcases round.deliver_cases tag event with ⟨error, refused⟩ |
          ⟨running, target, -, found, drives⟩
        · rw [refused]
          rw [afterDelivery_refuse (roundAt?_eq_some live)]
          exact .refused (by rw [pushed?_deliver live, refused]; rfl) rfl (by simp)
        · refine .driven live running found drives ?_
          intro fault faulted
          exact heard fault (outcome_eq.symm.trans faulted)

theorem turn_of_transmit (acted : node.stepTransmission = some next) :
    node.Turn .transmit next := by
  obtain ⟨running, runs, acted⟩ := Option.bind_eq_some_iff.mp acted
  split at acted
  case isTrue => cases acted
  case isFalse unended =>
    replace unended : running.result = none := Option.not_isSome_iff_eq_none.mp unended
    obtain ⟨⟨round, phase⟩, there, acted⟩ := Option.bind_eq_some_iff.mp acted
    dsimp only at acted
    split at acted
    case isTrue idle =>
      injection acted with acted
      subst acted
      refine .concluded runs there unended fun reading => ?_
      rw [reading] at idle
      cases idle
    case isFalse busy =>
      split at acted
      case h_1 fault failed =>
        injection acted with acted
        subst acted
        exact .broke runs there failed
      case h_2 => cases acted
      case h_3 left drained =>
        injection acted with acted
        subst acted
        exact .concluded runs there unended fun _ => ⟨left, drained⟩
      case h_4 chunk graph taken =>
        injection acted with acted
        subst acted
        exact .took runs there taken unended (by simpa using busy)

theorem turn_of_start (acted : node.startNext = some next) : node.Turn .start next := by
  rw [startNext] at acted
  split at acted
  case h_2 => cases acted
  case h_1 ref rest unstopped idle next_up =>
    cases there : node.phaseAt? ref with
    | none =>
        rw [there] at acted
        injection acted with acted
        subst acted
        exact .missed next_up there
    | some entry =>
        obtain ⟨round, phase⟩ := entry
        rw [there] at acted
        injection acted with acted
        subst acted
        exact .started unstopped idle next_up there

/-- **An event that goes through takes one of these turns.** -/
theorem turn_of_act {event : Event} (acted : node.act event = some next) :
    node.Turn event next := by
  cases event with
  | create => exact turn_of_create acted
  | deliver => exact turn_of_deliver acted
  | drop roundId =>
      rw [act, dropRound] at acted
      cases live : node.roundAt? roundId with
      | none =>
          rw [live] at acted
          injection acted with acted
          subst acted
          exact .refused rfl rfl (by simp)
      | some entry =>
          rw [live] at acted
          injection acted with acted
          subst acted
          exact .dropped live
  | erase position =>
      rw [act] at acted
      split at acted
      case isTrue => cases acted
      case isFalse =>
        injection acted with acted
        subst acted
        rw [eraseRound]
        split
        case h_1 => exact .refused rfl rfl (by simp)
        case h_2 round there => exact .erased there
  | start => exact turn_of_start acted
  | transmit => exact turn_of_transmit acted
  | startFails reason =>
      obtain ⟨running, runs, acted⟩ := Option.bind_eq_some_iff.mp acted
      obtain ⟨⟨round, phase⟩, there, acted⟩ := Option.bind_eq_some_iff.mp acted
      injection acted with acted
      subst acted
      exact .unstarted runs there
  | finish =>
      obtain ⟨running, runs, acted⟩ := Option.bind_eq_some_iff.mp acted
      obtain ⟨result, ended, acted⟩ := Option.bind_eq_some_iff.mp acted
      obtain ⟨⟨round, phase⟩, there, acted⟩ := Option.bind_eq_some_iff.mp acted
      injection acted with acted
      subst acted
      exact .finished runs ended there
  | expire =>
      obtain ⟨running, runs, acted⟩ := Option.bind_eq_some_iff.mp acted
      obtain ⟨⟨round, phase⟩, there, acted⟩ := Option.bind_eq_some_iff.mp acted
      injection acted with acted
      subst acted
      exact .expired runs there
  | work ref step =>
      obtain ⟨phase, found, acted⟩ := Option.bind_eq_some_iff.mp acted
      obtain ⟨graph, stepped, rfl⟩ := Option.map_eq_some_iff.mp acted
      obtain ⟨round, there⟩ := exists_round_of_phase? found
      exact .worked there stepped
  | write ref worker write =>
      obtain ⟨⟨round, phase⟩, there, acted⟩ := Option.bind_eq_some_iff.mp acted
      dsimp only at acted
      split at acted
      case isFalse => cases acted
      case isTrue inside =>
        injection acted with acted
        subst acted
        exact .wrote there inside
  | close =>
      injection acted with acted
      subst acted
      exact .closed

end Turns

/-! ## The consumer -/

section Consumer

variable {node : Node} {ref : PhaseRef} {round : Round} {phase : Phase} {report : Report}

/-- A move that passes no milestone changes the phase and nothing else. -/
theorem applyStep_of_no_milestones {step : PhaseStep} {roundId : Nat}
    (silent : step.milestones = []) :
    node.applyStep ref roundId step = node.setPhase ref step.phase := by
  rw [applyStep, silent]
  rfl

/-- A phase that has not begun can be activated. -/
theorem activate_outcome (initialized : phase.state = .initialized) :
    phase.activate.outcome = .ok true := by
  have edge : phase.state.canMoveTo .active = true := by
    rw [initialized]
    rfl
  rw [Phase.activate, Phase.moveStep, Phase.moveTo_eq edge]

theorem activated?_start {rest : List PhaseRef} (next_up : node.queue.waiting = ref :: rest)
    (there : node.phaseAt? ref = some (round, phase)) (initialized : phase.state = .initialized) :
    node.activated? .start = if round.isFailed then none else some ref := by
  rw [activated?, next_up, List.head?_cons, Option.bind_some, there, Option.bind_some]
  dsimp only
  rw [activate_outcome initialized]
  cases round.isFailed <;> rfl

/-- **What starting a phase comes to**, if the phase has not begun: it fails with its round, or it
is active, and runs if its graph does. -/
theorem start_cases (node : Node) (ref : PhaseRef) (round : Round)
    (initialized : phase.state = .initialized) :
    (round.isFailed = true ∧
        node.start ref round phase = node.setPhase ref { phase with state := .error }) ∨
      (round.isFailed = false ∧ ∃ fault, phase.graph.run = .error fault ∧
        node.start ref round phase =
          (node.setPhase ref { phase with state := .active }).stopConsumer fault) ∨
      (round.isFailed = false ∧ ∃ graph, phase.graph.run = .ok graph ∧
        node.start ref round phase =
          let begun := (node.setPhase ref { phase with state := .active }).setPhase ref
            { phase with state := .active, graph }
          { begun with queue := { begun.queue with
              running := some { phase := ref, transmission := .start, result := none } } }) := by
  have to_active : phase.state.canMoveTo .active = true := by
    rw [initialized]
    rfl
  have to_error : phase.state.canMoveTo .error = true := by
    rw [initialized]
    rfl
  have no_milestones : phase.recorded [] = [] := by
    rw [Phase.recorded]
    split <;> rfl
  rw [start]
  split
  case isTrue failed =>
    rw [Phase.fail, if_pos to_error]
    exact Or.inl ⟨failed, rfl⟩
  case isFalse live =>
    rw [Bool.not_eq_true] at live
    have activated : phase.activate =
        { outcome := .ok true, phase := { phase with state := .active }, milestones := [] } := by
      rw [Phase.activate, Phase.moveStep, Phase.moveTo_eq to_active]
      exact congrArg _ no_milestones
    rw [activated]
    dsimp only
    rw [applyStep_of_no_milestones rfl]
    cases ran : phase.graph.run with
    | error fault => exact Or.inr (Or.inl ⟨live, fault, rfl, rfl⟩)
    | ok graph => exact Or.inr (Or.inr ⟨live, graph, rfl, rfl⟩)

/-- A good verdict means that no kernel has failed, the transmitter has returned without an error,
and the graph is complete. -/
theorem verdict_ok (good : verdict phase report = .ok ()) :
    phase.graph.failure = none ∧ report = .transmitted (.returned (.ok ())) ∧
      phase.graph.isComplete = true := by
  unfold verdict at good
  split at good
  case h_1 => cases good
  case h_2 unfailed =>
    split at good
    case h_1 => cases good
    case h_2 => cases good
    case h_3 => cases good
    case h_4 =>
      split at good
      case isFalse => cases good
      case isTrue complete => exact ⟨unfailed, rfl, complete⟩

/-- **What closing the run of an active phase comes to**: by a good verdict the phase has done its
work, and by any other it fails together with its round. -/
theorem closeRun_cases (node : Node) (ref : PhaseRef) (round : Round)
    (active : phase.state = .active) (report : Report) :
    (verdict phase report = .ok () ∧ ∃ earlier later, node.closeRun ref round phase report =
        ((node.freed.measure round.id earlier).setPhase ref { phase with
          state := if phase.verification then .computed else .verified }).measure round.id later) ∨
      ∃ error, verdict phase report = .error error ∧
        node.closeRun ref round phase report = node.failRun ref phase error := by
  cases judged : verdict phase report with
  | ok done =>
      have edge : phase.state.canMoveTo (if phase.verification then .computed else .verified) =
          true := by
        rw [active]
        split <;> rfl
      refine Or.inl ⟨rfl, ?_⟩
      rw [closeRun, judged]
      dsimp only
      rw [Phase.finalize, Phase.moveStep, Phase.moveTo_eq edge]
      exact ⟨_, _, rfl⟩
  | error error =>
      refine Or.inr ⟨error, rfl, ?_⟩
      rw [closeRun, judged]
      rfl

end Consumer

/-! ## A sample -/

/-- A graph of one module that computes nothing, over payloads. -/
def sampleGraph : Graph :=
  { Graph.create "sample"
      { minSlotSize := 1, defaultThreads := 1, outputThreshold := .zero, handled := false }
      (.payload .unlinked) with
    wiring := {
      modules := [.plain "only" .idle]
      edges := []
      first := some 0
      last := some 0 } }

/-- A phase with that graph, which a peer has to verify. -/
def samplePhase : PhaseDeclaration where
  kind := .realDecrypt
  graph := sampleGraph
  transmitter := .drain
  timeout := none
  verification := true

/-- A round of one such phase is created, with two real slots. -/
def sampleRound : Event :=
  .create 1 [⟨"local"⟩] 2 [samplePhase]
    ⟨[("input", .own .realDecrypt [.initialized, .active]),
      ("done", .own .realDecrypt [.computed])]⟩

/-- Whether a small node plays some events, and a check of the node before and the one after them
succeeds. -/
def samplePlays (events : List Event) (check : Node → Node → Bool) : Bool :=
  match create ⟨"local"⟩ .minimal ⟨7, 2⟩ with
  | .ok node => (node.play events).any (check node)
  | .error _ => false

theorem exists_of_samplePlays {events : List Event} {check : Node → Node → Bool}
    (plays : samplePlays events check = true) :
    ∃ node after, create ⟨"local"⟩ .minimal ⟨7, 2⟩ = .ok node ∧ node.play events = some after ∧
      check node after = true := by
  rw [samplePlays] at plays
  split at plays
  case h_1 node created =>
    obtain ⟨after, played, checked⟩ := (Option.any_eq_true _ _).mp plays
    exact ⟨node, after, created, played, checked⟩
  case h_2 => cases plays

end Node

end Mixnet
