import Mixnet.Proofs.Lifecycle
import Mixnet.Proofs.NodePlay
import Mixnet.Proofs.Transition

/-!
# The docket of a node

Seen through its docket, whatever happens to a node is a move of the lifecycle.  This file reads the
docket off a node, says what a change of a round or a phase does to it, and takes the turns of a
node one by one.

## Main definitions

* `Phase.standing`, `Node.docket`: the docket of a node
* `Node.Declares`, `Node.Completes`, `Node.Verifies`: the events behind the moves that need a reason
* `Node.Warranted`: a move, with the reason for it
* `Node.Lawful`: a node whose consumer was not stopped by an illegal move

## Main statements

* `Node.docket_setRound`, `Node.docket_setPhase`: a change of one phase puts one standing
* `Node.Turn.warranted`: every turn of a node is a move of its docket, for a reason
* `Node.Turn.lawful`: no turn stops the consumer by an illegal move
-/

namespace Mixnet

/-- What a phase shows of its lifecycle. -/
def Phase.standing (phase : Phase) : Standing where
  state := phase.state
  queued := phase.queued
  verification := phase.verification

/-- Stopping the graphs of a round is nothing that its phases show. -/
theorem Round.standing_kill (round : Round) (kind : PhaseKind) :
    (round.kill.phase? kind).map Phase.standing = (round.phase? kind).map Phase.standing := by
  rw [phase?, kill, List.find?_map, Option.map_map]
  rfl

theorem ResourceQueue.push_running {ρ : Type} (queue : ResourceQueue ρ) (phase : ρ) :
    (queue.push phase).2.running = queue.running := by
  rw [push]
  split <;> rfl

theorem ResourceQueue.push_waiting {ρ : Type} (queue : ResourceQueue ρ) (phase : ρ) :
    (queue.push phase).2.waiting = queue.waiting ++ [phase] ∨
      (queue.push phase).2.waiting = queue.waiting := by
  rw [push]
  split
  · exact Or.inl rfl
  · exact Or.inr rfl

namespace Node

variable {node next : Node} {ref : PhaseRef} {round : Round} {phase after : Phase}

/-- What a node shows of the lifecycles of its phases. -/
def docket (node : Node) : Docket PhaseRef where
  standing? := fun ref => (node.phase? ref).map Phase.standing
  waiting := node.queue.waiting
  running := node.queue.running.map RunningPhase.phase

/-! ## What a change does to the docket -/

theorem standing?_docket (node : Node) (ref : PhaseRef) :
    node.docket.standing? ref = (node.phase? ref).map Phase.standing := rfl

theorem standing?_of_phaseAt? (there : node.phaseAt? ref = some (round, phase)) :
    node.docket.standing? ref = some phase.standing := by
  rw [standing?_docket, phase?_of_phaseAt? there, Option.map_some]

/-- **A node with one phase replaced** has its standing put. -/
theorem docket_of_update (changed : next.phase? = Function.update node.phase? ref (some after)) :
    next.docket = { node.docket.put ref after.standing with
      waiting := next.docket.waiting
      running := next.docket.running } := by
  have standings : next.docket.standing? = (node.docket.put ref after.standing).standing? := by
    funext other
    rw [standing?_docket, changed, Docket.standing?_put, Function.update_apply]
    split <;> rfl
  exact Docket.ext standings rfl rfl

theorem docket_setRound (there : node.phaseAt? ref = some (round, phase)) (after : Phase)
    (kind_eq : after.kind = ref.kind) {changed : Round}
    (phases_eq : changed.phases = (round.setPhase after).phases) :
    (node.setRound ref.round changed).docket = node.docket.put ref after.standing :=
  docket_of_update (phase?_setRound_setPhase there kind_eq phases_eq)

theorem queue_setPhase (node : Node) (ref : PhaseRef) (phase : Phase) :
    (node.setPhase ref phase).queue = node.queue := by
  rw [setPhase]
  split <;> rfl

theorem docket_setPhase (there : node.phaseAt? ref = some (round, phase)) (after : Phase)
    (kind_eq : after.kind = ref.kind) :
    (node.setPhase ref after).docket = node.docket.put ref after.standing := by
  rw [setPhase_eq there]
  exact docket_setRound there after kind_eq rfl

theorem docket_setState (there : node.phaseAt? ref = some (round, phase)) (state : PhaseState) :
    (node.setPhase ref { phase with state }).docket =
      node.docket.put ref { phase.standing with state } := by
  have kind_eq : phase.kind = ref.kind := kind_of_phaseAt? there
  exact docket_setPhase there { phase with state } kind_eq

/-- A change that a phase does not show. -/
theorem docket_setPhase_of_same (there : node.phaseAt? ref = some (round, phase)) (after : Phase)
    (kind_eq : after.kind = phase.kind) (same : after.standing = phase.standing) :
    (node.setPhase ref after).docket = node.docket := by
  rw [docket_setPhase there after (kind_eq.trans (kind_of_phaseAt? there)), same]
  exact Docket.put_self (standing?_of_phaseAt? there)

/-- A change of a round that its phases do not show. -/
theorem docket_setRound_of_same {position : Nat} (found : node.rounds[position]? = some round)
    {changed : Round} (same : ∀ kind,
      (changed.phase? kind).map Phase.standing = (round.phase? kind).map Phase.standing) :
    (node.setRound position changed).docket = node.docket := by
  have standings : (node.setRound position changed).docket.standing? = node.docket.standing? := by
    funext ref
    rw [standing?_docket, standing?_docket, phase?_setRound found]
    split
    case isFalse => rfl
    case isTrue here => rw [same, phase?_eq, here, found, Option.bind_some]
  exact Docket.ext standings rfl rfl

theorem docket_afterWrite (there : node.phaseAt? ref = some (round, phase)) (write : KernelWrite) :
    (node.afterWrite ref round phase write).docket = node.docket := by
  rw [afterWrite]
  dsimp only
  generalize write.apply _ = written
  have kind_eq : phase.kind = ref.kind := kind_of_phaseAt? there
  refine (docket_setRound there (phase.withStream written.stream) kind_eq ?_).trans ?_
  · rfl
  · exact Docket.put_self (standing?_of_phaseAt? there :)

theorem docket_stopConsumer (node : Node) (fault : Fault) :
    (node.stopConsumer fault).docket = { node.docket with running := none } := rfl

theorem docket_setRunning (node : Node) (running : RunningPhase PhaseRef) :
    ({ node with queue := { node.queue with running := some running } } : Node).docket =
      { node.docket with running := some running.phase } := rfl

theorem docket_measure (node : Node) (roundId : Nat) (milestones : List PhaseMilestone) :
    (node.measure roundId milestones).docket = node.docket := rfl

theorem docket_emitConclusion (node : Node) (context : TransmitContext) (conclusion : Conclusion) :
    (node.emitConclusion context conclusion).docket = node.docket := by
  obtain ⟨events, emitted⟩ := emitConclusion_eq node context conclusion
  rw [emitted]
  rfl

theorem docket_abandonTransmission (node : Node) (running : RunningPhase PhaseRef) :
    (node.abandonTransmission running).docket = node.docket := by
  rw [abandonTransmission]
  split
  case h_2 => rfl
  case h_1 round phase _ there =>
    dsimp only
    rw [docket_emitConclusion]
    exact docket_setPhase_of_same there _ rfl rfl

/-- **A run that has failed** leaves its phase failed and the consumer idle. -/
theorem docket_failRun (there : node.phaseAt? ref = some (round, phase))
    (active : phase.state = .active) (error : RoundError) :
    (node.failRun ref phase error).docket =
      { node.docket.put ref { phase.standing with state := .error } with running := none } := by
  have edge : PhaseState.canMoveTo phase.state .error = true := by
    rw [active]
    rfl
  rw [failRun]
  dsimp only
  rw [Phase.fail, if_pos edge]
  dsimp only
  generalize failed_eq :
    { phase with graph := phase.graph.kill, state := PhaseState.error } = failed
  have kind_eq : failed.kind = ref.kind := by
    rw [← failed_eq]
    show phase.kind = ref.kind
    exact kind_of_phaseAt? there
  have there' : node.freed.phaseAt? ref = some (round, phase) := there
  have found : (node.freed.setPhase ref failed).rounds[ref.round]? =
      some (round.setPhase failed) := by
    rw [setPhase_eq there', getElem?_setRound (phaseAt?_eq_some.mp there').1, if_pos rfl]
  obtain ⟨failure, events, same⟩ := failRound_eq found error
  have kept : ((node.freed.setPhase ref failed).setRound ref.round
      { round.setPhase failed with failure }).docket = (node.freed.setPhase ref failed).docket :=
    docket_setRound_of_same found fun _ => rfl
  rw [same]
  show ((node.freed.setPhase ref failed).setRound ref.round
    { round.setPhase failed with failure }).docket = _
  rw [kept, docket_setPhase there' failed kind_eq, ← failed_eq]
  rfl

/-- A phase that is put into the queue goes behind those that wait, unless the queue is closed. -/
theorem docket_afterDelivery (node : Node) (position roundId : Nat) (delivery : Delivery) :
    (node.afterDelivery position roundId delivery).docket =
      { (node.setRound position delivery.round).docket with
        waiting := match delivery.claimed with
          | none => node.queue.waiting
          | some kind => (node.queue.push { round := position, kind }).2.waiting } := by
  rw [afterDelivery]
  split
  case h_2 claimed => rw [claimed]; rfl
  case h_1 kind claimed =>
    rw [claimed]
    refine Docket.ext rfl rfl ?_
    show (node.queue.push { round := position, kind }).2.running.map RunningPhase.phase = _
    rw [ResourceQueue.push_running]
    rfl

/-! ## Reasons -/

/-- An event brings in a phase, declared with or without verification. -/
def Declares (node : Node) (ref : PhaseRef) (event : Event) (verification : Bool) : Prop :=
  ∃ roundId nodes batchSize declared responses,
    event = .create roundId nodes batchSize declared responses ∧ ref.round = node.rounds.size ∧
      ∃ phase ∈ declared, phase.kind = ref.kind ∧ phase.verification = verification

/-- An event ends the run of a phase whose transmitter has returned without an error, while its
graph is complete and none of its kernels has failed. -/
def Completes (node : Node) (ref : PhaseRef) (event : Event) : Prop :=
  event = .finish ∧ ∃ running phase, node.queue.running = some running ∧ running.phase = ref ∧
    running.result = some (.returned (.ok ())) ∧ node.phase? ref = some phase ∧
    phase.graph.isComplete = true ∧ phase.graph.failure = none

/-- An event is a verification that goes through, and finds the phase computed. -/
def Verifies (node : Node) (ref : PhaseRef) (event : Event) : Prop :=
  ∃ roundId tag round, event = .deliver roundId tag .verify ∧
    node.roundAt? roundId = some (ref.round, round) ∧
    (round.deliver tag .verify).outcome = .ok () ∧
    ∃ phase, node.phase? ref = some phase ∧ phase.state = .computed

/-- The reason for a move, where it needs one. -/
def Grounds (node : Node) (event : Event) : Docket.Move PhaseRef → Prop
  | .opened fresh => ∀ ref verification, fresh ref = some verification →
      node.Declares ref event verification
  | .completed ref => node.Completes ref event
  | .verified ref => node.Verifies ref event
  | _ => True

/-- A move of the docket that an event is, with the reason for it. -/
structure Warranted (node : Node) (event : Event) (next : Node) (move : Docket.Move PhaseRef) :
    Prop where
  shift : node.docket.Shift move next.docket
  pushes : node.pushed? event = move.claimed?
  activates : node.activated? event = move.activated?
  grounds : node.Grounds event move

namespace Warranted

variable {event : Event}

/-- Nothing that a phase shows has changed. -/
theorem of_docket_eq (same : next.docket = node.docket) (silent : node.pushed? event = none)
    (still : node.activated? event = none) : node.Warranted event next .rest where
  shift := by
    rw [same]
    exact .rest (Or.inl rfl)
  pushes := silent
  activates := still
  grounds := trivial

end Warranted

/-- The phases of a new round are enrolled as they were declared. -/
theorem warranted_created {roundId batchSize : Nat} {nodes : List NodeId}
    {declared : List PhaseDeclaration} {responses : ResponseMap} {topology : Topology}
    {registry : RoundRegistry Nat}
    (made : Round.create node.group roundId topology batchSize
      (declared.map PhaseDeclaration.phase) responses = .ok round) :
    ∃ move, node.Warranted (.create roundId nodes batchSize declared responses)
      { node with registry, rounds := node.rounds.push round } move := by
  obtain ⟨-, -, _, embeds⟩ := Round.create_spec made
  have origin {kind : PhaseKind} {phase : Phase} (found : round.phase? kind = some phase) :
      ∃ other ∈ declared, other.kind = kind ∧ phase.standing =
        { state := .initialized, queued := false, verification := other.verification } := by
    obtain ⟨_, known, graph, binding, rfl, -⟩ := embeds.origin phase (Round.mem_of_phase? found)
    obtain ⟨other, member, rfl⟩ := List.mem_map.mp known
    exact ⟨other, member, Round.kind_of_phase? found, rfl⟩
  let fresh (ref : PhaseRef) : Option Bool :=
    if ref.round = node.rounds.size then (round.phase? ref.kind).map Phase.verification else none
  have nothing {ref : PhaseRef} (here : ref.round = node.rounds.size) :
      node.docket.standing? ref = none := by
    rw [standing?_docket, phase?_eq, here, Array.getElem?_eq_none (Nat.le_refl _)]
    rfl
  have of_fresh {ref : PhaseRef} {verification : Bool} (new : fresh ref = some verification) :
      ref.round = node.rounds.size ∧
        ∃ phase, round.phase? ref.kind = some phase ∧ phase.verification = verification := by
    dsimp only [fresh] at new
    split at new
    case isFalse => cases new
    case isTrue here => exact ⟨here, Option.map_eq_some_iff.mp new⟩
  have enrolled : ({ node with registry, rounds := node.rounds.push round } : Node).docket =
      node.docket.enroll fresh := by
    refine Docket.ext ?_ rfl rfl
    funext ref
    rw [standing?_docket, phase?_eq, Docket.enroll]
    dsimp only [fresh]
    rw [Array.getElem?_push]
    by_cases here : ref.round = node.rounds.size
    · rw [if_pos here, if_pos here, Option.bind_some]
      cases found : round.phase? ref.kind with
      | none => exact (nothing here).symm
      | some phase =>
          obtain ⟨other, -, -, standing⟩ := origin found
          have declared_eq : phase.verification = other.verification :=
            congrArg Standing.verification standing
          rw [Option.map_some, Option.map_some, standing, declared_eq]
    · rw [if_neg here, if_neg here, ← phase?_eq]
      rfl
  refine ⟨.opened fresh, ?_, rfl, rfl, ?_⟩
  · rw [enrolled]
    refine .opened fun ref new => ?_
    obtain ⟨verification, new⟩ := Option.isSome_iff_exists.mp new
    exact nothing (of_fresh new).1
  · intro ref verification new
    obtain ⟨here, phase, found, rfl⟩ := of_fresh new
    obtain ⟨other, member, kind_eq, standing⟩ := origin found
    exact ⟨roundId, nodes, batchSize, declared, responses, rfl, here, other, member, kind_eq,
      (congrArg Standing.verification standing).symm⟩

/-- A delivery that replaces one phase. -/
theorem docket_afterDelivery_setPhase (there : node.phaseAt? ref = some (round, phase))
    (after : Phase) (kind_eq : after.kind = phase.kind) {delivery : Delivery}
    (round_eq : delivery.round = round.setPhase after) (roundId : Nat) :
    (node.afterDelivery ref.round roundId delivery).docket =
      { node.docket.put ref after.standing with
        waiting := match delivery.claimed with
          | none => node.queue.waiting
          | some kind => (node.queue.push { round := ref.round, kind }).2.waiting } := by
  have replaced := docket_setRound there after (kind_eq.trans (kind_of_phaseAt? there))
    (congrArg Round.phases round_eq)
  rw [docket_afterDelivery, replaced]

/-- A delivery that changes nothing that its phase shows. -/
theorem docket_afterDelivery_of_same (there : node.phaseAt? ref = some (round, phase))
    (after : Phase) (kind_eq : after.kind = phase.kind) (same : after.standing = phase.standing)
    {delivery : Delivery} (round_eq : delivery.round = round.setPhase after)
    (silent : delivery.claimed = none) (roundId : Nat) :
    (node.afterDelivery ref.round roundId delivery).docket = node.docket := by
  rw [docket_afterDelivery_setPhase there after kind_eq round_eq, silent, same,
    Docket.put_self (standing?_of_phaseAt? there)]
  rfl

/-- The first claim of a phase goes through, and a further one changes nothing. -/
theorem warranted_claimed {roundId : Nat} {tag : String} {event : Mixnet.Event}
    (live : node.roundAt? roundId = some (ref.round, round))
    (there : node.phaseAt? ref = some (round, phase)) (after : Phase)
    (kind_eq : after.kind = phase.kind) (same : after.standing = phase.standing)
    {milestones : List PhaseMilestone}
    (delivers : round.deliver tag event = round.claimPhase after milestones) :
    ∃ move, node.Warranted (.deliver roundId tag event)
      (node.afterDelivery ref.round round.id (round.claimPhase after milestones)) move := by
  have pushes := pushed?_deliver live tag event
  have queued_eq : after.queued = phase.queued := congrArg Standing.queued same
  have standing := standing?_of_phaseAt? there
  rw [delivers] at pushes
  cases queued : phase.queued with
  | true =>
      have silent : (round.claimPhase after milestones).claimed = none := by
        rw [Round.claimPhase, Phase.claim, queued_eq, queued]
        rfl
      have marked : ({ after with queued := true } : Phase).standing = phase.standing := by
        rw [← same, Phase.standing, Phase.standing, queued_eq, queued]
      have kept := docket_afterDelivery_of_same there { after with queued := true } kind_eq marked
        rfl silent round.id
      rw [silent] at pushes
      exact ⟨.rest, .of_docket_eq kept pushes rfl⟩
  | false =>
      have claims : (round.claimPhase after milestones).claimed = some after.kind := by
        rw [Round.claimPhase, Phase.claim, queued_eq, queued]
        rfl
      have kind_eq' : after.kind = ref.kind := kind_eq.trans (kind_of_phaseAt? there)
      have marked : ({ after with queued := true } : Phase).standing =
          { phase.standing with queued := true } := by
        rw [← same]
        rfl
      have round_eq : (round.claimPhase after milestones).round =
          round.setPhase { after with queued := true } := rfl
      have replaced := docket_afterDelivery_setPhase there { after with queued := true } kind_eq
        round_eq round.id
      rw [claims, marked, kind_eq'] at replaced
      rw [claims, kind_eq'] at pushes
      refine ⟨.claimed ref, ?_, pushes, rfl, trivial⟩
      rw [replaced]
      exact .claimed standing queued (ResourceQueue.push_waiting _ _)

/-- What an event makes of the phase that it drives: it is claimed or verified, or shows nothing. -/
theorem warranted_driven {roundId : Nat} {tag : String} {event : Mixnet.Event}
    (live : node.roundAt? roundId = some (ref.round, round))
    (there : node.phaseAt? ref = some (round, phase))
    (drives : round.Drives phase event (round.deliver tag event))
    (heard : ∀ fault, (round.deliver tag event).outcome ≠ .error (.fault fault)) :
    ∃ move, node.Warranted (.deliver roundId tag event)
      (node.afterDelivery ref.round round.id (round.deliver tag event)) move := by
  have pushes := pushed?_deliver live tag event
  have standing := standing?_of_phaseAt? there
  generalize delivers : round.deliver tag event = delivery at drives heard pushes
  have kept {failure : Failure RoundError} :
      (node.afterDelivery ref.round round.id (round.refuse failure)).docket = node.docket := by
    rw [afterDelivery_refuse (roundAt?_eq_some live)]
  cases drives with
  | misplaced | unready => exact ⟨.rest, .of_docket_eq kept pushes rfl⟩
  | @spoiled accepted rest bad chunk stream error range taken unfit =>
      have round_eq : ((round.setPhase (phase.withStream stream)).refuse
          (.error (.stream error))).round = round.setPhase (phase.withStream stream) := rfl
      have same := docket_afterDelivery_of_same there (phase.withStream stream) rfl rfl round_eq rfl
        round.id
      exact ⟨.rest, .of_docket_eq same pushes rfl⟩
  | crashed => exact (heard _ rfl).elim
  | @sent slots chunk stream last range taken accepted =>
      exact warranted_claimed live there ((phase.withStream stream).send chunk).phase rfl rfl
        delivers
  | started => exact warranted_claimed live there phase rfl rfl delivers
  | verified computed =>
      refine ⟨.verified ref, ?_, pushes, rfl, roundId, tag, round, rfl, live, ?_, phase,
        phase?_of_phaseAt? there, computed⟩
      · rw [docket_afterDelivery_setPhase there { phase with state := .verified } rfl rfl]
        exact .verified standing computed
      · rw [delivers]

/-- The next phase is activated, or fails with its round. -/
theorem warranted_started {rest : List PhaseRef} (idle : node.queue.running = none)
    (next_up : node.queue.waiting = ref :: rest) (there : node.phaseAt? ref = some (round, phase))
    (sound : node.docket.Sound) :
    ∃ move, node.Warranted .start ((node.withWaiting rest).start ref round phase) move := by
  have standing := standing?_of_phaseAt? there
  have initialized : phase.state = .initialized := (sound.next_up next_up standing).1
  have idle' : node.docket.running = none := by
    show node.queue.running.map RunningPhase.phase = none
    rw [idle]
    rfl
  have there' : (node.withWaiting rest).phaseAt? ref = some (round, phase) := there
  have kind_eq := kind_of_phaseAt? there
  have moved (state : PhaseState) :
      ((node.withWaiting rest).setPhase ref { phase with state }).docket =
        { node.docket.put ref { phase.standing with state } with waiting := rest } :=
    docket_setState there' state
  have activates := activated?_start next_up there initialized
  rcases start_cases (node.withWaiting rest) ref round initialized with ⟨fails, failed⟩ |
    ⟨live, fault, -, stopped⟩ | ⟨live, graph, -, runs⟩
  · rw [if_pos fails] at activates
    refine ⟨.skipped ref, ?_, rfl, activates, trivial⟩
    rw [failed, moved]
    exact .skipped next_up standing
  · rw [live] at activates
    refine ⟨.activated ref, ?_, rfl, activates, trivial⟩
    rw [stopped, docket_stopConsumer, moved]
    exact .activated idle' next_up standing (Or.inr rfl)
  · rw [live] at activates
    refine ⟨.activated ref, ?_, rfl, activates, trivial⟩
    obtain ⟨changed, again⟩ : ∃ changed,
        ((node.withWaiting rest).setPhase ref { phase with state := .active }).phaseAt? ref =
          some (changed, { phase with state := .active }) := by
      apply exists_round_of_phase?
      rw [phase?_setPhase there' { phase with state := .active } kind_eq,
        Function.update_self]
    rw [runs]
    dsimp only
    rw [docket_setRunning,
      docket_setPhase_of_same again { phase with state := .active, graph } rfl rfl, moved]
    exact .activated idle' next_up standing (Or.inl rfl)

section Running

variable {running : RunningPhase PhaseRef}

theorem running_docket (runs : node.queue.running = some running) :
    node.docket.running = some running.phase := by
  show node.queue.running.map RunningPhase.phase = _
  rw [runs]
  rfl

/-- The phase of a run is active. -/
theorem active_of_running (sound : node.docket.Sound) (runs : node.queue.running = some running)
    (there : node.phaseAt? running.phase = some (round, phase)) : phase.state = .active :=
  sound.active_of_running (running_docket runs) (standing?_of_phaseAt? there)

/-- A run that fails is the failure of its phase, whatever the event. -/
theorem warranted_failRun (sound : node.docket.Sound) (runs : node.queue.running = some running)
    (there : node.phaseAt? running.phase = some (round, phase)) {error : RoundError}
    {event : Event} (silent : node.pushed? event = none) (still : node.activated? event = none)
    (same : next.docket = (node.failRun running.phase phase error).docket) :
    node.Warranted event next (.failed running.phase) where
  shift := by
    rw [same, docket_failRun there (active_of_running sound runs there)]
    exact .failed (running_docket runs) (standing?_of_phaseAt? there)
  pushes := silent
  activates := still
  grounds := trivial

/-- A run whose transmission has ended has done its work, or fails. -/
theorem warranted_finished {result : TransmitResult} (sound : node.docket.Sound)
    (runs : node.queue.running = some running) (ended : running.result = some result)
    (there : node.phaseAt? running.phase = some (round, phase)) :
    ∃ move, node.Warranted .finish
      (node.closeRun running.phase round phase (.transmitted result)) move := by
  rcases closeRun_cases node running.phase round (active_of_running sound runs there)
    (.transmitted result) with ⟨good, earlier, later, closed⟩ | ⟨error, -, closed⟩
  · obtain ⟨unfailed, returned, complete⟩ := verdict_ok good
    injection returned with returned
    have there' : (node.freed.measure round.id earlier).phaseAt? running.phase =
        some (round, phase) := there
    refine ⟨.completed running.phase, ?_, rfl, rfl, rfl, running, phase, runs, rfl, ?_,
      phase?_of_phaseAt? there, complete, unfailed⟩
    · rw [closed, docket_measure, docket_setState there']
      exact .completed (running_docket runs) (standing?_of_phaseAt? there)
    · rw [ended, returned]
  · exact ⟨_, warranted_failRun sound runs there rfl rfl (congrArg docket closed)⟩

/-- A run whose time is up fails. -/
theorem warranted_expired {limit : Span} (sound : node.docket.Sound)
    (runs : node.queue.running = some running)
    (there : node.phaseAt? running.phase = some (round, phase)) :
    ∃ move, node.Warranted .expire
      ((node.closeRun running.phase round phase (.expired limit)).abandonTransmission running)
      move := by
  rcases closeRun_cases node running.phase round (active_of_running sound runs there)
    (.expired limit) with ⟨good, -⟩ | ⟨error, -, closed⟩
  · obtain ⟨-, returned, -⟩ := verdict_ok good
    cases returned
  · have same := docket_abandonTransmission (node.failRun running.phase phase error) running
    rw [closed]
    exact ⟨_, warranted_failRun sound runs there rfl rfl same⟩

end Running

/-! ## Turns as moves -/

/-- **Every turn of a node is a move of its docket, for a reason.** -/
theorem Turn.warranted {event : Event} (turn : node.Turn event next) (sound : node.docket.Sound) :
    ∃ move, node.Warranted event next move := by
  cases turn with
  | refused silent still => exact ⟨.rest, .of_docket_eq rfl silent still⟩
  | created made added => exact warranted_created made
  | @driven roundId position tag event round target live running found drives heard =>
      have there : node.phaseAt? ⟨position, target.kind⟩ = some (round, target) :=
        phaseAt?_eq_some.mpr ⟨roundAt?_eq_some live, found⟩
      exact warranted_driven live there drives heard
  | @dropped roundId position round live =>
      have found : node.rounds[position]? = some round := roundAt?_eq_some live
      have same : (Node.setRound { node with registry := (node.registry.remove roundId).2 }
          position round.kill).docket = node.docket :=
        docket_setRound_of_same found round.standing_kill
      exact ⟨.rest, .of_docket_eq same rfl rfl⟩
  | @erased position round there =>
      exact ⟨.rest, .of_docket_eq (docket_setRound_of_same there fun _ => rfl) rfl rfl⟩
  | @missed ref rest next_up nowhere =>
      have waits : ref ∈ node.queue.waiting := by
        rw [next_up]
        exact List.mem_cons_self
      obtain ⟨standing, there, -⟩ := sound.ready ref waits
      rw [standing?_docket, phase?, nowhere] at there
      cases there
  | started unstopped idle next_up there => exact warranted_started idle next_up there sound
  | concluded runs there =>
      refine ⟨.rest, .of_docket_eq ?_ rfl rfl⟩
      rw [concludeTransmission, docket_emitConclusion]
      exact Docket.ext rfl rfl (running_docket runs).symm
  | @took running round phase chunk graph runs there taken =>
      refine ⟨.rest, .of_docket_eq ?_ rfl rfl⟩
      rw [docket_setRunning, docket_setPhase_of_same there { phase with graph } rfl rfl]
      exact Docket.ext rfl rfl (running_docket runs).symm
  | broke runs there failed =>
      refine ⟨.rest, ?_, rfl, rfl, trivial⟩
      exact .rest (Or.inr rfl)
  | unstarted runs there => exact ⟨_, warranted_failRun sound runs there rfl rfl rfl⟩
  | finished runs ended there => exact warranted_finished sound runs ended there
  | expired runs there => exact warranted_expired sound runs there
  | worked there acted =>
      exact ⟨.rest, .of_docket_eq (docket_setPhase_of_same there _ rfl rfl) rfl rfl⟩
  | wrote there inside => exact ⟨.rest, .of_docket_eq (docket_afterWrite there _) rfl rfl⟩
  | closed => exact ⟨.rest, .of_docket_eq rfl rfl rfl⟩

/-! ## Faults of the consumer -/

/-- If a fault has stopped the consumer, it was no illegal move of a phase. -/
def Lawful (node : Node) : Prop :=
  ∀ fault, node.queue.fault = some fault → fault.isTransition = false

namespace Lawful

theorem of_fault_eq (lawful : node.Lawful) (same : next.queue.fault = node.queue.fault) :
    next.Lawful := by
  rw [Lawful, same]
  exact lawful

theorem stopConsumer (node : Node) {fault : Fault} (other : fault.isTransition = false) :
    (node.stopConsumer fault).Lawful := by
  intro found stopped
  injection stopped with same
  exact same ▸ other

theorem setPhase (lawful : node.Lawful) (ref : PhaseRef) (phase : Phase) :
    (node.setPhase ref phase).Lawful :=
  lawful.of_fault_eq (congrArg ResourceQueue.fault (queue_setPhase node ref phase))

theorem emitConclusion (lawful : node.Lawful) (context : TransmitContext)
    (conclusion : Conclusion) : (node.emitConclusion context conclusion).Lawful := by
  obtain ⟨events, emitted⟩ := emitConclusion_eq node context conclusion
  rw [emitted]
  exact lawful.of_fault_eq rfl

theorem failRun (lawful : node.Lawful) (ref : PhaseRef) (phase : Phase) (error : RoundError) :
    (node.failRun ref phase error).Lawful := by
  have kept (start : Node) :
      (start.failRound ref.round error).2.queue.fault = start.queue.fault := by
    rw [failRound]
    split
    · rfl
    · dsimp only
      split <;> rfl
  have freed : node.freed.Lawful := lawful.of_fault_eq rfl
  exact (freed.setPhase ref _).of_fault_eq (kept _)

theorem closeRun (lawful : node.Lawful) (ref : PhaseRef) (round : Round)
    (active : phase.state = .active) (report : Report) :
    (node.closeRun ref round phase report).Lawful := by
  rcases closeRun_cases node ref round active report with ⟨-, earlier, later, closed⟩ |
    ⟨error, -, closed⟩
  · have freed : (node.freed.measure round.id earlier).Lawful := lawful.of_fault_eq rfl
    rw [closed]
    exact (freed.setPhase ref _).of_fault_eq rfl
  · rw [closed]
    exact lawful.failRun ref phase error

theorem abandonTransmission (lawful : node.Lawful) (running : RunningPhase PhaseRef) :
    (node.abandonTransmission running).Lawful := by
  rw [Node.abandonTransmission]
  split
  case h_1 =>
    refine Lawful.emitConclusion ?_ _ _
    exact (lawful.setPhase running.phase _).of_fault_eq rfl
  case h_2 => exact lawful

end Lawful

/-- **No turn stops the consumer by an illegal move**: the phases it moves are found where their
moves begin. -/
theorem Turn.lawful {event : Event} (turn : node.Turn event next) (sound : node.docket.Sound)
    (lawful : node.Lawful) : next.Lawful := by
  cases turn with
  | refused | created | dropped | erased | missed | wrote | closed => exact lawful.of_fault_eq rfl
  | driven live running found drives heard =>
      refine lawful.of_fault_eq ?_
      rw [afterDelivery]
      split
      case h_2 => rfl
      case h_1 =>
        rw [enqueue, ResourceQueue.push]
        split <;> rfl
  | @started ref rest round phase unstopped idle next_up there =>
      have initialized : phase.state = .initialized :=
        (sound.next_up next_up (standing?_of_phaseAt? there)).1
      have taken : (node.withWaiting rest).Lawful := lawful.of_fault_eq rfl
      rcases start_cases (node.withWaiting rest) ref round initialized with ⟨-, failed⟩ |
        ⟨-, fault, crashed, stopped⟩ | ⟨-, graph, -, runs⟩
      · rw [failed]
        exact taken.setPhase ref _
      · rw [stopped]
        exact .stopConsumer _ (phase.graph.lawful_run fault crashed)
      · rw [runs]
        exact ((taken.setPhase ref _).setPhase ref _).of_fault_eq rfl
  | concluded runs there =>
      refine Lawful.emitConclusion ?_ _ _
      exact lawful.of_fault_eq rfl
  | took runs there taken => exact (lawful.setPhase _ _).of_fault_eq rfl
  | @broke running round phase fault runs there failed =>
      exact .stopConsumer _ (phase.graph.lawful_takeOutput fault failed)
  | unstarted runs there => exact lawful.failRun _ _ _
  | finished runs ended there =>
      exact lawful.closeRun _ _ (active_of_running sound runs there) _
  | expired runs there =>
      exact (lawful.closeRun _ _ (active_of_running sound runs there) _).abandonTransmission _
  | worked there acted => exact lawful.setPhase _ _

end Node

end Mixnet
