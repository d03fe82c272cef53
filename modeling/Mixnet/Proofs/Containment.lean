import Mixnet.Proofs.Passage

/-!
# Failures stay where they happen

A run of a phase can fail in many ways: there is no thread for it, a kernel fails, the transmitter
reports an error or dies, the output ends too early, or time is up.  Whatever the way, the round
fails with the error of its first run that failed, once, and no other round notices.

## Main definitions

* `NodeEvent.failure?`, `Node.reports`: the failures that have been reported
* `Node.failing?`, `Node.failures`: the runs that fail, with their errors
* `Node.concerned?`: the round that an event is about
* `Round.Consistent`: a round none of whose phases has failed without it
* `Node.Effect`: what an event means for failures
* `Node.Tally`: the invariant of a play
* `Node.Containment`: the law

## Main statements

* `Node.effect_of_act`: every event has one of these effects
* `Node.tally`: the invariant holds of every play
* `Node.containment`: so does the law

## Design notes

A round is known by its position, because its number can be taken again once it has been dropped.
A report only tells the number, so reports are matched with the runs that failed in order.
-/

namespace Mixnet

/-- The failure that an event tells of, by the number of its round. -/
def NodeEvent.failure? : NodeEvent → Option (Nat × RoundError)
  | .roundFailed roundId error => some (roundId, error)
  | _ => none

/-! ## Rounds that have not failed behind their phases -/

namespace Round

variable {round before middle after : Round} {phase old : Phase} {kind : PhaseKind}

/-- No phase of the round has failed without it. -/
def Consistent (round : Round) : Prop :=
  ∀ phase ∈ round.phases, phase.state = .error → round.isFailed = true

/-- The transmitter of a phase, by its kind. -/
def transmitter? (round : Round) (kind : PhaseKind) : Option Transmitter :=
  (round.phase? kind).map Phase.transmitter

/-- A phase is replaced by one with the same transmitter. -/
theorem transmitter?_setPhase (found : round.phase? phase.kind = some old)
    (same : phase.transmitter = old.transmitter) :
    (round.setPhase phase).transmitter? = round.transmitter? := by
  funext other
  rw [transmitter?, transmitter?, phase?_setPhase]
  split
  case isFalse => rfl
  case isTrue here => rw [here, found, Option.map_some, Option.map_some, Option.map_some, same]

/-- A change of a round that is no failure, and no change of a transmitter. -/
structure Quiet (before after : Round) : Prop where
  id_eq : after.id = before.id
  failure_eq : after.failure = before.failure
  transmitter_eq : after.transmitter? = before.transmitter?
  consistent : before.Consistent → after.Consistent

theorem Quiet.trans (first : before.Quiet middle) (second : middle.Quiet after) :
    before.Quiet after where
  id_eq := second.id_eq.trans first.id_eq
  failure_eq := second.failure_eq.trans first.failure_eq
  transmitter_eq := second.transmitter_eq.trans first.transmitter_eq
  consistent := second.consistent ∘ first.consistent

/-- A change that leaves every phase in its state. -/
theorem Quiet.of_states (id_eq : after.id = before.id) (failure_eq : after.failure = before.failure)
    (transmitter_eq : after.transmitter? = before.transmitter?)
    (states : after.phases.map Phase.state = before.phases.map Phase.state) :
    before.Quiet after where
  id_eq := id_eq
  failure_eq := failure_eq
  transmitter_eq := transmitter_eq
  consistent := by
    intro consistent phase member failed
    have known : PhaseState.error ∈ before.phases.map Phase.state := by
      rw [← states, ← failed]
      exact List.mem_map_of_mem member
    obtain ⟨other, other_mem, other_failed⟩ := List.mem_map.mp known
    rw [isFailed, failure_eq]
    exact consistent other other_mem other_failed

theorem Quiet.refl (round : Round) : round.Quiet round := .of_states rfl rfl rfl rfl

/-- A phase that is replaced fails only in a round that has. -/
theorem Quiet.setPhase (found : round.phase? phase.kind = some old)
    (same : phase.transmitter = old.transmitter)
    (allowed : phase.state = .error → round.Consistent → round.isFailed = true) :
    round.Quiet (round.setPhase phase) where
  id_eq := rfl
  failure_eq := rfl
  transmitter_eq := transmitter?_setPhase found same
  consistent := by
    intro consistent other member failed
    obtain ⟨former, known, same⟩ := List.mem_map.mp member
    split at same
    case isTrue =>
      subst same
      exact allowed failed consistent
    case isFalse =>
      subst same
      exact consistent former known failed

/-- A phase that is replaced by one in the same state. -/
theorem Quiet.setPhase_of_same (found : round.phase? phase.kind = some old)
    (same : phase.state = old.state) (transmits : phase.transmitter = old.transmitter) :
    round.Quiet (round.setPhase phase) := by
  refine .setPhase found transmits fun failed consistent => ?_
  exact consistent old (mem_of_phase? found) (same ▸ failed)

/-- **An event that a round hears fails nothing.** -/
theorem Drives.quiet {event : Event} {delivery : Delivery}
    (drives : round.Drives phase event delivery)
    (found : round.phase? phase.kind = some phase) : round.Quiet delivery.round := by
  cases drives with
  | misplaced | unready => exact .refl round
  | spoiled | crashed | sent | started => exact .setPhase_of_same found rfl rfl
  | verified => exact .setPhase found rfl fun failed => by cases failed

end Round

namespace Node

/-! ## What fails, and what it concerns -/

/-- The failures that have been reported, oldest first. -/
def reports (node : Node) : List (Nat × RoundError) :=
  node.events.reverse.filterMap NodeEvent.failure?

/-- The failure that a report of the running phase comes to, if the verdict is not good. -/
def judged? (ref : PhaseRef) (phase : Phase) (report : Report) : Option (Nat × RoundError) :=
  match verdict phase report with
  | .ok () => none
  | .error error => some (ref.round, error)

/-- The run that an event fails, by the position of its round, with the error. -/
def failing? (node : Node) : Event → Option (Nat × RoundError)
  | .startFails reason => do
    let running ← node.queue.running
    let (_, phase) ← node.phaseAt? running.phase
    return (running.phase.round, .spawn phase.kind reason)
  | .finish => do
    let running ← node.queue.running
    let result ← running.result
    let (_, phase) ← node.phaseAt? running.phase
    judged? running.phase phase (.transmitted result)
  | .expire => do
    let running ← node.queue.running
    let (_, phase) ← node.phaseAt? running.phase
    judged? running.phase phase (.expired (phase.timeout.getD node.config.phaseTimeout))
  | _ => none

/-- The runs that fail in a play, in order. -/
def failures (node : Node) (events : List Event) : List (Nat × RoundError) :=
  (node.steps events).filterMap fun step => step.before.failing? step.event

/-- The position of the round that an event is about, if it is about one that is there. -/
def concerned? (node : Node) : Event → Option Nat
  | .create .. | .close => none
  | .deliver roundId _ _ | .drop roundId => (node.roundAt? roundId).map Prod.fst
  | .erase position => some position
  | .start => node.queue.waiting.head?.map PhaseRef.round
  | .transmit | .startFails _ | .finish | .expire =>
    node.queue.running.map fun running => running.phase.round
  | .work ref _ | .write ref _ _ => some ref.round

variable {node before next after : Node} {event : Event} {events : List Event} {ref : PhaseRef}
  {round : Round} {phase : Phase} {running : RunningPhase PhaseRef}

/-! ## What leaves a node -/

theorem reports_emit (node : Node) (event : NodeEvent) :
    (node.emit event).reports = node.reports ++ event.failure?.toList := by
  rw [reports, emit, List.reverse_cons, List.filterMap_append, List.filterMap_cons,
    List.filterMap_nil]
  cases event.failure? <;> rfl

theorem reports_emit_of_none {event : NodeEvent} (silent : event.failure? = none) :
    (node.emit event).reports = node.reports := by
  rw [reports_emit, silent, Option.toList_none, List.append_nil]

/-- The end of a transmission reports no failure. -/
theorem reports_emitConclusion (node : Node) (context : TransmitContext)
    (conclusion : Conclusion) :
    (node.emitConclusion context conclusion).reports = node.reports := by
  have told (calls : List PeerCall) (start : Node) :
      (calls.foldl (fun told call => told.emit (.notified call context.roundId)) start).reports =
        start.reports := by
    induction calls generalizing start with
    | nil => rfl
    | cons call calls ih => rw [List.foldl_cons, ih, reports_emit_of_none rfl]
  rw [emitConclusion]
  split
  · exact told _ _
  · rw [told, reports_emit_of_none rfl]

theorem rounds_emitConclusion (node : Node) (context : TransmitContext)
    (conclusion : Conclusion) : (node.emitConclusion context conclusion).rounds = node.rounds := by
  obtain ⟨events, emitted⟩ := emitConclusion_eq node context conclusion
  rw [emitted]

/-! ## Effects -/

/-- What an event means for failures. -/
inductive Effect (node : Node) (event : Event) (next : Node) : Prop
  /-- No round changes. -/
  | still (kept : next.rounds = node.rounds) (silent : next.reports = node.reports)
      (unfailing : node.failing? event = none)
  /-- A round comes in. -/
  | opened {round : Round} (live : round.failure = none) (consistent : round.Consistent)
      (pushed : next.rounds = node.rounds.push round) (unrelated : node.concerned? event = none)
      (silent : next.reports = node.reports) (unfailing : node.failing? event = none)
  /-- The round that the event is about changes, and nothing fails. -/
  | changed {position : Nat} {round after : Round}
      (concerns : node.concerned? event = some position)
      (there : node.rounds[position]? = some round)
      (set : next.rounds = node.rounds.setIfInBounds position after) (quiet : round.Quiet after)
      (silent : next.reports = node.reports) (unfailing : node.failing? event = none)
  /-- The round that the event is about fails, and that is reported. -/
  | failed {position : Nat} {round after : Round} {error : RoundError}
      (fails : node.failing? event = some (position, error))
      (concerns : node.concerned? event = some position)
      (there : node.rounds[position]? = some round) (live : round.failure = none)
      (set : next.rounds = node.rounds.setIfInBounds position after)
      (id_eq : after.id = round.id) (failure_eq : after.failure = some error)
      (transmitter_eq : after.transmitter? = round.transmitter?)
      (reported : next.reports = node.reports ++ [(round.id, error)])
      (idle : next.docket.running = none)

/-- A phase is found under its own kind. -/
theorem of_phaseAt? (there : node.phaseAt? ref = some (round, phase)) :
    node.rounds[ref.round]? = some round ∧ round.phase? phase.kind = some phase := by
  obtain ⟨found, here⟩ := phaseAt?_eq_some.mp there
  exact ⟨found, (Round.kind_of_phase? here).symm ▸ here⟩

theorem getElem?_of_set {position : Nat} {after : Round}
    (found : node.rounds[position]? = some round)
    (set : next.rounds = node.rounds.setIfInBounds position after) (index : Nat) :
    next.rounds[index]? = if index = position then some after else node.rounds[index]? := by
  rw [set]
  exact getElem?_setRound found after index

/-- Where one round has been replaced, a round is that one, or the one that was there before. -/
theorem of_getElem?_of_set {position index : Nat} {former after later : Round}
    (known : node.rounds[position]? = some former)
    (set : next.rounds = node.rounds.setIfInBounds position after)
    (there : node.rounds[index]? = some round) (found : next.rounds[index]? = some later) :
    index ≠ position ∧ later = round ∨ index = position ∧ round = former ∧ later = after := by
  rw [getElem?_of_set known set] at found
  split at found
  case isTrue here =>
    subst here
    rw [there] at known
    exact Or.inr ⟨rfl, Option.some.inj known, (Option.some.inj found).symm⟩
  case isFalse other =>
    rw [there] at found
    exact Or.inl ⟨other, (Option.some.inj found).symm⟩

theorem getElem?_of_push {fresh : Round} {index : Nat}
    (pushed : next.rounds = node.rounds.push fresh) (there : node.rounds[index]? = some round) :
    next.rounds[index]? = some round := by
  obtain ⟨inside, -⟩ := Array.getElem?_eq_some_iff.mp there
  rw [pushed, Array.getElem?_push_lt inside, ← there, Array.getElem?_eq_getElem inside]

/-- Where a round has come in, the others are where they were. -/
theorem eq_of_push {fresh later : Round} {index : Nat}
    (pushed : next.rounds = node.rounds.push fresh)
    (there : node.rounds[index]? = some round) (found : next.rounds[index]? = some later) :
    later = round := by
  rw [getElem?_of_push pushed there] at found
  exact (Option.some.inj found).symm

/-- A phase that stays in its state is replaced. -/
theorem Effect.of_setPhase (there : node.phaseAt? ref = some (round, phase)) (after : Phase)
    (kind_eq : after.kind = phase.kind) (same : after.state = phase.state)
    (transmits : after.transmitter = phase.transmitter)
    (concerns : node.concerned? event = some ref.round)
    (set : next.rounds = (node.setPhase ref after).rounds)
    (silent : next.reports = node.reports) (unfailing : node.failing? event = none) :
    Effect node event next := by
  obtain ⟨found, here⟩ := of_phaseAt? there
  rw [setPhase_eq there] at set
  have here' : round.phase? after.kind = some phase := kind_eq ▸ here
  exact .changed concerns found set (.setPhase_of_same here' same transmits) silent unfailing

/-- A round that has not failed fails, and that is reported. -/
theorem failRound_live {position : Nat} (found : node.rounds[position]? = some round)
    (live : round.failure = none) (error : RoundError) :
    (node.failRound position error).2 =
      (node.setRound position { round with failure := some error }).emit
        (.roundFailed round.id error) := by
  have running : ¬ round.isFailed = true := by simp [Round.isFailed, live]
  rw [failRound, found]
  dsimp only
  rw [Round.fail, if_neg running]
  rfl

/-- **A run that fails** takes its round with it. -/
theorem failRun_spec (there : node.phaseAt? ref = some (round, phase)) (live : round.failure = none)
    (error : RoundError) : ∃ after : Round,
      (node.failRun ref phase error).rounds = node.rounds.setIfInBounds ref.round after ∧
        after.id = round.id ∧ after.failure = some error ∧
        after.transmitter? = round.transmitter? ∧
        (node.failRun ref phase error).reports = node.reports ++ [(round.id, error)] ∧
        (node.failRun ref phase error).docket.running = none := by
  have falls (phase : Phase) :
      phase.fail.2.kind = phase.kind ∧ phase.fail.2.transmitter = phase.transmitter := by
    rw [Phase.fail]
    split <;> exact ⟨rfl, rfl⟩
  obtain ⟨kind_eq, transmits⟩ := falls { phase with graph := phase.graph.kill }
  rw [failRun]
  dsimp only at kind_eq transmits ⊢
  generalize Prod.snd (Phase.fail _) = fallen at kind_eq transmits ⊢
  have there' : node.freed.phaseAt? ref = some (round, phase) := there
  have found : (node.freed.setPhase ref fallen).rounds[ref.round]? =
      some (round.setPhase fallen) := by
    rw [setPhase_eq there', getElem?_setRound (phaseAt?_eq_some.mp there').1, if_pos rfl]
  rw [failRound_live found live, setPhase_eq there']
  have here : round.phase? fallen.kind = some phase :=
    kind_eq ▸ (of_phaseAt? there).2
  refine ⟨{ round.setPhase fallen with failure := some error }, ?_, rfl, rfl,
    Round.transmitter?_setPhase here transmits, ?_, rfl⟩
  · exact Array.setIfInBounds_setIfInBounds ..
  · rw [reports_emit]
    rfl

/-- What a transmission still takes after its run has been closed fails nothing. -/
theorem abandonTransmission_spec (node : Node) (running : RunningPhase PhaseRef) :
    (node.abandonTransmission running).reports = node.reports ∧
      ((node.abandonTransmission running).rounds = node.rounds ∨ ∃ round after : Round,
        node.rounds[running.phase.round]? = some round ∧ round.Quiet after ∧
          (node.abandonTransmission running).rounds =
            node.rounds.setIfInBounds running.phase.round after) := by
  rw [abandonTransmission]
  split
  case h_2 => exact ⟨rfl, Or.inl rfl⟩
  case h_1 round phase _ there =>
    obtain ⟨found, here⟩ := of_phaseAt? there
    dsimp only
    rw [reports_emitConclusion, rounds_emitConclusion]
    generalize phase.graph.setPendingOutput _ = graph
    have set := setPhase_eq there { phase with graph }
    refine ⟨?_, Or.inr ⟨round, round.setPhase { phase with graph }, found,
      .setPhase_of_same here rfl rfl, ?_⟩⟩
    · show (node.setPhase running.phase { phase with graph }).reports = _
      rw [set]
      rfl
    · show (node.setPhase running.phase { phase with graph }).rounds = _
      rw [set]
      rfl

/-- The round whose run the consumer is busy with has not failed. -/
def Spared (node : Node) : Prop :=
  ∀ running round, node.queue.running = some running →
    node.rounds[running.phase.round]? = some round → round.failure = none

/-- A new round has not failed, and neither has any of its phases. -/
theorem effect_of_create {roundId batchSize : Nat} {nodes : List NodeId}
    {declared : List PhaseDeclaration} {responses : ResponseMap}
    (turn : node.Turn (.create roundId nodes batchSize declared responses) next) :
    Effect node (.create roundId nodes batchSize declared responses) next := by
  cases turn with
  | refused => exact .still rfl rfl rfl
  | @created _ _ _ _ _ _ round _ made _ =>
      obtain ⟨-, live, _, embeds⟩ := Round.create_spec made
      refine .opened live ?_ rfl rfl rfl rfl
      intro phase member failed
      obtain ⟨origin, known, graph, binding, rfl, -⟩ := embeds.origin phase member
      obtain ⟨declaration, -, rfl⟩ := List.mem_map.mp known
      cases failed

/-- A delivery fails nothing. -/
theorem effect_of_deliver {roundId : Nat} {tag : String} {sent : Mixnet.Event}
    (turn : node.Turn (.deliver roundId tag sent) next) :
    Effect node (.deliver roundId tag sent) next := by
  cases turn with
  | refused => exact .still rfl rfl rfl
  | @driven _ position _ _ round target live running found drives heard =>
      have concerns : node.concerned? (.deliver roundId tag sent) = some position := by
        rw [concerned?, live, Option.map_some]
      refine .changed concerns (roundAt?_eq_some live) ?_ (drives.quiet found) ?_ rfl
      · rw [afterDelivery]
        split <;> rfl
      · rw [afterDelivery]
        split <;> rfl

/-- Starting a phase fails it only if its round has failed. -/
theorem effect_of_start (sound : node.docket.Sound) (turn : node.Turn .start next) :
    Effect node .start next := by
  cases turn with
  | refused => exact .still rfl rfl rfl
  | missed next_up nowhere => exact .still rfl rfl rfl
  | @started ref rest round phase unstopped idle next_up there =>
      have initialized : phase.state = .initialized :=
        (sound.next_up next_up (standing?_of_phaseAt? there)).1
      have there' : (node.withWaiting rest).phaseAt? ref = some (round, phase) := there
      obtain ⟨found, here⟩ := of_phaseAt? there
      have concerns : node.concerned? .start = some ref.round := by
        rw [concerned?, next_up]
        rfl
      have inactive (state : PhaseState) (other : state ≠ .error) :
          round.Quiet (round.setPhase { phase with state }) :=
        .setPhase here rfl fun failed => absurd failed other
      rcases start_cases (node.withWaiting rest) ref round initialized with ⟨fails, failed⟩ |
        ⟨live, fault, -, stopped⟩ | ⟨live, graph, -, runs⟩
      · rw [failed, setPhase_eq there']
        exact .changed concerns found rfl (.setPhase here rfl fun _ _ => fails)
          rfl rfl
      · rw [stopped, setPhase_eq there']
        exact .changed concerns found rfl (inactive .active (by decide)) rfl rfl
      · have active : round.Quiet (round.setPhase { phase with state := .active }) :=
          inactive .active (by decide)
        have now : ((node.withWaiting rest).setPhase ref { phase with state := .active }).rounds[
            ref.round]? = some (round.setPhase { phase with state := .active }) := by
          rw [setPhase_eq there', getElem?_setRound (phaseAt?_eq_some.mp there').1, if_pos rfl]
        rw [runs]
        dsimp only
        rw [setPhase, now]
        dsimp only
        rw [setPhase_eq there']
        refine .changed concerns found (Array.setIfInBounds_setIfInBounds ..) (active.trans ?_) rfl
          rfl
        have again : (round.setPhase { phase with state := .active }).phase? phase.kind =
            some { phase with state := .active } := by
          rw [Round.phase?_setPhase, if_pos rfl, here, Option.map_some]
        exact .setPhase again rfl fun failed => by cases failed

/-- A transmitter at work fails nothing. -/
theorem effect_of_transmit (turn : node.Turn .transmit next) : Effect node .transmit next := by
  have concerns {running : RunningPhase PhaseRef} (runs : node.queue.running = some running) :
      node.concerned? .transmit = some running.phase.round := by
    rw [concerned?, runs, Option.map_some]
  cases turn with
  | refused => exact .still rfl rfl rfl
  | concluded runs there =>
      refine .still ?_ ?_ rfl
      · rw [concludeTransmission, rounds_emitConclusion]
      · rw [concludeTransmission, reports_emitConclusion]
        rfl
  | @took running round phase chunk graph runs there taken =>
      refine .of_setPhase there { phase with graph } rfl rfl rfl (concerns runs) rfl ?_ rfl
      show (node.setPhase running.phase { phase with graph }).reports = _
      rw [setPhase_eq there]
      rfl
  | broke runs there failed => exact .still rfl rfl rfl

/-- A run that is closed is done, or fails with the error of the verdict. -/
theorem effect_of_closeRun (sound : node.docket.Sound) (spared : node.Spared)
    (runs : node.queue.running = some running)
    (there : node.phaseAt? running.phase = some (round, phase)) {report : Report}
    (judged : node.failing? event = judged? running.phase phase report)
    (concerns : node.concerned? event = some running.phase.round) :
    Effect node event (node.closeRun running.phase round phase report) := by
  obtain ⟨found, here⟩ := of_phaseAt? there
  rcases closeRun_cases node running.phase round (active_of_running sound runs there) report with
    ⟨good, earlier, later, closed⟩ | ⟨error, bad, closed⟩
  · have there' : (node.freed.measure round.id earlier).phaseAt? running.phase =
        some (round, phase) := there
    rw [judged?, good] at judged
    rw [closed, setPhase_eq there']
    refine .changed concerns found rfl
      (.setPhase here rfl fun failed => ?_) rfl judged
    dsimp only at failed
    split at failed <;> cases failed
  · have live := spared running round runs found
    obtain ⟨after, set, id_eq, failure_eq, transmitter_eq, reported, idle⟩ :=
      failRun_spec there live error
    rw [judged?, bad] at judged
    rw [closed]
    exact .failed judged concerns found live set id_eq failure_eq transmitter_eq reported idle

/-- A transmission that is abandoned behind an event adds nothing to its effect. -/
theorem Effect.abandoned (effect : Effect node event next)
    (concerns : node.concerned? event = some running.phase.round) :
    Effect node event (next.abandonTransmission running) := by
  have stays : (next.abandonTransmission running).docket.running = next.docket.running :=
    congrArg Docket.running (docket_abandonTransmission next running)
  obtain ⟨told, kept | ⟨former, later, found, quiet, set⟩⟩ := next.abandonTransmission_spec running
  · cases effect with
    | still same silent sane => exact .still (kept.trans same) (told.trans silent) sane
    | opened live consistent pushed unrelated silent sane =>
        exact .opened live consistent (kept.trans pushed) unrelated (told.trans silent) sane
    | changed about there replaced calm silent sane =>
        exact .changed about there (kept.trans replaced) calm (told.trans silent) sane
    | failed fails about there live replaced id_eq failure_eq transmitter_eq reported idle =>
        exact .failed fails about there live (kept.trans replaced) id_eq failure_eq transmitter_eq
          (told.trans reported) (stays.trans idle)
  · -- The change is one of the round that the event is about.
    cases effect with
    | still same silent sane =>
        rw [same] at found set
        exact .changed concerns found set quiet (told.trans silent) sane
    | opened live consistent pushed unrelated =>
        rw [concerns] at unrelated
        cases unrelated
    | @changed position round after about there replaced calm silent sane =>
        obtain rfl : running.phase.round = position := Option.some.inj (concerns.symm.trans about)
        rw [getElem?_of_set there replaced, if_pos rfl] at found
        injection found with same
        subst same
        rw [replaced, Array.setIfInBounds_setIfInBounds] at set
        exact .changed about there set (calm.trans quiet) (told.trans silent) sane
    | @failed position round after error fails about there live replaced id_eq failure_eq
        transmitter_eq reported idle =>
        obtain rfl : running.phase.round = position := Option.some.inj (concerns.symm.trans about)
        rw [getElem?_of_set there replaced, if_pos rfl] at found
        injection found with same
        subst same
        rw [replaced, Array.setIfInBounds_setIfInBounds] at set
        exact .failed fails about there live set (quiet.id_eq.trans id_eq)
          (quiet.failure_eq.trans failure_eq) (quiet.transmitter_eq.trans transmitter_eq)
          (told.trans reported) (stays.trans idle)

/-- **Every event has one of these effects.** -/
theorem effect_of_act (sound : node.docket.Sound) (spared : node.Spared)
    (acted : node.act event = some next) : Effect node event next := by
  have turn := turn_of_act acted
  cases event with
  | create => exact effect_of_create turn
  | deliver => exact effect_of_deliver turn
  | drop roundId =>
      cases turn with
      | refused => exact .still rfl rfl rfl
      | @dropped _ position round live =>
          have concerns : node.concerned? (.drop roundId) = some position := by
            rw [concerned?, live, Option.map_some]
          have transmitter_eq : round.kill.transmitter? = round.transmitter? := by
            funext kind
            rw [Round.transmitter?, Round.phase?, Round.kill, List.find?_map, Option.map_map]
            rfl
          refine .changed concerns (roundAt?_eq_some live) rfl
            (.of_states rfl rfl transmitter_eq ?_) rfl rfl
          rw [Round.kill, List.map_map]
          rfl
  | erase position =>
      cases turn with
      | refused => exact .still rfl rfl rfl
      | erased there => exact .changed rfl there rfl (.of_states rfl rfl rfl rfl) rfl rfl
  | start => exact effect_of_start sound turn
  | transmit => exact effect_of_transmit turn
  | startFails reason =>
      obtain ⟨running, runs, acted⟩ := Option.bind_eq_some_iff.mp acted
      obtain ⟨⟨round, phase⟩, there, acted⟩ := Option.bind_eq_some_iff.mp acted
      injection acted with acted
      subst acted
      have found := (phaseAt?_eq_some.mp there).1
      have live := spared running round runs found
      obtain ⟨after, set, id_eq, failure_eq, transmitter_eq, reported, idle⟩ :=
        failRun_spec there live (.spawn phase.kind reason)
      refine .failed ?_ ?_ found live set id_eq failure_eq transmitter_eq reported idle
      · simp [failing?, runs, there]
      · rw [concerned?, runs, Option.map_some]
  | finish =>
      obtain ⟨running, runs, acted⟩ := Option.bind_eq_some_iff.mp acted
      obtain ⟨result, ended, acted⟩ := Option.bind_eq_some_iff.mp acted
      obtain ⟨⟨round, phase⟩, there, acted⟩ := Option.bind_eq_some_iff.mp acted
      injection acted with acted
      subst acted
      refine effect_of_closeRun sound spared runs there ?_ ?_
      · simp [failing?, runs, ended, there]
      · rw [concerned?, runs, Option.map_some]
  | expire =>
      obtain ⟨running, runs, acted⟩ := Option.bind_eq_some_iff.mp acted
      obtain ⟨⟨round, phase⟩, there, acted⟩ := Option.bind_eq_some_iff.mp acted
      injection acted with acted
      subst acted
      have concerns : node.concerned? .expire = some running.phase.round := by
        rw [concerned?, runs, Option.map_some]
      refine (effect_of_closeRun sound spared runs there ?_ concerns).abandoned concerns
      simp [failing?, runs, there]
  | work ref step =>
      cases turn with
      | refused => exact .still rfl rfl rfl
      | @worked _ _ round phase graph there acted =>
          refine .of_setPhase there { phase with graph } rfl rfl rfl rfl rfl ?_ rfl
          rw [setPhase_eq there]
          rfl
  | write ref worker write =>
      cases turn with
      | refused => exact .still rfl rfl rfl
      | @wrote _ _ _ round phase there inside =>
          obtain ⟨found, here⟩ := of_phaseAt? there
          rw [afterWrite]
          dsimp only
          generalize write.apply _ = written
          refine .changed rfl found rfl ?_ rfl rfl
          have replaced : round.Quiet (round.setPhase (phase.withStream written.stream)) :=
            .setPhase_of_same here rfl rfl
          exact replaced.trans (.of_states rfl rfl rfl rfl)
  | close =>
      cases turn with
      | refused => exact .still rfl rfl rfl
      | closed => exact .still rfl rfl rfl

/-! ## What an effect does to one round -/

/-- The first error of a round in a list of runs that failed. -/
def firstError (failures : List (Nat × RoundError)) (position : Nat) : Option RoundError :=
  (failures.find? (·.1 = position)).map Prod.snd

theorem firstError_append (earlier later : List (Nat × RoundError)) (position : Nat) :
    firstError (earlier ++ later) position =
      (firstError earlier position).or (firstError later position) := by
  rw [firstError, List.find?_append, firstError, firstError]
  cases earlier.find? (·.1 = position) <;> rfl

theorem firstError_eq_none {failures : List (Nat × RoundError)} {position : Nat} :
    firstError failures position = none ↔ position ∉ failures.map Prod.fst := by
  rw [firstError, Option.map_eq_none_iff, List.find?_eq_none]
  constructor
  · intro apart known
    obtain ⟨failure, member, here⟩ := List.mem_map.mp known
    exact apart failure member (decide_eq_true here)
  · intro unknown failure member here
    exact unknown (of_decide_eq_true here ▸ List.mem_map_of_mem member)

namespace Effect

variable {index : Nat} {later : Round}

/-- No round is lost. -/
theorem stays (effect : Effect node event next) (there : node.rounds[index]? = some round) :
    ∃ later, next.rounds[index]? = some later := by
  cases effect with
  | still kept => exact ⟨round, kept ▸ there⟩
  | opened live consistent pushed =>
      exact ⟨round, getElem?_of_push pushed there⟩
  | changed _ found set | failed _ _ found _ set =>
      rw [getElem?_of_set found set]
      split
      · exact ⟨_, rfl⟩
      · exact ⟨round, there⟩

/-- **A round keeps its number, and its error once it has one.** -/
theorem keeps (effect : Effect node event next) (there : node.rounds[index]? = some round)
    (found : next.rounds[index]? = some later) :
    later.id = round.id ∧ (round.Consistent → later.Consistent) ∧
      later.failure = round.failure.or (firstError (node.failing? event).toList index) := by
  have same (unchanged : later = round)
      (spared : firstError (node.failing? event).toList index = none) :
      later.id = round.id ∧ (round.Consistent → later.Consistent) ∧
        later.failure = round.failure.or (firstError (node.failing? event).toList index) := by
    subst unchanged
    rw [spared, Option.or_none]
    exact ⟨rfl, fun consistent => consistent, rfl⟩
  cases effect with
  | still kept silent sane =>
      refine same ?_ (by rw [sane]; rfl)
      rw [kept, there] at found
      exact (Option.some.inj found).symm
  | opened live consistent pushed unrelated silent sane =>
      exact same (eq_of_push pushed there found) (by rw [sane]; rfl)
  | changed about known set quiet silent sane =>
      rcases of_getElem?_of_set known set there found with ⟨-, unchanged⟩ | ⟨rfl, rfl, rfl⟩
      · exact same unchanged (by rw [sane]; rfl)
      · rw [sane]
        exact ⟨quiet.id_eq, quiet.consistent, quiet.failure_eq.trans (Option.or_none).symm⟩
  | failed fails about known live set id_eq failure_eq =>
      rcases of_getElem?_of_set known set there found with ⟨other, unchanged⟩ | ⟨rfl, rfl, rfl⟩
      · refine same unchanged ?_
        rw [fails]
        simpa [firstError] using Ne.symm other
      · refine ⟨id_eq, fun _ _ _ _ => by rw [Round.isFailed, failure_eq]; rfl, ?_⟩
        rw [failure_eq, live, fails]
        simp [firstError]

/-- Its phases keep their transmitters. -/
theorem transmitter_eq (effect : Effect node event next) (there : node.rounds[index]? = some round)
    (found : next.rounds[index]? = some later) : later.transmitter? = round.transmitter? := by
  cases effect with
  | still kept =>
      rw [kept, there] at found
      injection found with same
      rw [same]
  | opened _ _ pushed => rw [eq_of_push pushed there found]
  | changed _ known set quiet =>
      rcases of_getElem?_of_set known set there found with ⟨-, rfl⟩ | ⟨-, rfl, rfl⟩
      · rfl
      · exact quiet.transmitter_eq
  | failed _ _ known _ set _ _ kept =>
      rcases of_getElem?_of_set known set there found with ⟨-, rfl⟩ | ⟨-, rfl, rfl⟩
      · rfl
      · exact kept

/-- A round that was not there is new. -/
theorem new (effect : Effect node event next) (nowhere : node.rounds[index]? = none)
    (found : next.rounds[index]? = some later) :
    later.failure = none ∧ later.Consistent ∧ node.failing? event = none := by
  cases effect with
  | still kept =>
      rw [kept, nowhere] at found
      cases found
  | opened live consistent pushed unrelated silent sane =>
      rw [pushed, Array.getElem?_push] at found
      split at found
      · injection found with same
        subst same
        exact ⟨live, consistent, sane⟩
      · rw [nowhere] at found
        cases found
  | changed _ known set | failed _ _ known _ set =>
      rw [getElem?_of_set known set] at found
      split at found
      case isTrue here =>
        rw [← here, nowhere] at known
        cases known
      case isFalse =>
        rw [nowhere] at found
        cases found

/-- **No other round notices.** -/
theorem isolated (effect : Effect node event next) (other : node.concerned? event ≠ some index)
    (there : node.rounds[index]? = some round) : next.rounds[index]? = some round := by
  cases effect with
  | still kept => rw [kept, there]
  | opened live consistent pushed => exact getElem?_of_push pushed there
  | changed about known set | failed _ about known _ set =>
      rw [getElem?_of_set known set, if_neg, there]
      rintro rfl
      exact other about

end Effect

/-- A report tells of a run that failed: it has the number of its round, and its error. -/
def Tells (node : Node) (report failure : Nat × RoundError) : Prop :=
  ∃ round, node.rounds[failure.1]? = some round ∧ report = (round.id, failure.2)

namespace Effect

variable {report failure : Nat × RoundError}

/-- What has been told stays true. -/
theorem tells (effect : Effect node event next) (told : node.Tells report failure) :
    next.Tells report failure := by
  obtain ⟨round, there, rfl⟩ := told
  obtain ⟨later, found⟩ := effect.stays there
  exact ⟨later, found, by rw [(effect.keeps there found).1]⟩

/-- **What fails is reported**, and nothing else. -/
theorem told (effect : Effect node event next) {failures : List (Nat × RoundError)}
    (matched : List.Forall₂ node.Tells node.reports failures) :
    List.Forall₂ next.Tells next.reports (failures ++ (node.failing? event).toList) := by
  have kept := matched.imp fun _ _ told => effect.tells told
  cases effect with
  | still _ silent sane | opened _ _ _ _ silent sane | changed _ _ _ _ silent sane =>
      rw [silent, sane, Option.toList_none, List.append_nil]
      exact kept
  | @failed position round after error fails about known live set id_eq failure_eq
      transmitter_eq reported =>
      rw [reported, fails, Option.toList_some]
      refine List.rel_append kept (.cons ⟨after, ?_, ?_⟩ .nil)
      · rw [getElem?_of_set known set, if_pos rfl]
      · rw [id_eq]

/-- A run that fails is one of a round that had not failed. -/
theorem live_of_failing (effect : Effect node event next)
    (fails : node.failing? event = some failure) :
    ∃ round, node.rounds[failure.1]? = some round ∧ round.failure = none ∧
      next.docket.running = none := by
  cases effect with
  | still _ _ sane | opened _ _ _ _ _ sane | changed _ _ _ _ _ sane =>
      rw [sane] at fails
      cases fails
  | failed fails' _ known live _ _ _ _ _ idle =>
      rw [fails'] at fails
      injection fails with same
      subst same
      exact ⟨_, known, live, idle⟩

end Effect

/-- A phase that runs ran before, or has been activated in a round that had not failed. -/
theorem runs_of_act (sound : node.docket.Sound) (acted : node.act event = some next)
    (runs : next.docket.running = some ref) :
    node.docket.running = some ref ∨
      ∃ round, node.rounds[ref.round]? = some round ∧ round.failure = none := by
  obtain ⟨move, warranted⟩ := (turn_of_act acted).warranted sound
  have activates := warranted.activates
  have shift := warranted.shift
  generalize next.docket = docket at shift runs
  cases shift with
  | rest kept =>
      rcases kept with rfl | rfl
      · exact Or.inl runs
      · cases runs
  | opened | claimed | skipped | verified => exact Or.inl runs
  | completed | failed => cases runs
  | @activated started rest standing running idle next_up there goes =>
      obtain rfl : started = ref := by
        rcases goes with rfl | rfl
        · exact Option.some.inj runs
        · cases runs
      refine Or.inr ?_
      have begun : node.activated? event = some started := activates
      cases event with
      | start =>
          obtain ⟨head, -, begun⟩ := Option.bind_eq_some_iff.mp begun
          obtain ⟨⟨round, phase⟩, found, begun⟩ := Option.bind_eq_some_iff.mp begun
          dsimp only at begun
          split at begun
          case h_2 => cases begun
          case h_1 live _ =>
            injection begun with same
            subst same
            refine ⟨round, (phaseAt?_eq_some.mp found).1, ?_⟩
            simpa [Round.isFailed] using live
      | _ => cases begun

/-- **The round whose run the consumer is busy with has not failed.** -/
theorem Spared.act (sound : node.docket.Sound) (spared : node.Spared)
    (acted : node.act event = some next) : next.Spared := by
  have effect := effect_of_act sound spared acted
  intro running later runs found
  have before : ∀ round, node.rounds[running.phase.round]? = some round → round.failure = none := by
    intro round there
    rcases runs_of_act sound acted (running_docket runs) with ran | ⟨other, known, live⟩
    · obtain ⟨former, former_runs, same⟩ := Option.map_eq_some_iff.mp ran
      exact spared former round former_runs (by rw [same]; exact there)
    · rw [there] at known
      injection known with same
      exact same ▸ live
  cases there : node.rounds[running.phase.round]? with
  | none => exact (effect.new there found).1
  | some round =>
      obtain ⟨-, -, failure_eq⟩ := effect.keeps there found
      rw [failure_eq, before round there, Option.none_or]
      cases fails : node.failing? event with
      | none => rfl
      | some failure =>
          -- Behind a failure the consumer is idle.
          obtain ⟨-, -, -, idle⟩ := effect.live_of_failing fails
          rw [running_docket runs] at idle
          cases idle

/-! ## The invariant of a play -/

/-- What the failures of a play have led to. -/
structure Tally (node : Node) (events : List Event) (after : Node) : Prop where
  sound : after.docket.Sound
  spared : after.Spared
  consistent : ∀ (position : Nat) round, after.rounds[position]? = some round → round.Consistent
  traced : ∀ (position : Nat) round, after.rounds[position]? = some round →
    round.failure = firstError (node.failures events) position
  nodup : ((node.failures events).map Prod.fst).Nodup
  reported : List.Forall₂ after.Tells after.reports (node.failures events)

theorem failures_concat (played : node.play events = some before)
    (acted : before.act event = some after) :
    node.failures (events ++ [event]) =
      node.failures events ++ (before.failing? event).toList := by
  rw [failures, steps_concat played acted, List.filterMap_append]
  cases fails : before.failing? event <;> simp [failures, fails]

namespace Tally

/-- Failures are those of rounds that are there. -/
theorem exists_round (tally : Tally node events after) {failure : Nat × RoundError}
    (known : failure ∈ node.failures events) :
    ∃ round, after.rounds[failure.1]? = some round := by
  have matched := tally.reported
  generalize after.reports = reports at matched
  generalize node.failures events = failures at matched known
  induction matched with
  | nil => cases known
  | cons told _ ih =>
      rcases List.mem_cons.mp known with rfl | later
      · obtain ⟨round, there, -⟩ := told
        exact ⟨round, there⟩
      · exact ih later

/-- **Every event keeps the invariant.** -/
theorem step (tally : Tally node events before) (played : node.play events = some before)
    (acted : before.act event = some after) : Tally node (events ++ [event]) after := by
  have effect := effect_of_act tally.sound tally.spared acted
  obtain ⟨move, warranted⟩ := (turn_of_act acted).warranted tally.sound
  have failures_eq := failures_concat played acted
  refine
    { sound := warranted.shift.sound tally.sound
      spared := tally.spared.act tally.sound acted
      consistent := ?_
      traced := ?_
      nodup := ?_
      reported := ?_ }
  · intro position later found
    cases there : before.rounds[position]? with
    | none => exact (effect.new there found).2.1
    | some round => exact (effect.keeps there found).2.1 (tally.consistent position round there)
  · intro position later found
    rw [failures_eq, firstError_append]
    cases there : before.rounds[position]? with
    | none =>
        obtain ⟨live, -, sane⟩ := effect.new there found
        have unknown : firstError (node.failures events) position = none := by
          rw [firstError_eq_none]
          intro known
          obtain ⟨failure, member, rfl⟩ := List.mem_map.mp known
          obtain ⟨round, found⟩ := tally.exists_round member
          rw [there] at found
          cases found
        rw [live, unknown, sane]
        rfl
    | some round =>
        rw [(effect.keeps there found).2.2, tally.traced position round there]
  · rw [failures_eq, List.map_append]
    cases fails : before.failing? event with
    | none => simpa using tally.nodup
    | some failure =>
        obtain ⟨round, there, live, -⟩ := effect.live_of_failing fails
        have first : failure.1 ∉ (node.failures events).map Prod.fst := by
          rw [← firstError_eq_none, ← tally.traced failure.1 round there]
          exact live
        rw [Option.toList_some, List.map_singleton, ← List.concat_eq_append]
        exact tally.nodup.concat first
  · rw [failures_eq]
    exact effect.told tally.reported

end Tally

/-- Nothing has happened. -/
theorem Tally.nil (empty : node.rounds = #[]) (idle : node.queue = .create)
    (quiet : node.events = []) : Tally node [] node where
  sound := (Recorded.nil empty idle).sound
  spared := by simp [Spared, empty]
  consistent := by simp [empty]
  traced := by simp [empty]
  nodup := List.nodup_nil
  reported := by
    rw [reports, quiet]
    exact .nil

/-- **The invariant holds of every play.** -/
theorem tally {id : NodeId} {config : NodeConfig} {group : CyclicGroup}
    (created : create id config group = .ok node) (played : node.play events = some after) :
    Tally node events after := by
  induction events using List.reverseRecOn generalizing after with
  | nil =>
      injection played with played
      subst played
      obtain ⟨empty, idle, quiet⟩ := of_create created
      exact .nil empty idle quiet
  | append_singleton events event ih =>
      obtain ⟨before, reached, acted⟩ := play_concat played
      exact (ih reached).step reached acted

/-! ## The law -/

/-- **The law of containment**, for a play that leads from a node to another one. -/
structure Containment (node : Node) (events : List Event) (after : Node) : Prop where
  /-- A phase has failed only if its round has. -/
  failed_together : ∀ ref round phase, after.phaseAt? ref = some (round, phase) →
    phase.state = .error → round.isFailed = true
  /-- The error of a round is that of its first run that failed, and it stays. -/
  first_error : ∀ (position : Nat) round, after.rounds[position]? = some round →
    round.failure = firstError (node.failures events) position
  error_stays : ∀ earlier later before, events = earlier ++ later →
    node.play earlier = some before → ∀ (position : Nat) round error,
      before.rounds[position]? = some round → round.failure = some error →
        ∃ same, after.rounds[position]? = some same ∧ same.failure = some error
  /-- No round fails twice, and each failure is reported when its turn comes, as often as it
  happens. -/
  once : ((node.failures events).map Prod.fst).Nodup
  reported : List.Forall₂ after.Tells after.reports (node.failures events)
  /-- A failed round takes no event. -/
  deaf : ∀ roundId position round, after.roundAt? roundId = some (position, round) →
    round.isFailed = true → ∀ tag event,
      after.deliver roundId tag event = (.error (.error (.alreadyFailed round.id)), after)
  /-- A phase of a failed round that is taken from the queue fails, and nothing runs. -/
  passed_over : ∀ ref rest round phase, after.queue.fault = none → after.queue.running = none →
    after.queue.waiting = ref :: rest → after.phaseAt? ref = some (round, phase) →
      round.isFailed = true →
        after.act .start =
          some ((after.withWaiting rest).setPhase ref { phase with state := .error })
  /-- The failure of a kernel outranks whatever ends the run. -/
  kernel_first : ∀ event next running round phase failure, event = .finish ∨ event = .expire →
    after.act event = some next → after.queue.running = some running →
      after.phaseAt? running.phase = some (round, phase) → phase.graph.failure = some failure →
        ∃ failed, next.rounds[running.phase.round]? = some failed ∧
          failed.failure = some (.kernel failure.module failure.error)
  /-- No event changes another round. -/
  isolated : ∀ step ∈ node.steps events, ∀ (position : Nat) round,
    step.before.rounds[position]? = some round →
      step.before.concerned? step.event ≠ some position →
        step.after.rounds[position]? = some round

theorem failures_append {earlier later : List Event} (played : node.play earlier = some before) :
    node.failures (earlier ++ later) = node.failures earlier ++ before.failures later := by
  rw [failures, steps_append played, List.filterMap_append]
  rfl

/-- A failed round answers every event alike, and nothing changes. -/
theorem deliver_of_failed {roundId position : Nat}
    (live : node.roundAt? roundId = some (position, round)) (failed : round.isFailed = true)
    (tag : String) (event : Mixnet.Event) :
    node.deliver roundId tag event = (.error (.error (.alreadyFailed round.id)), node) := by
  have refused : round.deliver tag event = round.refuse (.error (.alreadyFailed round.id)) := by
    rw [Round.deliver, if_pos failed]
  rw [deliver_eq live, refused, afterDelivery_refuse (roundAt?_eq_some live)]
  rfl

/-- A phase of a failed round is passed over. -/
theorem act_start_of_failed {rest : List PhaseRef} (sound : node.docket.Sound)
    (unstopped : node.queue.fault = none) (idle : node.queue.running = none)
    (next_up : node.queue.waiting = ref :: rest) (there : node.phaseAt? ref = some (round, phase))
    (failed : round.isFailed = true) :
    node.act .start =
      some ((node.withWaiting rest).setPhase ref { phase with state := .error }) := by
  have initialized : phase.state = .initialized :=
    (sound.next_up next_up (standing?_of_phaseAt? there)).1
  have starts : node.act .start = some ((node.withWaiting rest).start ref round phase) := by
    show node.startNext = _
    rw [startNext, unstopped, idle, next_up]
    dsimp only
    rw [there]
    rfl
  rw [starts]
  rcases start_cases (node.withWaiting rest) ref round initialized with ⟨-, passed⟩ |
    ⟨live, -⟩ | ⟨live, -⟩
  · rw [passed]
  · rw [failed] at live
    cases live
  · rw [failed] at live
    cases live

/-- A run in which a kernel has failed fails with that. -/
theorem failing?_of_kernel {failure : ModuleFailure} (ends : event = .finish ∨ event = .expire)
    (acted : node.act event = some next) (runs : node.queue.running = some running)
    (there : node.phaseAt? running.phase = some (round, phase))
    (broken : phase.graph.failure = some failure) :
    node.failing? event =
      some (running.phase.round, .kernel failure.module failure.error) := by
  have outranks (report : Report) : judged? running.phase phase report =
      some (running.phase.round, .kernel failure.module failure.error) := by
    simp only [judged?, verdict, broken]
  rcases ends with rfl | rfl
  · obtain ⟨other, other_runs, acted⟩ := Option.bind_eq_some_iff.mp acted
    obtain ⟨result, ended, -⟩ := Option.bind_eq_some_iff.mp acted
    rw [runs] at other_runs
    injection other_runs with same
    subst same
    simp [failing?, runs, ended, there, outranks]
  · simp [failing?, runs, there, outranks]

/-- **Every play contains its failures.** -/
theorem containment {id : NodeId} {config : NodeConfig} {group : CyclicGroup}
    (created : create id config group = .ok node) (played : node.play events = some after) :
    Containment node events after := by
  have tallied := tally created played
  exact {
    failed_together := by
      intro ref round phase there failed
      obtain ⟨found, here⟩ := phaseAt?_eq_some.mp there
      exact tallied.consistent ref.round round found phase (Round.mem_of_phase? here) failed
    first_error := tallied.traced
    error_stays := by
      intro earlier later before split reached position round error there failed
      subst split
      have first : firstError (node.failures (earlier ++ later)) position = some error := by
        rw [failures_append reached, firstError_append,
          ← (tally created reached).traced position round there, failed, Option.some_or]
      obtain ⟨failure, known, -⟩ := Option.map_eq_some_iff.mp first
      have here : failure.1 = position := by simpa using List.find?_some known
      obtain ⟨same, found⟩ := tallied.exists_round (List.mem_of_find?_eq_some known)
      rw [here] at found
      exact ⟨same, found, (tallied.traced position same found).trans first⟩
    once := tallied.nodup
    reported := tallied.reported
    deaf := fun roundId position round live failed => deliver_of_failed live failed
    passed_over := fun ref rest round phase unstopped idle next_up there failed =>
      act_start_of_failed tallied.sound unstopped idle next_up there failed
    kernel_first := by
      intro event next running round phase failure ends acted runs there broken
      have found := (phaseAt?_eq_some.mp there).1
      have effect := effect_of_act tallied.sound tallied.spared acted
      obtain ⟨failed, later⟩ := effect.stays found
      refine ⟨failed, later, ?_⟩
      rw [(effect.keeps found later).2.2, tallied.spared running round runs found,
        failing?_of_kernel ends acted runs there broken]
      simp [firstError]
    isolated := by
      intro step member position round there other
      obtain ⟨earlier, later, -, reached, acted⟩ := of_mem_steps member
      have before := tally created reached
      exact (effect_of_act before.sound before.spared acted).isolated other there }

/-- Two rounds are created, and a kernel of the first fails.  Time is up before anybody looks. -/
def sampleFailure : List Event :=
  [sampleRound, .create 2 [⟨"local"⟩] 2 [samplePhase] ⟨[]⟩,
    .deliver 1 "input" (.slots [⟨0, [3], [5]⟩, ⟨1, [2], [3]⟩]), .start] ++
  [Dispatch.Step.take 0, .enter 0, .leave 0 (.error (.failed "broken"))].map
    (.work ⟨0, .realDecrypt⟩) ++
  [.expire, .deliver 1 "input" (.slots [⟨0, [3], [5]⟩])]

theorem containment_sample : ∃ node after, create ⟨"local"⟩ .minimal ⟨7, 2⟩ = .ok node ∧
    node.play sampleFailure = some after ∧ Containment node sampleFailure after ∧
    after.reports.map (fun report => (report.1, report.2.message)) =
      [(1, "module only: kernel failed: broken")] ∧
    (after.rounds.map Round.isFailed).toList = [true, false] := by
  have runs : samplePlays sampleFailure (fun _ after =>
      decide (after.reports.map (fun report => (report.1, report.2.message)) =
          [(1, "module only: kernel failed: broken")] ∧
        (after.rounds.map Round.isFailed).toList = [true, false])) = true := by
    decide +kernel
  obtain ⟨node, after, created, played, ends⟩ := exists_of_samplePlays runs
  obtain ⟨reported, failed⟩ := of_decide_eq_true ends
  exact ⟨node, after, created, played, containment created played, reported, failed⟩

end Node

end Mixnet
