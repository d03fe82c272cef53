import Mixnet.Proofs.NodePlay
import Mixnet.Proofs.WireForm

/-!
# Refused events

An event that is answered by an error should leave no trace.  It leaves none if the round refuses it
before anything is taken: the round has failed, the tag is unknown, the gate is shut, the slots do
not follow one another inside the batch, or nothing waits to be verified.  The slots of an event are
decoded and stored one at a time, though, and an event whose first slots are good and whose next one
is not is refused with the good ones in the stream.  This file says that nothing else remains, and
shows that this does.

## Main definitions

* `Node.Distinct`: every round has at most one phase of each kind

## Main statements

* `Stream.output_inputAll`: taking slots changes the cells of those slots alone
* `Node.distinct_of_play`: no play leads to a round with two phases of one kind
* `Node.refused_event`: what a refused event leaves behind
* `Node.refused_slots_linger`: a refused event that leaves a slot behind

## Design notes

The law is about every round that was ever created, so it covers a round that has been dropped and
is still held by someone.  What it compares is the whole node: phases, queue, metrics and events.
-/

namespace Mixnet

/-! ## Cells -/

/-- A slot that is taken changes what comes out at its own index only. -/
theorem LinkedPayloads.output_input_of_ne {cells after : LinkedPayloads} {index other : Nat}
    {slot : Slot} (taken : cells.input index slot = .ok after) (apart : index ≠ other) :
    after.output other = cells.output other := by
  obtain ⟨-, -, -, rfl⟩ := input_eq_ok_iff.mp taken
  simp only [output, checkIndex, GroupArray.valueAt_put_of_ne apart]

namespace Stream

variable {stream after : Stream}

theorem output_input_of_ne {index other : Nat} {slot : Slot}
    (taken : stream.input index slot = .ok after) (apart : index ≠ other) :
    after.output other = stream.output other := by
  cases stream with
  | blank name =>
      injection taken with same
      subst same
      rfl
  | payload stored =>
      cases cells_eq : stored.cells with
      | none => simp [input, PayloadStream.input, PayloadStream.linked, cells_eq, bind, Except.bind,
          Except.map] at taken
      | some cells =>
          simp only [input, PayloadStream.input, PayloadStream.linked, cells_eq] at taken
          cases changed : cells.input index slot with
          | error error => simp [changed, bind, Except.bind, Except.map] at taken
          | ok next =>
              simp only [changed, bind, Except.bind, Except.map, pure, Except.pure] at taken
              injection taken with same
              subst same
              simp only [output, PayloadStream.output, PayloadStream.linked, cells_eq, bind,
                Except.bind]
              exact LinkedPayloads.output_input_of_ne changed apart

/-- **Taking slots changes the cells of those slots alone.** -/
theorem output_inputAll {slots : List Slot} (taken : stream.inputAll slots = .ok after)
    {index : Nat} (apart : ∀ slot ∈ slots, slot.index ≠ index) :
    after.output index = stream.output index := by
  induction slots generalizing stream with
  | nil =>
      injection taken with same
      rw [same]
  | cons slot slots ih =>
      rw [inputAll] at taken
      split at taken
      case h_1 => cases taken
      case h_2 next first =>
        rw [ih taken fun other later => apart other (List.mem_cons_of_mem _ later),
          output_input_of_ne first (apart slot List.mem_cons_self)]

end Stream

/-! ## Rounds -/

namespace Round

variable {round : Round} {tag : String} {event : Event} {error : RoundError}

/-- A refused event has either met its refusal before anything was taken, or it is an event of slots
of which some were taken. -/
theorem refused_cases (distinct : round.Distinct)
    (refused : (round.deliver tag event).outcome = .error (.error error)) :
    round.deliver tag event = round.refuse (.error error) ∨
      ∃ target accepted bad rest stream refusal, event = .slots (accepted ++ bad :: rest) ∧
        accepted ≠ [] ∧ error = .stream refusal ∧ round.route tag = .ok target ∧
        target.graph.stream.inputAll accepted = .ok stream ∧
        stream.input bad.index bad = .error refusal ∧
        round.deliver tag event =
          (round.setPhase (target.withStream stream)).refuse (.error error) := by
  rcases round.deliver_cases tag event with ⟨cause, at_once⟩ | ⟨-, target, routed, found, drives⟩
  · rw [at_once] at refused
    injection refused with refused
    injection refused with same
    subst same
    exact Or.inl at_once
  · generalize delivered : round.deliver tag event = delivery at drives refused
    cases drives with
    | misplaced range =>
        injection refused with same
        subst same
        exact Or.inl rfl
    | @spoiled accepted rest bad chunk stream refusal range taken unfit =>
        injection refused with refused
        injection refused with same
        subst same
        rcases accepted with - | ⟨first, others⟩
        · injection taken with same
          subst same
          rw [Phase.withStream_self, setPhase_self distinct found]
          exact Or.inl rfl
        · exact Or.inr ⟨target, first :: others, bad, rest, stream, refusal, rfl,
            List.cons_ne_nil _ _, rfl, routed, taken, unfit, rfl⟩
    | crashed => cases refused
    | sent => cases refused
    | started => cases refused
    | unready elsewhere =>
        injection refused with refused
        injection refused with same
        subst same
        exact Or.inl rfl
    | verified => cases refused

/-- Driving a phase changes no kinds. -/
theorem Drives.kinds_eq {target : Phase} {delivery : Delivery}
    (drives : round.Drives target event delivery) :
    delivery.round.phases.map Phase.kind = round.phases.map Phase.kind := by
  cases drives with
  | misplaced | unready => rfl
  | spoiled | crashed | sent | started | verified => exact kinds_setPhase _ _

end Round

/-! ## Every round of a node -/

namespace Node

variable {node after : Node}

/-- Every round has at most one phase of each kind. -/
def Distinct (node : Node) : Prop :=
  ∀ (position : Nat) (round : Round), node.rounds[position]? = some round → round.Distinct

namespace Distinct

theorem of_rounds_eq (distinct : node.Distinct) (same : after.rounds = node.rounds) :
    after.Distinct := by
  rw [Distinct, same]
  exact distinct

/-- A change of a round that keeps its kinds. -/
theorem setRound (distinct : node.Distinct) {position : Nat} {round changed : Round}
    (found : node.rounds[position]? = some round)
    (same : changed.phases.map Phase.kind = round.phases.map Phase.kind) :
    (node.setRound position changed).Distinct := by
  intro index other there
  rw [getElem?_setRound found] at there
  split at there
  case isFalse => exact distinct index other there
  case isTrue =>
    injection there with here
    subst here
    rw [Round.Distinct, same]
    exact distinct position round found

theorem setPhase (distinct : node.Distinct) (ref : PhaseRef) (phase : Phase) :
    (node.setPhase ref phase).Distinct := by
  rw [Node.setPhase]
  split
  case h_1 => exact distinct
  case h_2 round found => exact distinct.setRound found (Round.kinds_setPhase round phase)

theorem failRound (distinct : node.Distinct) {position : Nat} (error : RoundError) :
    (node.failRound position error).2.Distinct := by
  cases found : node.rounds[position]? with
  | none =>
      rw [Node.failRound, found]
      exact distinct
  | some round =>
      obtain ⟨failure, events, failed⟩ := failRound_eq found error
      rw [failed]
      have changed : (node.setRound position { round with failure }).Distinct :=
        distinct.setRound found rfl
      exact changed.of_rounds_eq rfl

theorem failRun (distinct : node.Distinct) (ref : PhaseRef) (phase : Phase) (error : RoundError) :
    (node.failRun ref phase error).Distinct := by
  have freed : node.freed.Distinct := distinct.of_rounds_eq rfl
  exact (freed.setPhase ref _).failRound error

theorem emitConclusion (distinct : node.Distinct) (context : TransmitContext)
    (conclusion : Conclusion) : (node.emitConclusion context conclusion).Distinct := by
  obtain ⟨events, emitted⟩ := emitConclusion_eq node context conclusion
  rw [emitted]
  exact distinct.of_rounds_eq rfl

theorem stopConsumer (distinct : node.Distinct) (fault : Fault) :
    (node.stopConsumer fault).Distinct :=
  distinct.of_rounds_eq rfl

theorem applyStep (distinct : node.Distinct) (ref : PhaseRef) (roundId : Nat) (step : PhaseStep) :
    (node.applyStep ref roundId step).Distinct :=
  (distinct.setPhase ref step.phase).of_rounds_eq rfl

theorem start (distinct : node.Distinct) (ref : PhaseRef) (round : Round) (phase : Phase) :
    (node.start ref round phase).Distinct := by
  have activated := distinct.applyStep ref round.id phase.activate
  rw [Node.start]
  split
  case isTrue => exact distinct.setPhase ref _
  case isFalse =>
    dsimp only
    split
    case h_1 => exact activated.stopConsumer _
    case h_2 => exact activated
    case h_3 =>
      split
      case h_1 => exact activated.stopConsumer _
      case h_2 graph _ => exact (activated.setPhase ref _).of_rounds_eq rfl

theorem closeRun (distinct : node.Distinct) (ref : PhaseRef) (round : Round) (phase : Phase)
    (report : Report) : (node.closeRun ref round phase report).Distinct := by
  have finalized (transmitted : Node) (same : transmitted.rounds = node.rounds) :
      (transmitted.applyStep ref round.id phase.finalize).Distinct :=
    (distinct.of_rounds_eq same).applyStep ref round.id _
  rw [Node.closeRun]
  split
  case h_1 =>
    dsimp only
    split
    case h_1 =>
      refine Distinct.stopConsumer ?_ _
      exact finalized _ rfl
    case h_2 => exact finalized _ rfl
  case h_2 error _ => exact distinct.failRun ref phase error

theorem abandonTransmission (distinct : node.Distinct) (running : RunningPhase PhaseRef) :
    (node.abandonTransmission running).Distinct := by
  rw [Node.abandonTransmission]
  split
  case h_1 =>
    refine Distinct.emitConclusion ?_ _ _
    exact (distinct.setPhase running.phase _).of_rounds_eq rfl
  case h_2 => exact distinct

/-- What is done to one round keeps all of them distinct, and so does a new round that is. -/
theorem turn (distinct : node.Distinct) {event : Event} (turn : node.Turn event after) :
    after.Distinct := by
  cases turn with
  | refused => exact distinct
  | @created _ _ _ _ _ _ round registry made added =>
      intro position other there
      rw [Array.getElem?_push] at there
      split at there
      case isTrue =>
        injection there with same
        subst same
        exact (Round.create_spec made).1
      case isFalse => exact distinct position other there
  | driven live running found drives heard =>
      refine (distinct.setRound (roundAt?_eq_some live) drives.kinds_eq).of_rounds_eq ?_
      rw [afterDelivery]
      split <;> rfl
  | @dropped _ position round live =>
      have kinds_eq : round.kill.phases.map Phase.kind = round.phases.map Phase.kind := by
        rw [Round.kill, List.map_map]
        rfl
      exact (distinct.setRound (roundAt?_eq_some live) kinds_eq).of_rounds_eq rfl
  | erased there => exact distinct.setRound there rfl
  | missed => exact distinct.of_rounds_eq rfl
  | @started ref rest =>
      have taken : (node.withWaiting rest).Distinct := distinct.of_rounds_eq rfl
      exact taken.start _ _ _
  | concluded runs there =>
      refine Distinct.emitConclusion ?_ _ _
      exact distinct.of_rounds_eq rfl
  | took runs there taken => exact (distinct.setPhase _ _).of_rounds_eq rfl
  | broke => exact distinct.of_rounds_eq rfl
  | unstarted runs there => exact distinct.failRun _ _ _
  | finished runs ended there => exact distinct.closeRun _ _ _ _
  | expired runs there => exact (distinct.closeRun _ _ _ _).abandonTransmission _
  | worked there acted => exact distinct.setPhase _ _
  | wrote there inside =>
      exact distinct.setRound (phaseAt?_eq_some.mp there).1 (Round.kinds_setPhase _ _)
  | closed => exact distinct.of_rounds_eq rfl

end Distinct

/-- **No play leads to a round with two phases of one kind.** -/
theorem distinct_of_play {id : NodeId} {config : NodeConfig} {group : CyclicGroup}
    (created : create id config group = .ok node) {events : List Event}
    (played : node.play events = some after) : after.Distinct := by
  refine play_induction ?_ ?_ played
  · intro position round there
    rw [(of_create created).1] at there
    cases there
  · intro before event next distinct acted
    exact distinct.turn (turn_of_act acted)

/-! ## What is left behind -/

section Refused

variable {id : NodeId} {config : NodeConfig} {group : CyclicGroup} {events : List Event}

/-- **What a refused event leaves behind.**  Whatever has happened to a node, an event that one of
its rounds refuses leaves the whole node as it was, unless it is an event of slots of which the
stream took some before it refused one.  Those it took are then in the stream, the cells of no other
slot have changed, and neither has anything else. -/
theorem refused_event (created : create id config group = .ok node)
    (played : node.play events = some after) {position : Nat} {round : Round}
    (there : after.rounds[position]? = some round) {tag : String} {event : Mixnet.Event}
    {error : RoundError} (refused : (round.deliver tag event).outcome = .error (.error error)) :
    after.afterDelivery position round.id (round.deliver tag event) = after ∨
      ∃ target accepted bad rest stream refusal, event = .slots (accepted ++ bad :: rest) ∧
        accepted ≠ [] ∧ error = .stream refusal ∧ round.route tag = .ok target ∧
        target.graph.stream.inputAll accepted = .ok stream ∧
        stream.input bad.index bad = .error refusal ∧
        (∀ index, (∀ slot ∈ accepted, slot.index ≠ index) →
          stream.output index = target.graph.stream.output index) ∧
        after.afterDelivery position round.id (round.deliver tag event) =
          after.setPhase { round := position, kind := target.kind } (target.withStream stream) := by
  have distinct := distinct_of_play created played position round there
  rcases Round.refused_cases distinct refused with at_once | ⟨target, accepted, bad, rest, stream,
    refusal, event_eq, some_taken, error_eq, routed, taken, unfit, late⟩
  · rw [at_once]
    exact Or.inl (afterDelivery_refuse there _)
  · refine Or.inr ⟨target, accepted, bad, rest, stream, refusal, event_eq, some_taken, error_eq,
      routed, taken, unfit, fun index apart => Stream.output_inputAll taken apart, ?_⟩
    rw [late, setPhase, there]
    rfl

end Refused

/-- Whether an event was answered by an error. -/
def isRefused (delivery : Delivery) : Bool :=
  match delivery.outcome with
  | .error (.error _) => true
  | _ => false

theorem exists_error_of_isRefused {delivery : Delivery} (refused : isRefused delivery = true) :
    ∃ error, delivery.outcome = .error (.error error) := by
  rw [isRefused] at refused
  split at refused
  case h_1 error answered => exact ⟨error, answered⟩
  case h_2 => cases refused

theorem refused_event_sample : ∃ node after round error,
    create ⟨"local"⟩ .minimal ⟨7, 2⟩ = .ok node ∧ node.play [sampleRound] = some after ∧
      after.rounds[0]? = some round ∧
      (round.deliver "input" .verify).outcome = .error (.error error) ∧
      after.afterDelivery 0 round.id (round.deliver "input" .verify) = after := by
  have runs : samplePlays [sampleRound] (fun _ after => after.rounds[0]?.any fun round =>
      isRefused (round.deliver "input" .verify)) = true := by
    decide +kernel
  obtain ⟨node, after, created, played, runs⟩ := exists_of_samplePlays runs
  obtain ⟨round, there, runs⟩ := (Option.any_eq_true _ _).mp runs
  obtain ⟨error, refused⟩ := exists_error_of_isRefused runs
  refine ⟨node, after, round, error, created, played, there, refused, ?_⟩
  rcases refused_event created played there refused with same | ⟨_, _, _, _, _, _, slots, _⟩
  · exact same
  · cases slots

/-! ## A slot that stays -/

/-- The content of a slot in the stream of a phase. -/
def slotAt? (node : Node) (ref : PhaseRef) (index : Nat) : Option Slot :=
  (node.phase? ref).bind fun phase => (phase.graph.stream.output index).toOption

/-- Two slots, of which the second holds a value outside the group. -/
def spoiledSlots : List Slot := [⟨0, [3], [5]⟩, ⟨1, [0], [3]⟩]

/-- **A refused event that leaves a slot behind.**  The second slot is refused, and the event is
answered by an error, but the first slot holds the new payloads from then on. -/
theorem refused_slots_linger : ∃ node after round error,
    create ⟨"local"⟩ .minimal ⟨7, 2⟩ = .ok node ∧ node.play [sampleRound] = some after ∧
      after.rounds[0]? = some round ∧
      (round.deliver "input" (.slots spoiledSlots)).outcome = .error (.error error) ∧
      after.slotAt? ⟨0, .realDecrypt⟩ 0 = some ⟨0, [1], [1]⟩ ∧
      (after.afterDelivery 0 round.id
        (round.deliver "input" (.slots spoiledSlots))).slotAt? ⟨0, .realDecrypt⟩ 0 =
          some ⟨0, [3], [5]⟩ := by
  have runs : samplePlays [sampleRound] (fun _ after => after.rounds[0]?.any fun round =>
      let delivery := round.deliver "input" (.slots spoiledSlots)
      isRefused delivery && decide (after.slotAt? ⟨0, .realDecrypt⟩ 0 = some ⟨0, [1], [1]⟩ ∧
        (after.afterDelivery 0 round.id delivery).slotAt? ⟨0, .realDecrypt⟩ 0 =
          some ⟨0, [3], [5]⟩)) = true := by
    decide +kernel
  obtain ⟨node, after, created, played, runs⟩ := exists_of_samplePlays runs
  obtain ⟨round, there, runs⟩ := (Option.any_eq_true _ _).mp runs
  rw [Bool.and_eq_true, decide_eq_true_eq] at runs
  obtain ⟨refused, clean, spoiled⟩ := runs
  obtain ⟨error, refused⟩ := exists_error_of_isRefused refused
  exact ⟨node, after, round, error, created, played, there, refused, clean, spoiled⟩

end Node

end Mixnet
