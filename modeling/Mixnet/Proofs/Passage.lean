import Mathlib.Data.List.Induction
import Mixnet.Proofs.NodeDocket

/-!
# The passage of phases through a play

A play of a node is followed event by event, with the node before and the node after each.  What a
phase goes through on the way is its passage, and what was put into the queue and activated on the
way are two lists.  The laws of the lifecycle are laws about these three.

## Main definitions

* `Node.Step`, `Node.steps`: the events of a play, each between two nodes
* `Node.pushes`, `Node.activations`: the phases queued and activated, in order
* `Node.passage`: the states that a phase has gone through
* `Node.Recorded`: the invariant of a play
* `Node.Lifecycle`: the law of the lifecycle

## Main statements

* `Node.recorded`: the invariant holds of every play
* `Node.lifecycle`: so does the law

## Design notes

A claim counts as a push even if the queue is closed by then and drops it, so that the bound on
pushes is one on claims.
-/

namespace Mixnet

namespace Node

/-! ## Plays event by event -/

/-- An event of a play, between two nodes. -/
structure Step where
  /-- The node to which it happens. -/
  before : Node
  /-- What happens. -/
  event : Event
  /-- The node that it leads to. -/
  after : Node

/-- The events of a play, one by one. -/
def steps (node : Node) : List Event → List Step
  | [] => []
  | event :: rest =>
    match node.act event with
    | none => []
    | some next => ⟨node, event, next⟩ :: next.steps rest

/-- The phases that are put into the resource queue, in order. -/
def pushes (node : Node) (events : List Event) : List PhaseRef :=
  (node.steps events).filterMap fun step => step.before.pushed? step.event

/-- The phases that are activated, in order. -/
def activations (node : Node) (events : List Event) : List PhaseRef :=
  (node.steps events).filterMap fun step => step.before.activated? step.event

/-- The states that a phase goes through, without repetitions. -/
def passage (node : Node) (events : List Event) (ref : PhaseRef) : List PhaseState :=
  ((node.steps events).map fun step => step.after.docket.state? ref).foldl PhaseState.goOn []

section Steps

variable {node before after : Node} {events : List Event} {event : Event}

/-- The steps of a play go on where those of its beginning end. -/
theorem steps_append {earlier later : List Event} (played : node.play earlier = some before) :
    node.steps (earlier ++ later) = node.steps earlier ++ before.steps later := by
  induction earlier generalizing node with
  | nil =>
      injection played with same
      subst same
      rfl
  | cons first earlier ih =>
      obtain ⟨next, begun, continued⟩ := Option.bind_eq_some_iff.mp played
      simp [steps, begun, ih continued]

/-- The last event of a play is its last step. -/
theorem steps_concat (played : node.play events = some before)
    (acted : before.act event = some after) :
    node.steps (events ++ [event]) = node.steps events ++ [⟨before, event, after⟩] := by
  simp [steps_append played, steps, acted]

/-- A step of a play is an event behind those before it. -/
theorem of_mem_steps {step : Step} (member : step ∈ node.steps events) :
    ∃ earlier later, events = earlier ++ step.event :: later ∧
      node.play earlier = some step.before ∧ step.before.act step.event = some step.after := by
  induction events generalizing node with
  | nil => cases member
  | cons event events ih =>
      cases acted : node.act event with
      | none => simp [steps, acted] at member
      | some next =>
          simp only [steps, acted, List.mem_cons] at member
          rcases member with rfl | member
          · exact ⟨[], events, rfl, rfl, acted⟩
          · obtain ⟨earlier, later, rfl, played, last⟩ := ih member
            exact ⟨event :: earlier, later, rfl, by rw [play, acted]; exact played, last⟩

theorem event_mem_of_mem_steps {step : Step} (member : step ∈ node.steps events) :
    step.event ∈ events := by
  obtain ⟨earlier, later, split, -⟩ := of_mem_steps member
  rw [split]
  exact List.mem_append_right _ List.mem_cons_self

theorem pushes_concat (played : node.play events = some before)
    (acted : before.act event = some after) :
    node.pushes (events ++ [event]) = node.pushes events ++ (before.pushed? event).toList := by
  rw [pushes, steps_concat played acted, List.filterMap_append]
  cases pushed : before.pushed? event <;> simp [pushes, pushed]

theorem activations_concat (played : node.play events = some before)
    (acted : before.act event = some after) :
    node.activations (events ++ [event]) =
      node.activations events ++ (before.activated? event).toList := by
  rw [activations, steps_concat played acted, List.filterMap_append]
  cases activated : before.activated? event <;> simp [activations, activated]

theorem passage_concat (played : node.play events = some before)
    (acted : before.act event = some after) (ref : PhaseRef) :
    node.passage (events ++ [event]) ref =
      PhaseState.goOn (node.passage events ref) (after.docket.state? ref) := by
  rw [passage, steps_concat played acted, List.map_append, List.foldl_append]
  rfl

end Steps

/-! ## The invariant of a play -/

/-- A step that makes a phase with verification verified is a verification that finds it
computed. -/
def Step.Confirms (step : Step) : Prop :=
  ∀ ref standing, step.after.docket.standing? ref = some standing → standing.state = .verified →
    standing.verification = true → step.before.docket.state? ref ≠ some .verified →
    step.before.Verifies ref step.event

/-- What holds of every play of a node that begins without rounds. -/
structure Recorded (node : Node) (events : List Event) (after : Node) : Prop where
  sound : after.docket.Sound
  lawful : after.Lawful
  nodup : (node.pushes events).Nodup
  claimed : ∀ ref ∈ node.pushes events, after.docket.Claimed ref
  in_turn : (node.activations events ++ after.docket.waiting).Sublist (node.pushes events)
  traces : after.docket.Traces (node.passage events)
  declared : ∀ ref standing, after.docket.standing? ref = some standing →
    ∃ step ∈ node.steps events, step.before.Declares ref step.event standing.verification
  earned : ∀ ref standing, after.docket.standing? ref = some standing →
    standing.state = .computed ∨ standing.state = .verified →
    ∃ step ∈ node.steps events, step.before.Completes ref step.event
  confirmed : ∀ step ∈ node.steps events, step.Confirms

namespace Recorded

variable {node before after : Node} {events : List Event} {event : Event}

/-- Nothing has happened. -/
theorem nil (empty : node.rounds = #[]) (idle : node.queue = .create) : Recorded node [] node := by
  have nothing (ref : PhaseRef) : node.docket.standing? ref = none := by
    rw [standing?_docket, phase?_eq, empty]
    rfl
  refine
    { sound := Docket.sound_of_nothing nothing ?_ ?_
      lawful := ?_
      nodup := List.nodup_nil
      claimed := by simp [pushes, steps]
      in_turn := ?_
      traces := ?_
      declared := by simp [nothing]
      earned := by simp [nothing]
      confirmed := by simp [steps] }
  · show node.queue.waiting = []
    rw [idle]
    rfl
  · show node.queue.running.map RunningPhase.phase = none
    rw [idle]
    rfl
  · intro fault stopped
    rw [idle] at stopped
    cases stopped
  · show ([] ++ node.queue.waiting).Sublist []
    rw [idle]
    exact List.Sublist.refl _
  · intro ref
    rw [nothing]
    rfl

/-- **A warranted move keeps the invariant.** -/
theorem step (recorded : Recorded node events before) (played : node.play events = some before)
    (acted : before.act event = some after) : Recorded node (events ++ [event]) after := by
  have turn := turn_of_act acted
  obtain ⟨move, warranted⟩ := turn.warranted recorded.sound
  have steps_eq := steps_concat played acted
  have earlier {step : Step} (known : step ∈ node.steps events) :
      step ∈ node.steps (events ++ [event]) := by
    rw [steps_eq]
    exact List.mem_append_left _ known
  have latest : (⟨before, event, after⟩ : Step) ∈ node.steps (events ++ [event]) := by
    rw [steps_eq]
    exact List.mem_append_right _ (List.mem_singleton_self _)
  obtain ⟨nodup, claimed⟩ :=
    warranted.shift.claims recorded.sound recorded.nodup recorded.claimed
  rw [← warranted.pushes, ← pushes_concat played acted] at nodup claimed
  have in_turn := warranted.shift.in_turn recorded.in_turn
  rw [← warranted.pushes, ← warranted.activates, ← pushes_concat played acted,
    ← activations_concat played acted] at in_turn
  have fate := warranted.shift.fate recorded.sound
  refine
    { sound := warranted.shift.sound recorded.sound
      lawful := turn.lawful recorded.sound recorded.lawful
      nodup
      claimed
      in_turn
      traces := ?_
      declared := ?_
      earned := ?_
      confirmed := ?_ }
  · have traces := warranted.shift.traces recorded.sound recorded.traces
    intro ref
    rw [passage_concat played acted]
    exact traces ref
  · intro ref standing now
    rcases (fate ref).origin now with ⟨old, there, same⟩ | ⟨fresh, opens, known⟩
    · obtain ⟨step, member, declares⟩ := recorded.declared ref old there
      exact ⟨step, earlier member, same ▸ declares⟩
    · subst opens
      exact ⟨_, latest, warranted.grounds ref _ known⟩
  · intro ref standing now done
    rcases (fate ref).done now done with ⟨old, there, did⟩ | completes
    · obtain ⟨step, member, completes⟩ := recorded.earned ref old there did
      exact ⟨step, earlier member, completes⟩
    · subst completes
      exact ⟨_, latest, warranted.grounds⟩
  · intro step member
    rw [steps_eq, List.mem_append, List.mem_singleton] at member
    rcases member with member | rfl
    · exact recorded.confirmed step member
    · intro ref standing now verified needed fresh
      obtain ⟨verifies, -⟩ := (fate ref).confirmed now verified needed fresh
      subst verifies
      exact warranted.grounds

end Recorded

/-- **The invariant holds of every play.** -/
theorem recorded {node after : Node} {id : NodeId} {config : NodeConfig} {group : CyclicGroup}
    (created : create id config group = .ok node) {events : List Event}
    (played : node.play events = some after) : Recorded node events after := by
  induction events using List.reverseRecOn generalizing after with
  | nil =>
      injection played with same
      subst same
      exact .nil (of_create created).1 (of_create created).2.1
  | append_singleton events event ih =>
      obtain ⟨before, reached, acted⟩ := play_concat played
      exact (ih reached).step reached acted

/-! ## The law -/

/-- **The law of the lifecycle**, for a play that leads from a node to another one. -/
structure Lifecycle (node : Node) (events : List Event) (after : Node) : Prop where
  /-- Every phase is put into the queue at most once. -/
  pushed_once : (node.pushes events).Nodup
  /-- Every phase is activated at most once, in the order of the queue. -/
  activated_once : (node.activations events).Nodup
  in_turn : (node.activations events).Sublist (node.pushes events)
  /-- No illegal move stops the consumer, and none comes of an event. -/
  consumer_legal : ∀ fault, after.queue.fault = some fault → fault.isTransition = false
  events_legal : ∀ roundId tag event fault,
    (after.deliver roundId tag event).1 = .error (.fault fault) → fault.isTransition = false
  /-- A phase came in with a round, declared with or without verification. -/
  declared : ∀ ref phase, after.phase? ref = some phase →
    ∃ step ∈ node.steps events, step.before.Declares ref step.event phase.verification
  /-- What it has gone through ends where it stands, and is its course, or the beginning of it, or
  that beginning cut short by an error. -/
  arrived : ∀ ref phase, after.phase? ref = some phase →
    (node.passage events ref).getLast? = some phase.state
  course : ∀ ref phase, after.phase? ref = some phase →
    node.passage events ref <+: PhaseState.course phase.verification ∨
      ∃ begun, begun ≠ [] ∧ begun <+: [.initialized, .active] ∧
        node.passage events ref = begun ++ [.error]
  /-- A phase that has to be verified becomes so by a verification that finds it computed. -/
  confirmed : ∀ step ∈ node.steps events, ∀ ref phase, step.after.phase? ref = some phase →
    phase.verification = true → phase.state = .verified →
    step.before.docket.state? ref ≠ some .verified → step.before.Verifies ref step.event
  /-- A phase that has done its work was run to the end without failing. -/
  earned : ∀ ref phase, after.phase? ref = some phase →
    phase.state = .computed ∨ phase.state = .verified →
    ∃ step ∈ node.steps events, step.before.Completes ref step.event

/-- **Every play follows the lifecycle.** -/
theorem lifecycle {node after : Node} {id : NodeId} {config : NodeConfig} {group : CyclicGroup}
    (created : create id config group = .ok node) {events : List Event}
    (played : node.play events = some after) : Lifecycle node events after := by
  have recorded := recorded created played
  have in_turn : (node.activations events).Sublist (node.pushes events) :=
    (List.sublist_append_left _ _).trans recorded.in_turn
  have standing {node : Node} {ref : PhaseRef} {phase : Phase}
      (there : node.phase? ref = some phase) :
      node.docket.standing? ref = some phase.standing := by
    rw [standing?_docket, there, Option.map_some]
  have trail {ref : PhaseRef} {phase : Phase} (there : after.phase? ref = some phase) :
      Trail phase.verification (node.passage events ref) phase.state := by
    have traced := recorded.traces ref
    rw [standing there] at traced
    exact traced
  exact {
    pushed_once := recorded.nodup
    activated_once := recorded.nodup.sublist in_turn
    in_turn
    consumer_legal := recorded.lawful
    events_legal := by
      intro roundId tag event fault faulted
      rw [deliver] at faulted
      split at faulted
      case h_1 => cases faulted
      case h_2 => exact Round.lawful_deliver faulted
    declared := fun ref phase there => recorded.declared ref phase.standing (standing there)
    arrived := fun ref phase there => (trail there).getLast?_eq
    course := fun ref phase there => (trail there).shape
    confirmed := fun step member ref phase there needed verified fresh =>
      recorded.confirmed step member ref phase.standing (standing there) verified needed fresh
    earned := fun ref phase there done => recorded.earned ref phase.standing (standing there) done }

/-- The whole life of the phase of the sample: it is fed, run, and verified by a peer. -/
def sampleLife : List Event :=
  [sampleRound, .deliver 1 "input" (.slots [⟨0, [3], [5]⟩, ⟨1, [2], [3]⟩]), .start] ++
  [Dispatch.Step.take 0, .enter 0, .leave 0 (.ok ()), .proceed 0, .proceed 0, .proceed 0].map
    (.work ⟨0, .realDecrypt⟩) ++
  [.transmit, .transmit, .transmit, .finish, .deliver 1 "done" .verify]

theorem lifecycle_sample : ∃ node after, create ⟨"local"⟩ .minimal ⟨7, 2⟩ = .ok node ∧
    node.play sampleLife = some after ∧ Lifecycle node sampleLife after ∧
    node.passage sampleLife ⟨0, .realDecrypt⟩ = [.initialized, .active, .computed, .verified] := by
  have runs : samplePlays sampleLife (fun node _ => decide
      (node.passage sampleLife ⟨0, .realDecrypt⟩ =
        [.initialized, .active, .computed, .verified])) = true := by
    decide +kernel
  obtain ⟨node, after, created, played, passes⟩ := exists_of_samplePlays runs
  exact ⟨node, after, created, played, lifecycle created played, of_decide_eq_true passes⟩

end Node

end Mixnet
